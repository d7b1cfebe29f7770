import Calcar.Agent.Sqlite

/-!
# JSON values and the workflow snapshot

`json.rs` as far as bodies are built and read here, and `catalog.rs`: the
registry of what the server touched and the body of a workflow snapshot.
-/

namespace Calcar.Agent

/-- `Value`.  No modelled body holds a number that is no `i64`. -/
inductive Value where
  | null
  | bool (b : Bool)
  | int (n : Int)
  | str (s : String)
  | arr (vs : List Value)
  | obj (fields : List (String × Value))

namespace Value

/-- The value under a key of an object. -/
def field (key : String) : Value → Option Value
  | obj fields => (fields.find? fun f => f.1 = key).map Prod.snd
  | _ => none

/-- `str_field`. -/
def strField (v : Value) (key : String) : Option String :=
  match v.field key with
  | some (str s) => some s
  | _ => none

/-- `bool_field`. -/
def boolField (v : Value) (key : String) : Option Bool :=
  match v.field key with
  | some (bool b) => some b
  | _ => none

end Value

/-- `ResolvedApproval`. -/
structure ResolvedApproval where
  approvalId : String
  workflowId : String
  resolution : String
  deriving DecidableEq, Repr

/-- `Registry`: a hint, never truth. -/
structure Registry where
  workflows : List String := []
  approvals : List ResolvedApproval := []
  deriving DecidableEq, Repr

namespace Registry

/-- `touch_workflow`. -/
def touchWorkflow (r : Registry) (w : String) : Registry :=
  if w = "" ∨ w ∈ r.workflows then r else { r with workflows := r.workflows ++ [w] }

theorem touchWorkflow_approvals (r : Registry) (w : String) :
    (r.touchWorkflow w).approvals = r.approvals := by
  unfold touchWorkflow
  split <;> rfl

/-- `record_approval`. -/
def recordApproval (r : Registry) (row : ResolvedApproval) : Registry :=
  { r with approvals := (r.approvals.filter fun kept => kept.approvalId ≠ row.approvalId) ++ [row] }

end Registry

/-- Newest activity rows in a snapshot. -/
def activityCap : Nat := 500

/-- The ring read of a snapshot, past the ring's own limit. -/
def ringReadLimit : Nat := 5500

/-- `status_str`. -/
def statusStr (state : Int) : String :=
  match WorkflowState.fromI32 state with
  | some .running => "running"
  | some .waitingInput => "waiting_input"
  | some .waitingApproval => "waiting_approval"
  | some .completed => "completed"
  | some .failed => "failed"
  | some .stopped => "stopped"
  | _ => "unknown_" ++ toString state

/-- One row of a snapshot's activity. -/
def activityRow (e : WorkflowEvent) : Value :=
  .obj [("event_id", .str e.eventId), ("event_type", .int e.eventType.toI32),
    ("summary", .str e.summary), ("occurred_at_millis", .int e.occurredAtMillis),
    ("seq_no", .int e.seqNo)]

/-- One row of a snapshot's approvals. -/
def approvalRow (r : ResolvedApproval) : Value :=
  .obj [("approval_id", .str r.approvalId), ("title", .str ""), ("detail", .str ""),
    ("expires_at_millis", .int 0), ("resolution", .str r.resolution),
    ("destructive", .bool false)]

/-- `workflow_snapshot_body`. -/
def workflowSnapshotBody (registry : Registry) (db : Db) (computerId w : String) :
    Option Value :=
  match db.getWorkflow w with
  | none => none
  | some row =>
      let events := db.eventsAfter w 0 ringReadLimit
      let lastSeqNo := ((events.getLast?).map WorkflowEvent.seqNo).getD 0
      let tailStart := events.length - activityCap
      let approvals := registry.approvals.filter fun r => r.workflowId = w
      some (.obj [("workflow_id", .str row.workflowId), ("computer_id", .str computerId),
        ("status", .str (statusStr row.state)), ("last_seq_no", .int lastSeqNo),
        ("activity", .arr ((events.drop tailStart).map activityRow)), ("chat", .arr []),
        ("terminal_lines", .arr []), ("terminal_total_lines", .int 0), ("files", .arr []),
        ("files_truncated", .bool false), ("approvals", .arr (approvals.map approvalRow))])

end Calcar.Agent
