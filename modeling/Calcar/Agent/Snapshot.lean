import Calcar.Agent.Server

/-!
# The workflow snapshot

The GET route of `calcar-connect` that serves one workflow:
`handle_workflow_snapshot` of `server.rs`.
-/

namespace Calcar.Agent

open Lib

/-- A request to the snapshot route, the path taken apart. -/
structure SnapshotGet where
  headers : List (String × String)
  computer : String
  workflow : String

/-- The object `workflow_snapshot_body` makes of what it has read. -/
def snapshotObject (registry : Registry) (row : WorkflowRow) (events : List WorkflowEvent)
    (computerId w : String) : Value :=
  let lastSeqNo := ((events.getLast?).map WorkflowEvent.seqNo).getD 0
  let tailStart := events.length - activityCap
  let approvals := registry.approvals.filter fun r => r.workflowId = w
  .obj [("workflow_id", .str row.workflowId), ("computer_id", .str computerId),
    ("status", .str (statusStr row.state)), ("last_seq_no", .int lastSeqNo),
    ("activity", .arr ((events.drop tailStart).map activityRow)), ("chat", .arr []),
    ("terminal_lines", .arr []), ("terminal_total_lines", .int 0), ("files", .arr []),
    ("files_truncated", .bool false), ("approvals", .arr (approvals.map approvalRow))]

/-- `workflow_snapshot_body`, one statement at a time. -/
def readSnapshot (computerId w : String) : Code (Except StorageError (Option Value)) := do
  let registry ← Prog.perform Cmd.readRegistry
  andThen (getWorkflow w) fun row =>
    match row with
    | none => return .ok none
    | some row =>
        andThen (sql (.selectEventsAfter w 0 ringReadLimit)) fun events =>
          return .ok (some (snapshotObject registry row events computerId w))

/-- What is read at one point is the body of the snapshot. -/
theorem workflowSnapshotBody_eq (registry : Registry) (db : Db) (computerId w : String) :
    workflowSnapshotBody registry db computerId w =
      (db.getWorkflow w).map fun row =>
        snapshotObject registry row (db.eventsAfter w 0 ringReadLimit) computerId w := by
  unfold workflowSnapshotBody
  cases db.getWorkflow w with
  | none => rfl
  | some row => rfl

/-- `handle_workflow_snapshot`. -/
def handleWorkflowSnapshot (computerId : String) (g : SnapshotGet) : Code Response :=
  if g.computer ≠ computerId then return errorBody 404 "COMPUTER_UNKNOWN" "unknown computer"
  else
    orInternal openStore fun _ =>
      orInternal (readSnapshot g.computer g.workflow) fun found =>
        match found with
        | none => return errorBody 404 "WORKFLOW_UNKNOWN" "unknown workflow"
        | some body => do
            Prog.perform (Cmd.touchWorkflow g.workflow)
            Prog.perform Cmd.saveRegistry
            return jsonOk body

/-- `reply` on the snapshot route. -/
def replySnapshot (cfg : ConnectConfig) (computerId : String) (g : SnapshotGet) :
    Code Response :=
  if bearerOk ⟨g.headers, g.workflow, .unreadable⟩ cfg.token then
    handleWorkflowSnapshot computerId g
  else return ⟨401, none⟩

end Calcar.Agent
