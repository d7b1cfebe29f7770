import Calcar.Text

/-!
# The agent's tables

The event model of `calcar-events` and the rows of the agent's SQLite file
(`calcar-storage/migrations/0001_init.sql`).  Discriminants are stored as
integers and read back through `from_i32`, so a column may hold a number
that names nothing.
-/

namespace Calcar.Agent

/-- `Provider`. -/
inductive Provider where
  | unspecified
  | opencode
  | claude
  | codex
  | generic
  deriving DecidableEq, Repr

namespace Provider

def toI32 : Provider → Int
  | unspecified => 0
  | opencode => 1
  | claude => 2
  | codex => 3
  | generic => 4

def fromI32 (n : Int) : Option Provider :=
  if n = 0 then some unspecified
  else if n = 1 then some opencode
  else if n = 2 then some claude
  else if n = 3 then some codex
  else if n = 4 then some generic
  else none

@[simp] theorem fromI32_toI32 (p : Provider) : fromI32 p.toI32 = some p := by
  cases p <;> rfl

end Provider

/-- `WorkflowState`. -/
inductive WorkflowState where
  | unspecified
  | running
  | waitingInput
  | waitingApproval
  | completed
  | failed
  | stopped
  | disconnectedRunning
  deriving DecidableEq, Repr

namespace WorkflowState

def toI32 : WorkflowState → Int
  | unspecified => 0
  | running => 1
  | waitingInput => 2
  | waitingApproval => 3
  | completed => 4
  | failed => 5
  | stopped => 6
  | disconnectedRunning => 7

def fromI32 (n : Int) : Option WorkflowState :=
  if n = 0 then some unspecified
  else if n = 1 then some running
  else if n = 2 then some waitingInput
  else if n = 3 then some waitingApproval
  else if n = 4 then some completed
  else if n = 5 then some failed
  else if n = 6 then some stopped
  else if n = 7 then some disconnectedRunning
  else none

@[simp] theorem fromI32_toI32 (s : WorkflowState) : fromI32 s.toI32 = some s := by
  cases s <;> rfl

/-- The name that `Debug` prints. -/
def debug : WorkflowState → String
  | unspecified => "Unspecified"
  | running => "Running"
  | waitingInput => "WaitingInput"
  | waitingApproval => "WaitingApproval"
  | completed => "Completed"
  | failed => "Failed"
  | stopped => "Stopped"
  | disconnectedRunning => "DisconnectedRunning"

/-- `is_persistable`. -/
def isPersistable (s : WorkflowState) : Bool := s ≠ unspecified ∧ s ≠ disconnectedRunning

end WorkflowState

/-- `EventType`. -/
inductive EventType where
  | unspecified
  | agentStarted
  | commandStarted
  | commandCompleted
  | fileChanged
  | approvalRequired
  | inputRequired
  | errorOccurred
  | workflowCompleted
  | workflowStopped
  deriving DecidableEq, Repr

namespace EventType

def toI32 : EventType → Int
  | unspecified => 0
  | agentStarted => 1
  | commandStarted => 2
  | commandCompleted => 3
  | fileChanged => 4
  | approvalRequired => 5
  | inputRequired => 6
  | errorOccurred => 7
  | workflowCompleted => 8
  | workflowStopped => 9

def fromI32 (n : Int) : Option EventType :=
  if n = 0 then some unspecified
  else if n = 1 then some agentStarted
  else if n = 2 then some commandStarted
  else if n = 3 then some commandCompleted
  else if n = 4 then some fileChanged
  else if n = 5 then some approvalRequired
  else if n = 6 then some inputRequired
  else if n = 7 then some errorOccurred
  else if n = 8 then some workflowCompleted
  else if n = 9 then some workflowStopped
  else none

@[simp] theorem fromI32_toI32 (t : EventType) : fromI32 t.toI32 = some t := by
  cases t <;> rfl

end EventType

/-- `WorkflowEvent`.  Sequence numbers are positive, so `as u64` changes
nothing. -/
structure WorkflowEvent where
  eventId : String
  workflowId : String
  providerSessionId : Option String
  seqNo : Int
  occurredAtMillis : Int
  eventType : EventType
  summary : String
  detailPointer : Option String
  deriving DecidableEq, Repr

/-- `StorageError`, as far as the modelled functions raise it; `sqlite` is
every error of the database itself. -/
inductive StorageError where
  | sqlite
  | invalidState (message : String)
  | notFound (what : String)
  | alreadyResolved (id : String)
  | expired (id : String)
  deriving DecidableEq, Repr

/-- `RequestKind`. -/
inductive RequestKind where
  | input
  | approval
  deriving DecidableEq, Repr

/-- `RequestState`. -/
inductive RequestState where
  | pending
  | resolved
  | expired
  deriving DecidableEq, Repr

/-- A row of `workflows`. -/
structure WorkflowRow where
  workflowId : String
  provider : Int
  state : Int
  title : String
  providerSessionId : Option String
  createdAtMillis : Int
  updatedAtMillis : Int
  deriving DecidableEq, Repr

/-- A row of `workflow_events`. -/
structure EventRow where
  workflowId : String
  seqNo : Int
  eventId : String
  providerSessionId : Option String
  type : Int
  occurredAtMillis : Int
  summary : String
  detailPointer : Option String
  approxBytes : Nat
  deriving DecidableEq, Repr

/-- A row of `outbox`. -/
structure OutboxRow where
  workflowId : String
  seqNo : Int
  enqueuedAtMillis : Int
  publishedAtMillis : Option Int := none
  deriving DecidableEq, Repr

/-- A row of `ring_truncations`. -/
structure TruncationRow where
  workflowId : String
  truncatedBeforeSeq : Int
  droppedCount : Int
  atMillis : Int
  deriving DecidableEq, Repr

/-- A row of `pending_requests`. -/
structure RequestRow where
  requestId : String
  workflowId : String
  kind : RequestKind
  state : RequestState := .pending
  createdAtMillis : Int
  expiresAtMillis : Option Int
  resolvedAtMillis : Option Int := none
  resolvePayload : Option String := none
  deriving DecidableEq, Repr

/-- A row of `session_bindings`. -/
structure BindingRow where
  workflowId : String
  providerSessionId : String
  resumePointer : Option String
  boundAtMillis : Int
  deriving DecidableEq, Repr

/-- The tables of the agent's file. -/
structure Db where
  workflows : List WorkflowRow := []
  bindings : List BindingRow := []
  events : List EventRow := []
  outbox : List OutboxRow := []
  truncations : List TruncationRow := []
  requests : List RequestRow := []
  deriving DecidableEq, Repr

end Calcar.Agent
