import Calcar.Agent.Storage

/-!
# The lifecycle of a workflow

The workflow manager of `calcar-workflow`, the writer of the state column, and
the session manager beside it.  Each function is a sequence of calls of the
store, each call committed by itself.
-/

namespace Calcar.Agent

open Lib

/-- `LifecycleError`. -/
inductive LifecycleError where
  | refused (message : String)
  | storage (e : StorageError)
  deriving DecidableEq, Repr

/-- `WorkflowView`. -/
structure WorkflowView where
  stored : WorkflowRow
  projected : WorkflowState
  deriving DecidableEq, Repr

/-- `RecoveryDecision`. -/
inductive RecoveryDecision where
  | reattach (providerSessionId : String) (resumePointer : Option String)
      (replayedEvents : Nat) (lastSeq : Option Int)
  | cleanFailed (reason : String)
  | alreadyTerminal (state : WorkflowState)
  deriving DecidableEq, Repr

/-- A call of the store inside the manager: `#[from] StorageError`. -/
def stored {α : Type} (p : Code (Except StorageError α)) : Code (Except LifecycleError α) := do
  return (← p).mapError .storage

@[simp] theorem mapError_ok {ε ε' α : Type} (f : ε → ε') (a : α) :
    (Except.ok a : Except ε α).mapError f = .ok a := rfl

/-- `check_storable`. -/
def checkStorable : WorkflowState → Except LifecycleError Unit
  | .unspecified => .error (.refused "unspecified state is never persisted")
  | .disconnectedRunning =>
      .error (.refused "disconnected-running is a projection only; use project_on_disconnect")
  | .running => .ok ()
  | .waitingInput => .ok ()
  | .waitingApproval => .ok ()
  | .completed => .ok ()
  | .failed => .ok ()
  | .stopped => .ok ()

/-- `check_reason`. -/
def checkReason (reason : String) : Except LifecycleError Unit :=
  if reason = "" then .error (.refused "transition reason must not be empty") else .ok ()

/-- The type of the event that `record` appends for a state. -/
def lifecycleEvent : WorkflowState → Option EventType
  | .running => some .agentStarted
  | .waitingInput => some .inputRequired
  | .waitingApproval => some .approvalRequired
  | .completed => some .workflowCompleted
  | .failed => some .errorOccurred
  | .stopped => some .workflowStopped
  | .unspecified => none
  | .disconnectedRunning => none

/-- The event of `record`. -/
def lifecycleDraft (w : String) (session : Option String) (next : WorkflowState)
    (eventType : EventType) (reason : String) (occurred : Int) : EventDraft where
  workflowId := w
  eventId := "lifecycle-" ++ w ++ "-" ++ toString next.toI32 ++ "-" ++ toString occurred
  providerSessionId := session
  occurredAtMillis := occurred
  eventType := eventType
  summary := reason
  detailPointer := none

/-- `record`. -/
def record (w : String) (session : Option String) (next : WorkflowState) (reason : String) :
    Code (Except LifecycleError Int) :=
  match lifecycleEvent next with
  | none =>
      return .error (.refused
        ("state " ++ next.debug ++ " is never stored and gets no lifecycle event"))
  | some eventType => do
      let occurred ← now
      stored (appendEvent (lifecycleDraft w session next eventType reason occurred))

namespace WorkflowManager

/-- The binding that `create_workflow` stores when it is given a session. -/
def bindCreated (w : String) : Option String → Code (Except LifecycleError Unit)
  | none => return .ok ()
  | some session => stored (upsertSessionBinding w session none)

/-- `create_workflow`. -/
def createWorkflow (w : String) (provider : Provider) (title : String)
    (session : Option String) : Code (Except LifecycleError WorkflowRow) :=
  if w = "" then return .error (.refused "workflow id must not be empty")
  else if title = "" then return .error (.refused "workflow title must not be empty")
  else if provider = .unspecified then return .error (.refused "provider must be specified")
  else
    andThen (stored (Agent.createWorkflow w provider title session)) fun row =>
      andThen (bindCreated w session) fun _ =>
        andThen (record row.workflowId row.providerSessionId .running "workflow created")
          fun _ => return .ok row

/-- `transition`. -/
def transition (w : String) (next : WorkflowState) (reason : String) :
    Code (Except LifecycleError WorkflowRow) :=
  match checkStorable next with
  | .error e => return .error e
  | .ok () =>
      match checkReason reason with
      | .error e => return .error e
      | .ok () =>
          andThen (stored (setWorkflowState w next)) fun row =>
            andThen (record row.workflowId row.providerSessionId next reason) fun _ =>
              return .ok row

/-- `transition_on_disconnect`. -/
def transitionOnDisconnect (w : String) (next : WorkflowState) (reason : String) :
    Code (Except LifecycleError WorkflowRow) :=
  if next = .completed then
    return .error (.refused
      "disconnect never completes a workflow; stored state is unchanged")
  else transition w next reason

/-- The refusals of a state column that holds no state, or one never stored. -/
def unknownState (w : String) (state : Int) : LifecycleError :=
  .refused ("stored state " ++ toString state ++ " for workflow " ++ w ++ " is not a known state")

def neverPersists (w : String) (state : WorkflowState) : LifecycleError :=
  .refused ("stored state " ++ state.debug ++ " for workflow " ++ w ++ " must never persist")

/-- What `project_on_disconnect` shows for a stored state. -/
def projected (w : String) : WorkflowState → Except LifecycleError WorkflowState
  | .completed => .ok .completed
  | .failed => .ok .failed
  | .stopped => .ok .stopped
  | .unspecified => .error (neverPersists w .unspecified)
  | .disconnectedRunning => .error (neverPersists w .disconnectedRunning)
  | .running => .ok .disconnectedRunning
  | .waitingInput => .ok .disconnectedRunning
  | .waitingApproval => .ok .disconnectedRunning

/-- `project_on_disconnect`. -/
def projectOnDisconnect (w : String) : Code (Except LifecycleError WorkflowView) :=
  andThen (stored (getWorkflow w)) fun row =>
    match row with
    | none => return .error (.storage (.notFound ("workflow " ++ w)))
    | some row =>
        match WorkflowState.fromI32 row.state with
        | none => return .error (unknownState w row.state)
        | some state => return (projected w state).map fun p => ⟨row, p⟩

/-- `u32::MAX`. -/
def maxU32 : Nat := 4294967295

/-- The reason of a clean failure. -/
def unboundReason (w : String) : String :=
  "restart recovery: no session binding for workflow " ++ w ++ "; marked failed"

/-- `reconcile` for a workflow that has not ended. -/
def recover (w : String) (row : WorkflowRow) : Code (Except LifecycleError RecoveryDecision) :=
  andThen (stored (getSessionBinding w)) fun binding =>
    andThen (stored (eventsAfter w 0 maxU32)) fun replayed =>
      match binding with
      | some (session, pointer) =>
          return .ok (.reattach session pointer replayed.length
            (replayed.getLast?.map WorkflowEvent.seqNo))
      | none =>
          andThen (stored (setWorkflowState w .failed)) fun _ =>
            andThen (record w row.providerSessionId .failed (unboundReason w)) fun _ =>
              return .ok (.cleanFailed (unboundReason w))

/-- `reconcile`. -/
def reconcile (w : String) : Code (Except LifecycleError RecoveryDecision) :=
  andThen (stored (getWorkflow w)) fun row =>
    match row with
    | none => return .error (.storage (.notFound ("workflow " ++ w)))
    | some row =>
        match WorkflowState.fromI32 row.state with
        | none => return .error (unknownState w row.state)
        | some .completed => return .ok (.alreadyTerminal .completed)
        | some .failed => return .ok (.alreadyTerminal .failed)
        | some .stopped => return .ok (.alreadyTerminal .stopped)
        | some .unspecified => return .error (neverPersists w .unspecified)
        | some .disconnectedRunning => return .error (neverPersists w .disconnectedRunning)
        | some .running => recover w row
        | some .waitingInput => recover w row
        | some .waitingApproval => recover w row

end WorkflowManager

namespace SessionManager

/-- `SessionBinding`. -/
structure SessionBinding where
  workflowId : String
  providerSessionId : String
  resumePointer : Option String
  deriving DecidableEq, Repr

/-- `bind`. -/
def bind (w session : String) (pointer : Option String) : Code (Except StorageError Unit) :=
  if w = "" then return .error (.invalidState "workflow id must not be empty")
  else if session = "" then
    return .error (.invalidState "provider session id must not be empty")
  else
    andThen (getWorkflow w) fun row =>
      match row with
      | none => return .error (.notFound ("workflow " ++ w))
      | some _ => upsertSessionBinding w session pointer

/-- `lookup`. -/
def lookup (w : String) : Code (Except StorageError (Option SessionBinding)) :=
  andThen (getSessionBinding w) fun binding =>
    return .ok (binding.map fun b => ⟨w, b.1, b.2⟩)

end SessionManager

end Calcar.Agent
