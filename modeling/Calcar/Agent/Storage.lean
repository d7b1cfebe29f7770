import Calcar.Agent.Machine

/-!
# The functions of the agent's store

`calcar-storage`, each function as the statements it sends one after another.
A process that dies in between leaves the statements sent so far.
-/

namespace Calcar.Agent

open Lib

/-- `Storage::get_workflow`. -/
def getWorkflow (w : String) : Code (Except StorageError (Option WorkflowRow)) :=
  sql (.selectWorkflow w)

/-- `create_pending_request`. -/
def createPendingRequest (id w : String) (kind : RequestKind) (expiresAt : Option Int) :
    Code (Except StorageError Unit) :=
  andThen (getWorkflow w) fun row =>
    match row with
    | none => return .error (.notFound ("workflow " ++ w))
    | some _ => do
        let t ← now
        sql (.insertRequest id w kind expiresAt t)

/-- `resolve_pending_request`. -/
def resolvePendingRequest (id payload : String) : Code (Except StorageError Unit) := do
  let t ← now
  andThen (sql (.updateExpired id t)) fun _ =>
    andThen (sql (.updateResolved id payload t)) fun updated =>
      if updated = 1 then return .ok ()
      else
        andThen (sql (.selectRequestState id)) fun state =>
          match state with
          | some .expired => return .error (.expired id)
          | some _ => return .error (.alreadyResolved id)
          | none => return .error (.notFound ("request " ++ id))

/-- `expire_pending_requests`. -/
def expirePendingRequests : Code (Except StorageError Nat) := do
  let t ← now
  sql (.updateAllExpired t)

/-- `create_workflow`. -/
def createWorkflow (w : String) (provider : Provider) (title : String)
    (session : Option String) : Code (Except StorageError WorkflowRow) := do
  let t ← now
  let row : WorkflowRow := {
    workflowId := w
    provider := provider.toI32
    state := WorkflowState.running.toI32
    title := title
    providerSessionId := session
    createdAtMillis := t
    updatedAtMillis := t }
  andThen (sql (.insertWorkflow row)) fun _ => return .ok row

/-- `TERMINAL_STATES`: completed, failed, stopped. -/
def terminalStates : List Int := [4, 5, 6]

/-- `set_workflow_state`. -/
def setWorkflowState (w : String) (next : WorkflowState) :
    Code (Except StorageError WorkflowRow) :=
  if ¬next.isPersistable then
    return .error (.invalidState
      ("state " ++ next.debug ++ " is a projection or unspecified and is never persisted"))
  else
    andThen (getWorkflow w) fun row =>
      match row with
      | none => return .error (.notFound ("workflow " ++ w))
      | some current =>
          if current.state ∈ terminalStates then
            return .error (.invalidState
              ("workflow " ++ w ++ " is in terminal state " ++ toString current.state ++
                "; no transitions out"))
          else do
            let t ← now
            andThen (sql (.updateWorkflowState w next.toI32 t)) fun _ =>
              andThen (getWorkflow w) fun row =>
                match row with
                | none => return .error (.notFound ("workflow " ++ w))
                | some row => return .ok row

/-- `append_event`; the sequence number stands for the event it returns. -/
def appendEvent (d : EventDraft) : Code (Except StorageError Int) :=
  andThen (getWorkflow d.workflowId) fun row =>
    match row with
    | none => return .error (.notFound ("workflow " ++ d.workflowId))
    | some _ => do
        let t ← now
        let trimmedAt ← now
        sql (.appendEvent d t trimmedAt)

/-- `events_after`. -/
def eventsAfter (w : String) (afterSeq : Int) (limit : Nat) :
    Code (Except StorageError (List WorkflowEvent)) :=
  sql (.selectEventsAfter w afterSeq limit)

/-- `upsert_session_binding`. -/
def upsertSessionBinding (w session : String) (pointer : Option String) :
    Code (Except StorageError Unit) := do
  let t ← now
  sql (.upsertBinding ⟨w, session, pointer, t⟩)

/-- `get_session_binding`. -/
def getSessionBinding (w : String) :
    Code (Except StorageError (Option (String × Option String))) :=
  sql (.selectBinding w)

end Calcar.Agent
