import Calcar.Agent.Storage

/-!
# Requests of the phone: inputs and approvals

The input router of `calcar-workflow` and the request side of the permission
manager of `calcar-adapters`.  The router's counters are left out: nothing
reads them.
-/

namespace Calcar.Agent

open Lib

/-! ## The input router -/

/-- `RouteOutcome`. -/
inductive RouteOutcome where
  | delivered
  | duplicate
  deriving DecidableEq, Repr

/-- `storage_key`. -/
def storageKey (w i : String) : String := "input:" ++ w ++ ":" ++ i

/-- The second half of `deliver`, after a claim that failed with `first`. -/
def confirmClaim (key : String) (first : StorageError) :
    Code (Except StorageError RouteOutcome) := do
  match ← resolvePendingRequest key "" with
  -- an earlier attempt died between claim and confirm
  | .ok () => return .ok .delivered
  | .error (.alreadyResolved _) => return .ok .duplicate
  | .error (.expired _) => return .ok .duplicate
  | .error _ => return .error first

/-- `InputRouter::deliver`. -/
def deliver (w i : String) : Code (Except StorageError RouteOutcome) :=
  if w = "" then return .error (.invalidState "workflow id must not be empty")
  else if i = "" then return .error (.invalidState "input id must not be empty")
  else do
    match ← createPendingRequest (storageKey w i) w .input none with
    | .ok () =>
        andThen (resolvePendingRequest (storageKey w i) "") fun _ => return .ok .delivered
    | .error first => confirmClaim (storageKey w i) first

/-! ## The permission manager -/

/-- `namespaced_key`. -/
def namespacedKey (w r : String) : String := w ++ ":" ++ r

def maxI64 : Int := 9223372036854775807
def minI64 : Int := -9223372036854775808

/-- `i64::saturating_add`. -/
def saturatingAdd (a b : Int) : Int := max minI64 (min maxI64 (a + b))

/-- `PermissionManager::request`.  The lock on the map is poisoned only by a
panic, and nothing that holds it panics. -/
def requestApproval (w r device summary : String) (ttlMillis : Nat) :
    Code (Except StorageError Unit) :=
  if w = "" ∨ r = "" ∨ device = "" then
    return .error
      (.invalidState "workflow_id, request_id, and device_id must be non-empty")
  else do
    let t ← now
    let expiresAt := saturatingAdd t (min (ttlMillis : Int) maxI64)
    andThen (createPendingRequest (namespacedKey w r) w .approval (some expiresAt)) fun _ => do
      Prog.perform
        (Cmd.track (namespacedKey w r) {
          workflowId := w
          requestId := r
          deviceId := device
          summary := summary
          expiresAtMillis := expiresAt
          resolved := false })
      return .ok ()

/-- `ApprovalDecision`. -/
inductive ApprovalDecision where
  | allow
  | reject
  deriving DecidableEq, Repr

/-- `ApprovalOutcome`. -/
inductive ApprovalOutcome where
  | applied
  | duplicate
  | expired
  | unknown
  deriving DecidableEq, Repr

/-- `decision_word`. -/
def decisionWord : ApprovalDecision → String
  | .allow => "allow"
  | .reject => "reject"

/-- The key `resolve` looks up: the id itself if it is a key, or the key of
the only request with this bare id. -/
def keyFor (pending : List (String × PendingEntry)) (id : String) : Option String :=
  if (entryOf pending id).isSome then some id
  else
    match pending.filter fun p => p.2.requestId = id with
    | [hit] => some hit.1
    | _ => none

/-- What `resolve` makes of the store's answer; the first verdict is
remembered. -/
def settleEntry (key : String) :
    Except StorageError Unit → Code (Except StorageError ApprovalOutcome)
  | .ok () => do
      Prog.perform (Cmd.markResolved key)
      return .ok .applied
  | .error (.alreadyResolved _) => do
      Prog.perform (Cmd.markResolved key)
      return .ok .duplicate
  | .error (.expired _) => return .ok .expired
  | .error (.notFound _) => return .ok .unknown
  | .error e => return .error e

/-- `resolve` under the lock. -/
def resolveLocked (pending : List (String × PendingEntry)) (id device : String)
    (decision : ApprovalDecision) : Code (Except StorageError ApprovalOutcome) :=
  match keyFor pending id with
  | none => return .ok .unknown
  | some key =>
      match entryOf pending key with
      | none => return .error (.invalidState "permission map changed mid-resolve")
      | some entry =>
          if entry.deviceId ≠ device then return .ok .unknown
          else if entry.resolved then return .ok .duplicate
          else do
            let answer ← resolvePendingRequest key
              (decisionWord decision ++ ":" ++ entry.summary)
            settleEntry key answer

/-- `PermissionManager::resolve`. -/
def resolveApproval (id device : String) (decision : ApprovalDecision) :
    Code (Except StorageError ApprovalOutcome) := do
  let pending ← Prog.perform Cmd.pendingMap
  resolveLocked pending id device decision

/-- `PermissionManager::sweep_expired`. -/
def sweepExpired : Code (Except StorageError Nat) :=
  expirePendingRequests

/-- `PermissionManager::pending_for`. -/
def pendingFor (w : String) : Code (Except StorageError (List String)) := do
  let pending ← Prog.perform Cmd.pendingMap
  let t ← now
  let open' := pending.filter fun p =>
    p.2.workflowId = w && !p.2.resolved && decide (t < p.2.expiresAtMillis)
  return .ok ((open'.map fun p => p.2.requestId).mergeSort fun a b => decide (a ≤ b))

end Calcar.Agent
