import Calcar.Lib.Events
import Calcar.Phone.Pairing

/-!
# The add-computer controller

`AddComputerController` with every call it waits for.  A call is issued when
the code before its `await` has run and is answered by an event of its own, in
any order and at any later time; the code after the `await` runs then, on the
state as it is by then.
-/

namespace Calcar.Phone

namespace ApiCodes

def pairingExpired : String := "PAIRING_EXPIRED"
def pairingConsumed : String := "PAIRING_CONSUMED"
def unknownSession : String := "UNKNOWN_SESSION"

end ApiCodes

/-- What a call threw: the code of an `ApiException`, blank for anything else,
and its text. -/
structure Thrown where
  code : String
  text : String
  deriving DecidableEq, Repr

/-- `PairingAuthorization`. -/
structure PairingAuthorization where
  signatureB64 : String
  authorizationId : String
  nonceB64 : String
  decidedAtMillis : Int
  deriving DecidableEq, Repr

/-- What `decidePairingSession` posts. -/
structure DecisionCall where
  sessionId : String
  requestId : String
  approve : Bool
  subjectPubkeyB64 : String
  signatureB64 : String
  authorizationId : String
  nonceB64 : String
  decidedAtMillis : Int
  deriving DecidableEq, Repr

/-- `deciding`. -/
def AddComputerState.deciding (state : AddComputerState) : Bool :=
  state.stage = .approving ∨ state.stage = .rejecting

/-- The calls the controller waits for. -/
inductive Awaited where
  | create (requestId : String)
  | sign (sessionId : String) (join : PairingJoin)
  | decide (call : DecisionCall)
  | read (sessionId : String)
  deriving DecidableEq, Repr

/-- What they are answered; any of them may throw. -/
inductive Answer where
  | created (session : PairingSession)
  | signed (authorization : PairingAuthorization) (now : Int)
  | decided (subjectDeviceId : Option String)
  | session (record : PairingSession)
  | threw (error : Thrown)
  deriving DecidableEq, Repr

/-- `AddComputerController`. -/
structure AddComputerController where
  flowId : String
  deviceId : String
  state : AddComputerState := { stage := .create }
  poll : Bool := false
  attempts : Nat := 0
  gone : Bool := false
  awaited : List Awaited := []
  deriving DecidableEq, Repr

namespace AddComputerController

variable (c : AddComputerController)

/-- `_requestId`. -/
def requestId (step : String) (attempt : Nat) (millis : Int) : String :=
  c.flowId ++ "-" ++ step ++ "-" ++ toString attempt ++ "-" ++ toString millis

/-- `_emit`. -/
def emit (build : AddComputerState → AddComputerState) : AddComputerController :=
  if c.gone = true then c else { c with state := build c.state }

@[simp] theorem emit_awaited (build : AddComputerState → AddComputerState) :
    (c.emit build).awaited = c.awaited := by
  unfold emit
  split <;> rfl

@[simp] theorem emit_flowId (build : AddComputerState → AddComputerState) :
    (c.emit build).flowId = c.flowId := by
  unfold emit
  split <;> rfl

@[simp] theorem emit_attempts (build : AddComputerState → AddComputerState) :
    (c.emit build).attempts = c.attempts := by
  unfold emit
  split <;> rfl

/-- `_startPolling`. -/
def startPolling : AddComputerController := { c with poll := true }

/-- `_stopPolling`. -/
def stopPolling : AddComputerController := { c with poll := false }

def await (call : Awaited) : AddComputerController :=
  { c with awaited := c.awaited ++ [call] }

/-- `dispose`. -/
def dispose : AddComputerController := { c with gone := true, poll := false }

/-- `createSession`, up to the call. -/
def createSession (now : Int) : AddComputerController :=
  if c.state.busy = true ∨ c.state.deciding = true then c
  else if c.state.sessionId ≠ "" ∧ c.state.isTerminal = false then c
  else
    let c := { c.stopPolling with attempts := c.attempts + 1 }
    let c := c.emit fun _ => { stage := .create, busy := true }
    c.await (.create (c.requestId "create" c.attempts now))

/-- `createSession`, once the session is there. -/
def created (session : PairingSession) : AddComputerController :=
  (c.emit fun state => { state with
    stage := .qr
    sessionId := session.sessionId
    qrNonce := session.qrNonce
    expiresAtMillis := session.expiresAtMillis
    busy := false }).startPolling

/-- `createSession`, where the call threw. -/
def createFailed (error : Thrown) : AddComputerController :=
  c.emit fun state => { state with busy := false, error := error.text }

/-- `decide`, up to its first call. -/
def decide (approve signer : Bool) (now : Int) : AddComputerController :=
  match c.state.join with
  | none => c
  | some join =>
      if c.state.sessionId = "" ∨ c.state.deciding = true ∨ c.state.isTerminal = true then c
      else if approve = true ∧ (signer = false ∨ join.pubkeyB64 = "") then
        c.emit fun state => { state with
          error := "Cannot approve: the join public key never arrived. " ++
            "Scan again with the phone online." }
      else
        let sessionId := c.state.sessionId
        let c := c.emit fun state => { state with
          stage := if approve then .approving else .rejecting
          error := "" }
        if approve then c.await (.sign sessionId join)
        else
          c.await (.decide {
            sessionId := sessionId
            requestId := c.requestId "reject" 0 now
            approve := false
            subjectPubkeyB64 := join.pubkeyB64
            signatureB64 := ""
            authorizationId := ""
            nonceB64 := ""
            decidedAtMillis := 0 })

/-- `decide`, from the signature to the decision call. -/
def signed (sessionId : String) (join : PairingJoin) (authorization : PairingAuthorization)
    (now : Int) : AddComputerController :=
  c.await (.decide {
    sessionId := sessionId
    requestId := c.requestId "approve" 0 now
    approve := true
    subjectPubkeyB64 := join.pubkeyB64
    signatureB64 := authorization.signatureB64
    authorizationId := authorization.authorizationId
    nonceB64 := authorization.nonceB64
    decidedAtMillis := authorization.decidedAtMillis })

/-- `decide`, once the decision is answered. -/
def decided (subjectDeviceId : Option String) : AddComputerController :=
  c.stopPolling.emit fun state => { state with
    stage := .done
    subjectDeviceId := subjectDeviceId.getD "" }

/-- `_failDecision`. -/
def failDecision (error : Thrown) : AddComputerController :=
  let c := c.stopPolling
  if error.code = ApiCodes.pairingConsumed then
    c.emit fun state => { state with
      stage := .done
      error := "Already decided, the earlier outcome stands" }
  else if error.code = ApiCodes.pairingExpired ∨ error.code = ApiCodes.unknownSession then
    c.emit fun state => { state with stage := .expired, error := error.text }
  else
    c.emit fun state => { state with stage := .waiting, error := error.text }

/-- `tick`. -/
def tick (now : Int) : AddComputerController :=
  if c.state.isTerminal = true ∨ c.state.expiresAtMillis = 0 then c
  else if c.state.expiresAtMillis > now then c
  else c.stopPolling.emit fun state => { state with stage := .expired }

/-- `readSession`, up to the call. -/
def readSession : AddComputerController :=
  if c.state.sessionId = "" ∨ c.state.isTerminal = true ∨ c.state.deciding = true then c
  else c.await (.read c.state.sessionId)

/-- The statuses of a session that is over; `_applySession` stops the poll for them. -/
def stopsPoll (session : PairingSession) : Bool :=
  session.status = some .expired ∨ session.status = some .consumed ∨
    session.status = some .approved ∨ session.status = some .rejected

/-- `readSession`, on the record it read. -/
def polled (session : PairingSession) : AddComputerController :=
  (if stopsPoll session = true then c.stopPolling else c).emit fun state =>
    applySession c.deviceId state session

/-- `readSession`, where the call threw. -/
def readFailed (error : Thrown) : AddComputerController :=
  if error.code = ApiCodes.pairingExpired ∨ error.code = ApiCodes.unknownSession then
    c.stopPolling.emit fun state => { state with stage := .expired, error := error.text }
  else c

/-- The code after the `await` of a call; `none` for an answer to another call. -/
def answer : Awaited → Answer → Option AddComputerController
  | .create _, .created session => some (c.created session)
  | .create _, .threw error => some (c.createFailed error)
  | .sign sessionId join, .signed authorization now =>
      some (c.signed sessionId join authorization now)
  | .sign _ _, .threw error => some (c.failDecision error)
  | .decide _, .decided subjectDeviceId => some (c.decided subjectDeviceId)
  | .decide _, .threw error => some (c.failDecision error)
  | .read _, .session record => some (c.polled record)
  | .read _, .threw error => some (c.readFailed error)
  | _, _ => none

/-- What happens to a controller.  The device id is the client's and may change
under it; `fire` is the poll timer. -/
inductive Event where
  | createSession (now : Int)
  | applyJoin (join : PairingJoin)
  | decide (approve signer : Bool) (now : Int)
  | tick (now : Int)
  | readSession
  | fire
  | answer (i : Nat) (a : Answer)
  | device (deviceId : String)
  | dispose
  deriving DecidableEq, Repr

def next : Event → Option AddComputerController
  | .createSession now => some (c.createSession now)
  | .applyJoin join => some (c.emit fun state => Phone.applyJoin state join)
  | .decide approve signer now => some (c.decide approve signer now)
  | .tick now => some (c.tick now)
  | .readSession => some c.readSession
  | .fire => if c.poll = true then some c.readSession else none
  | .answer i a =>
      c.awaited[i]?.bind fun call => ({ c with awaited := c.awaited.eraseIdx i }).answer call a
  | .device deviceId => some { c with deviceId := deviceId }
  | .dispose => some c.dispose

/-- A controller as its provider builds it. -/
def initial (flowId deviceId : String) : AddComputerController where
  flowId := flowId
  deviceId := deviceId

end AddComputerController

end Calcar.Phone
