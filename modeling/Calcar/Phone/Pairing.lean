import Calcar.Api.Calls
import Calcar.Phone.Signer

/-!
# The phone's pairing flow

`add_computer_controller.dart`: what the phone makes of the session records it
polls and of the joins its socket reports, and the record `OwnerPairingSigner`
signs for the join on the card.

## Main results

* `applySession_join` — a polled join carries the request time of its record.
-/

namespace Calcar.Phone

/-- `PairingSession` of `models.dart`. -/
structure PairingSession where
  sessionId : String
  status : Option Status
  ownerDeviceId : String
  expiresAtMillis : Int
  qrNonce : String
  joinRequestId : Option String := none
  joinFingerprint : Option String := none
  joinDisplayName : Option String := none
  joinPubkeyB64 : Option String := none
  deriving DecidableEq, Repr

/-- `PairingSession.fromJson` of what `sessionJSON` writes. -/
def PairingSession.fromJson (v : Api.SessionView) : PairingSession where
  sessionId := v.sessionId
  status := v.status
  ownerDeviceId := v.ownerDeviceId
  expiresAtMillis := v.expiresAtMillis
  qrNonce := v.qrNonce
  joinRequestId := v.join.map fun j => j.1
  joinFingerprint := v.join.map fun j => j.2.1
  joinDisplayName := v.join.map fun j => j.2.2.1
  joinPubkeyB64 := v.join.map fun j => String.ofList j.2.2.2

/-- `PairingJoin`. -/
structure PairingJoin where
  requestId : String
  pubkeyB64 : String
  displayName : String
  fingerprint : String
  sessionId : String := ""
  ownerDeviceId : String := ""
  requestedAtMillis : Int := 0
  deriving DecidableEq, Repr

/-- `AddComputerStage`. -/
inductive AddComputerStage where
  | create
  | qr
  | waiting
  | approving
  | rejecting
  | expired
  | done
  deriving DecidableEq, Repr

/-- `AddComputerState`. -/
structure AddComputerState where
  stage : AddComputerStage
  sessionId : String := ""
  qrNonce : String := ""
  expiresAtMillis : Int := 0
  join : Option PairingJoin := none
  subjectDeviceId : String := ""
  busy : Bool := false
  error : String := ""
  deriving DecidableEq, Repr

/-- `isTerminal`. -/
def AddComputerState.isTerminal (state : AddComputerState) : Bool :=
  state.stage = .done ∨ state.stage = .expired

/-- The request time the phone derives from a session record. -/
def PairingSession.requestedAtMillis (session : PairingSession) : Int :=
  session.expiresAtMillis - kPairingTtlMillis

/-- `applyJoin`. -/
def applyJoin (state : AddComputerState) (join : PairingJoin) : AddComputerState :=
  if state.sessionId = "" ∨ state.isTerminal = true then state
  else { state with stage := .waiting, join := some join }

/-- The join key of a polled record; one the socket supplied for the same join
stays until the record has caught up. -/
def polledKey (state : AddComputerState) (requestId key : String) : String :=
  match state.join with
  | some known =>
      if known.requestId = requestId ∧ known.pubkeyB64 ≠ "" ∧ key = "" then known.pubkeyB64
      else key
  | none => key

/-- `_applySession`, on the phone with this device id. -/
def applySession (deviceId : String) (state : AddComputerState) (session : PairingSession) :
    AddComputerState :=
  if session.status = some .expired then { state with stage := .expired }
  else if session.status = some .consumed ∨ session.status = some .approved ∨
      session.status = some .rejected then
    { state with stage := .done }
  else
    let requestId := session.joinRequestId.getD ""
    if requestId = "" then state
    else
      { state with
        stage := .waiting
        join := some {
          requestId := requestId
          pubkeyB64 := polledKey state requestId (session.joinPubkeyB64.getD "")
          displayName := session.joinDisplayName.getD ""
          fingerprint := session.joinFingerprint.getD ""
          sessionId := session.sessionId
          ownerDeviceId := deviceId
          requestedAtMillis := session.requestedAtMillis } }

/-- **A polled join carries the request time of its record**: the card shows the
join it had, or one with the time the record was created by its expiry. -/
theorem applySession_join (deviceId : String) (state : AddComputerState)
    (session : PairingSession) :
    (applySession deviceId state session).join = state.join ∨
      ∃ join, (applySession deviceId state session).join = some join ∧
        join.sessionId = session.sessionId ∧ join.ownerDeviceId = deviceId ∧
        join.requestedAtMillis = session.requestedAtMillis := by
  unfold applySession
  by_cases hexpired : session.status = some .expired
  · rw [if_pos hexpired]
    exact .inl rfl
  · rw [if_neg hexpired]
    by_cases hdone : session.status = some .consumed ∨ session.status = some .approved ∨
        session.status = some .rejected
    · rw [if_pos hdone]
      exact .inl rfl
    · rw [if_neg hdone]
      by_cases hblank : session.joinRequestId.getD "" = ""
      · left
        simp only [if_pos hblank]
      · right
        simp only [if_neg hblank]
        exact ⟨_, rfl, rfl, rfl, rfl⟩

/-- What `OwnerPairingSigner.call` puts into the record, with `pub` the decoded
key of the join; `none` where it throws. -/
def signedRecord (C : Crypto) (join : PairingJoin) (pub : Bytes) (authorizationId : String)
    (decidedAt : Int) (nonce : Bytes) : Option RecordFields :=
  if join.pubkeyB64 = "" ∨ join.sessionId = "" ∨ join.ownerDeviceId = "" ∨
      join.requestedAtMillis ≤ 0 then
    none
  else
    (deviceIDForComputer C pub).map fun subjectDeviceId => {
      authorizationId := authorizationId
      sessionId := join.sessionId
      subjectDeviceId := subjectDeviceId
      subjectPublicKey := pub
      ownerDeviceId := join.ownerDeviceId
      contextHash := pairingContextHash C join.displayName join.fingerprint subjectDeviceId
        join.sessionId join.requestedAtMillis
      decidedAtMillis := decidedAt
      nonce := nonce }

end Calcar.Phone
