import Calcar.Store.Postgres
import Calcar.Store.Redis

/-!
# The store seam and the combined store

`Seam` is the interface `store.Store`: one constructor for each method that
anything calls, answered by a result or a seam error.  `combined` carries
each method out over Postgres and Redis as `combined.go` does.
-/

namespace Calcar

open Lib

/-- The methods of `store.Store`. -/
inductive Seam where
  | createUser
  | registerDevice (d : Device)
  | getDevice (id : String)
  | listUserDevices (userId : String)
  | revokeDevice (id revokedBy reason : String)
  | isRevoked (deviceId : String)
  | createPairingSession (s : PairingSession)
  | getPairingSession (id : String)
  | submitJoinRequest (sessionId : String) (j : Join)
  | decidePairingSession (sessionId : String) (approve : Bool)
      (subjectPubKey granterSig : Bytes) (granterDeviceId : String)
  | issueChallenge (deviceId : String)
  | consumeChallenge (deviceId challenge : String)
  | issueAccessToken (deviceId userId : String) (ttl : Time)
  | resolveAccessToken (token : String)
  | revokeDeviceTokens (deviceId : String)
  | issueRefreshToken (deviceId userId : String) (ttl : Time)
  | consumeRefreshToken (deviceId refreshToken : String)
  | setPresence (p : Presence)
  | getPresence (deviceId : String)
  | setPushToken (deviceId platform token : String)
  | enqueueAttention (userId : String) (a : Attention)
  | checkAndMarkRequest (requestId : String) (ttl : Time)
  | ping
  deriving DecidableEq, Repr

namespace Seam

/-- What a method returns beside its error. -/
@[reducible] def Ret : Seam → Type
  | .createUser => String
  | .getDevice _ => Device
  | .listUserDevices _ => List Device
  | .isRevoked _ => Bool
  | .getPairingSession _ => PairingSession
  | .issueChallenge _ => String
  | .issueAccessToken _ _ _ => String
  | .resolveAccessToken _ => String × String
  | .issueRefreshToken _ _ _ => String
  | .consumeRefreshToken _ _ => String
  | .getPresence _ => Presence
  | _ => Unit

@[reducible] def Ans (c : Seam) : Type := Except Err c.Ret

end Seam

namespace Combined

/-- `CreatePairingSession`: the audit row first, then the live entry. -/
def createPairingSession (s : PairingSession) : Core.M (Except Err Unit) := do
  match ← Postgres.createPairingSession s with
  | .error e => return .error e
  | .ok () => Redis.createPairingSession s

/-- `GetPairingSession`: live state first, the audit row when it is gone. -/
def getPairingSession (id : String) : Core.M (Except Err PairingSession) := do
  match ← Redis.getPairingSession id with
  | .ok sess => return .ok sess
  | .error e =>
      if e ≠ .notFound then
        return .error e
      else
        Postgres.getPairingSession id

/-- `SubmitJoinRequest`: the live latch first, then the audit row. -/
def submitJoinRequest (sessionId : String) (j : Join) : Core.M (Except Err Unit) := do
  match ← Redis.submitJoinRequest sessionId j with
  | .error e =>
      if e ≠ .notFound then
        return .error e
      else
        Postgres.submitJoinRequest sessionId j
  | .ok () =>
      match ← Postgres.submitJoinRequest sessionId j with
      | .error e =>
          let _ ← Redis.markPairingConsumed sessionId .consumed
          return .error e
      | .ok () => return .ok ()

/-- The durable half of a decision and the mark that follows it. -/
def decideDurably (C : Crypto) (sessionId : String) (approve : Bool)
    (subjectPubKey granterSig : Bytes) (granterDeviceId : String) :
    Core.M (Except Err Unit) := do
  match ← Postgres.decidePairingSession C sessionId approve subjectPubKey granterSig
      granterDeviceId with
  | .error e =>
      if e = .expired ∨ e = .gone then
        let _ ← Redis.markPairingConsumed sessionId .consumed
        return .error e
      else
        return .error e
  | .ok () =>
      let _ ← Redis.markPairingConsumed sessionId
        (if approve = true then .approved else .rejected)
      return .ok ()

/-- `DecidePairingSession`: the live latch is checked, then Postgres decides. -/
def decidePairingSession (C : Crypto) (sessionId : String) (approve : Bool)
    (subjectPubKey granterSig : Bytes) (granterDeviceId : String) :
    Core.M (Except Err Unit) := do
  match ← Redis.checkPairingLive sessionId with
  | .error e =>
      if e ≠ .notFound then
        return .error e
      else
        -- the live entry is gone: Postgres arbitrates
        decideDurably C sessionId approve subjectPubKey granterSig granterDeviceId
  | .ok () => decideDurably C sessionId approve subjectPubKey granterSig granterDeviceId

/-- `SetPresence`: the audit write never fails a heartbeat. -/
def setPresence (p : Presence) : Core.M (Except Err Unit) := do
  match ← Redis.setPresence p with
  | .error e => return .error e
  | .ok () =>
      let _ ← Postgres.setPresence p
      return .ok ()

/-- `GetPresence`. -/
def getPresence (deviceId : String) : Core.M (Except Err Presence) := do
  match ← Redis.getPresence deviceId with
  | .ok p => return .ok p
  | .error e =>
      if e ≠ .notFound then
        return .error e
      else
        Postgres.getPresence deviceId

/-- `SetPushToken`. -/
def setPushToken (deviceId platform token : String) : Core.M (Except Err Unit) := do
  match ← Postgres.setPushToken deviceId platform token with
  | .error e => return .error e
  | .ok () => Redis.setPushToken deviceId platform token

/-- `Ping`. -/
def ping : Core.M (Except Err Unit) := do
  match ← Postgres.ping with
  | .error e => return .error e
  | .ok () => Redis.ping

end Combined

/-- The combined store: every method of the seam over the two databases. -/
def combined (C : Crypto) : (c : Seam) → Core.M c.Ans
  | .createUser => Postgres.createUser
  | .registerDevice d => Postgres.registerDevice d
  | .getDevice id => Postgres.getDevice id
  | .listUserDevices userId => Postgres.listUserDevices userId
  | .revokeDevice id revokedBy reason => Postgres.revokeDevice id revokedBy reason
  | .isRevoked deviceId => Postgres.isRevoked deviceId
  | .createPairingSession s => Combined.createPairingSession s
  | .getPairingSession id => Combined.getPairingSession id
  | .submitJoinRequest sessionId j => Combined.submitJoinRequest sessionId j
  | .decidePairingSession sessionId approve subjectPubKey granterSig granterDeviceId =>
      Combined.decidePairingSession C sessionId approve subjectPubKey granterSig
        granterDeviceId
  | .issueChallenge deviceId => Redis.issueChallenge deviceId
  | .consumeChallenge deviceId challenge => Redis.consumeChallenge deviceId challenge
  | .issueAccessToken deviceId userId ttl => Redis.issueAccessToken deviceId userId ttl
  | .resolveAccessToken token => Redis.resolveAccessToken token
  | .revokeDeviceTokens deviceId => Redis.revokeDeviceTokens deviceId
  | .issueRefreshToken deviceId userId ttl => Redis.issueRefreshToken deviceId userId ttl
  | .consumeRefreshToken deviceId refreshToken =>
      Redis.consumeRefreshToken deviceId refreshToken
  | .setPresence p => Combined.setPresence p
  | .getPresence deviceId => Combined.getPresence deviceId
  | .setPushToken deviceId platform token => Combined.setPushToken deviceId platform token
  | .enqueueAttention userId a => Redis.enqueueAttention userId a
  | .checkAndMarkRequest requestId ttl => Redis.checkAndMarkRequest requestId ttl
  | .ping => Combined.ping

end Calcar
