import Calcar.World
import Calcar.Trust

/-!
# The Postgres store

The methods of `postgres.go` as programs: each statement is one command,
and a method with a transaction rolls it back on every way out.  Methods
that only answer `errNeedsRedis` are left out; nothing calls them.
-/

namespace Calcar.Postgres

open Lib Pg

/-- One statement. -/
def pg (c : PgCmd) : Core.M (Except PgErr c.Ret) := Core.perform (.pg c)

/-- `time.Now`. -/
def clock : Core.M Time := Core.perform .now

/-- One statement whose error goes through `mapPgError`. -/
def query (c : PgCmd) : Core.M (Except Err c.Ret) := do
  match ← pg c with
  | .error e => return .error (mapPgError e)
  | .ok r => return .ok r

/-- `Begin`, a body, and the deferred `Rollback`. -/
def withTx {α : Type} (body : Core.M (Except Err α)) : Core.M (Except Err α) := do
  match ← pg .beginTx with
  | .error _ => return .error .other
  | .ok () =>
      let r ← body
      let _ ← pg .rollback
      return r

/-! ## Users and devices -/

/-- `CreateUser`. -/
def createUser : Core.M (Except Err String) := do
  let b ← Core.perform (.rand 16)
  let id := Text.hexEncode b
  match ← query (.insertUser id) with
  | .error e => return .error e
  | .ok () => return .ok id

/-- `RegisterDevice`.  The row starts unrevoked whatever the argument has. -/
def registerDevice (d : Device) : Core.M (Except Err Unit) :=
  if d.id = "" ∨ d.userId = "" ∨ d.pubKey = [] then
    return .error .conflict
  else
    query (.insertDevice { d with revoked := false })

/-- `GetDevice`. -/
def getDevice (id : String) : Core.M (Except Err Device) := do
  match ← query (.selectDevice id) with
  | .error e => return .error e
  | .ok none => return .error .notFound
  | .ok (some d) => return .ok d

/-- `ListUserDevices`. -/
def listUserDevices (userId : String) : Core.M (Except Err (List Device)) :=
  query (.selectUserDevices userId)

/-- `RevokeDevice`: the record and the flag in one transaction. -/
def revokeDevice (id revokedBy reason : String) : Core.M (Except Err Unit) :=
  withTx do
    match ← pg (.txDeviceExists id) with
    | .error _ => return .error .other
    | .ok false => return .error .notFound
    | .ok true =>
        match ← query (.txAddRevocation ⟨id, revokedBy, reason⟩) with
        | .error e => return .error e
        | .ok () =>
            match ← query (.txRevokeDevice id) with
            | .error e => return .error e
            | .ok () =>
                match ← pg .commit with
                | .error _ => return .error .other
                | .ok () => return .ok ()

/-- `IsRevoked`. -/
def isRevoked (deviceId : String) : Core.M (Except Err Bool) :=
  query (.selectRevoked deviceId)

/-! ## Pairing sessions -/

/-- The row `CreatePairingSession` inserts. -/
def newRow (s : PairingSession) : SessionRow where
  id := s.id
  userId := s.userId
  createdBy := s.createdBy
  status := s.status.getD .pending
  expiresAt := Time.micros s.expiresAt
  qrNonce := s.qrNonce

/-- `CreatePairingSession`. -/
def createPairingSession (s : PairingSession) : Core.M (Except Err Unit) :=
  if s.id = "" ∨ s.userId = "" then
    return .error .conflict
  else
    query (.insertSession (newRow s))

/-- What `scanSession` reads out of a row. -/
def scanned (row : SessionRow) : PairingSession where
  id := row.id
  userId := row.userId
  createdBy := row.createdBy
  status := some row.status
  expiresAt := row.expiresAt
  qrNonce := row.qrNonce
  joinPubKey := (row.join.map Join.pubKey).getD []
  joinFingerprint := (row.join.map Join.fingerprint).getD ""
  joinName := (row.join.map Join.name).getD ""
  joinRequestId := (row.join.map Join.requestId).getD ""

/-- `GetPairingSession`: a pending row past its expiry becomes expired. -/
def getPairingSession (id : String) : Core.M (Except Err PairingSession) := do
  match ← query (.selectSession id) with
  | .error e => return .error e
  | .ok none => return .error .notFound
  | .ok (some row) =>
      if row.status = .pending then
        let now ← clock
        if now < row.expiresAt then
          return .ok (scanned row)
        else
          match ← query (.expirePending id) with
          | .error e => return .error e
          | .ok () => return .ok { scanned row with status := some .expired }
      else
        return .ok (scanned row)

/-- `SubmitJoinRequest`: the predicate of the `UPDATE` lets one join in. -/
def submitJoinRequest (sessionId : String) (j : Join) : Core.M (Except Err Unit) :=
  if j.pubKey = [] ∨ j.requestId = "" then
    return .error .conflict
  else
    withTx do
      match ← query (.txSelectSession sessionId) with
      | .error e => return .error e
      | .ok none => return .error .notFound
      | .ok (some row) =>
          if row.status ≠ .pending then
            return .error .gone
          else
            let now ← clock
            if ¬now < row.expiresAt then
              -- both results are thrown away
              let _ ← pg (.txExpirePending sessionId)
              let _ ← pg .commit
              return .error .expired
            else if row.join.isSome then
              return .error .gone
            else
              match ← query (.txRecordJoin sessionId j) with
              | .error e => return .error e
              | .ok n =>
                  if n = 0 then
                    return .error .gone
                  else
                    query .commit

/-- `grantBinding`. -/
def grantBinding (C : Crypto) (sessionId granterDeviceId : String)
    (subjectPubKey : Bytes) : Bytes :=
  C.sha256 (subjectPubKey ++ [0] ++ Trust.utf8 sessionId ++ [0] ++
    Trust.utf8 granterDeviceId)

/-- The `UPDATE` that decides the locked row, and the commit. -/
def finishDecision (sessionId : String) (next : Status) (granterDeviceId : String)
    (granterSig : Bytes) : Core.M (Except Err Unit) := do
  match ← query (.txDecide sessionId next granterDeviceId granterSig) with
  | .error e => return .error e
  | .ok () =>
      match ← pg .commit with
      | .error _ => return .error .other
      | .ok () => return .ok ()

/-- `DecidePairingSession`: the row is read under its lock. -/
def decidePairingSession (C : Crypto) (sessionId : String) (approve : Bool)
    (subjectPubKey granterSig : Bytes) (granterDeviceId : String) :
    Core.M (Except Err Unit) :=
  withTx do
    match ← query (.txSelectForUpdate sessionId) with
    | .error e => return .error e
    | .ok none => return .error .notFound
    | .ok (some row) =>
        let now ← clock
        if row.status ≠ .pending then
          return .error .gone
        else if ¬now < row.expiresAt then
          match ← query (.txExpire sessionId) with
          | .error e => return .error e
          | .ok () =>
              match ← query .commit with
              | .error e => return .error e
              | .ok () => return .error .expired
        else if approve = true then
          match row.join with
          | none => return .error .conflict
          | some j =>
              if subjectPubKey = [] ∨ subjectPubKey ≠ j.pubKey then
                return .error .conflict
              else
                -- a failed lookup leaves the subject empty
                let found ← pg (.txDeviceByKey row.userId subjectPubKey)
                let subject := match found with
                  | .ok (some id) => id
                  | _ => ""
                match ← query (.txAddGrant {
                    subjectDeviceId := subject
                    granterDeviceId := granterDeviceId
                    payloadHash := grantBinding C sessionId granterDeviceId subjectPubKey
                    signature := granterSig
                    session := sessionId
                    subjectPubKey := subjectPubKey }) with
                | .error e => return .error e
                | .ok () => finishDecision sessionId .approved granterDeviceId granterSig
        else
          finishDecision sessionId .rejected granterDeviceId granterSig

/-! ## Presence and push tokens -/

/-- `SetPushToken`. -/
def setPushToken (deviceId platform token : String) : Core.M (Except Err Unit) :=
  if deviceId = "" ∨ platform = "" ∨ token = "" then
    return .error .conflict
  else
    query (.upsertPushToken deviceId platform token)

/-- `SetPresence`. -/
def setPresence (p : Presence) : Core.M (Except Err Unit) :=
  if p.deviceId = "" ∨ p.connId = "" then
    return .error .conflict
  else
    query (.upsertConn p.connId p.deviceId)

/-- `GetPresence`: the last durable sighting, never online. -/
def getPresence (deviceId : String) : Core.M (Except Err Presence) := do
  match ← query (.selectConn deviceId) with
  | .error e => return .error e
  | .ok none => return .error .notFound
  | .ok (some row) => return .ok ⟨row.deviceId, false, row.connId, row.lastSeen⟩

/-- `Ping`. -/
def ping : Core.M (Except Err Unit) := query .ping

end Calcar.Postgres
