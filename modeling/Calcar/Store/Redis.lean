import Calcar.World

/-!
# The Redis store

The methods of `redis.go` as programs, one command after the other.  The
pipeline of `RevokeDeviceTokens` is no transaction: its deletions are single
commands too.  Methods that only answer `errNeedsPostgres`, and
`DecidePairingSession`, which the combined store never calls, are left out.
-/

namespace Calcar.Redis

open Lib Rd

/-- One command. -/
def rd (c : RdCmd) : Core.M (Except Err c.Ret) := Core.perform (.rd c)

/-- `time.Now`. -/
def clock : Core.M Time := Core.perform .now

def presenceTTL : Time := 90 * Time.second
def challengeTTL : Time := 5 * Time.minute
def notifyTrim : Nat := 100
def consumedKeep : Time := 24 * Time.hour

/-! ## Pairing sessions -/

/-- The instant `time.Time{}` stands for: the first of January, year one. -/
def zeroTime : Time := -62135596800 * Time.second

/-- `sessionTTL`. -/
def sessionTTL (now expiresAt : Time) : Time :=
  if expiresAt - now ≤ 0 then 0 else expiresAt - now

/-- The fields `CreatePairingSession` writes. -/
def createFields (s : PairingSession) : PairingHash where
  userId := some s.userId
  createdBy := some s.createdBy
  status := some (s.status.getD .pending)
  expiresAt := some (Time.unix s.expiresAt)
  qrNonce := some s.qrNonce

/-- `CreatePairingSession`. -/
def createPairingSession (s : PairingSession) : Core.M (Except Err Unit) :=
  if s.id = "" then
    return .error .conflict
  else do
    let now ← clock
    let ttl := sessionTTL now s.expiresAt
    if ttl ≤ 0 then
      return .error .expired
    else
      match ← rd (.hsetnxStatus s.id (s.status.getD .pending)) with
      | .error e => return .error e
      | .ok false => return .error .conflict
      | .ok true =>
          match ← rd (.hsetPairing s.id (createFields s)) with
          | .error e => return .error e
          | .ok () => rd (.expirePairing s.id ttl)

/-- What `readSession` makes of a hash. -/
def decoded (id : String) (m : PairingHash) : PairingSession where
  id := id
  userId := m.userId.getD ""
  createdBy := m.createdBy.getD ""
  status := m.status
  expiresAt := match m.expiresAt with
    | some unix => unix * Time.second
    | none => zeroTime
  qrNonce := m.qrNonce.getD ""
  joinPubKey := m.joinPub.getD []
  joinFingerprint := m.joinFp.getD ""
  joinName := m.joinName.getD ""
  joinRequestId := m.joinReq.getD ""

/-- `readSession`. -/
def readSession (id : String) : Core.M (Except Err PairingSession) := do
  match ← rd (.hgetallPairing id) with
  | .error e => return .error e
  | .ok none => return .error .notFound
  | .ok (some m) => return .ok (decoded id m)

/-- `GetPairingSession`. -/
def getPairingSession (id : String) : Core.M (Except Err PairingSession) := do
  match ← readSession id with
  | .error e => return .error e
  | .ok sess =>
      if sess.status = some .pending then
        let now ← clock
        if sessionTTL now sess.expiresAt ≤ 0 then
          return .error .expired
        else
          return .ok sess
      else
        return .ok sess

/-- `SubmitJoinRequest`: `HSETNX` lets one join in. -/
def submitJoinRequest (sessionId : String) (j : Join) : Core.M (Except Err Unit) :=
  if j.pubKey = [] ∨ j.requestId = "" then
    return .error .conflict
  else do
    match ← readSession sessionId with
    | .error e => return .error e
    | .ok sess =>
        if sess.status ≠ some .pending then
          return .error .gone
        else
          let now ← clock
          if sessionTTL now sess.expiresAt ≤ 0 then
            return .error .expired
          else if sess.joinRequestId ≠ "" then
            return .error .gone
          else
            match ← rd (.hsetnxJoinReq sessionId j.requestId) with
            | .error e => return .error e
            | .ok false => return .error .gone
            | .ok true =>
                match ← rd (.ttlPairing sessionId) with
                | .error e => return .error e
                | .ok ttl =>
                    match ← rd (.hsetPairing sessionId {
                        joinPub := some j.pubKey
                        joinFp := some j.fingerprint
                        joinName := some j.name }) with
                    | .error e => return .error e
                    | .ok () =>
                        if 0 < ttl then
                          let _ ← rd (.expirePairing sessionId ttl)
                          return .ok ()
                        else
                          return .ok ()

/-- `CheckPairingLive`. -/
def checkPairingLive (id : String) : Core.M (Except Err Unit) := do
  match ← readSession id with
  | .error e => return .error e
  | .ok sess =>
      if sess.status ≠ some .pending then
        return .error .gone
      else
        let now ← clock
        if sessionTTL now sess.expiresAt ≤ 0 then
          return .error .expired
        else
          return .ok ()

/-- `MarkPairingConsumed`. -/
def markPairingConsumed (id : String) (status : Status) : Core.M (Except Err Unit) := do
  let now ← clock
  match ← rd (.hsetPairing id {
      status := some status
      decidedAt := some (Time.unix now) }) with
  | .error e => return .error e
  | .ok () =>
      let _ ← rd (.expirePairing id consumedKeep)
      return .ok ()

/-! ## Challenges -/

/-- `newToken`: 32 random bytes in hex. -/
def newToken : Core.M String := do
  let b ← Core.perform (.rand 32)
  return Text.hexEncode b

/-- `IssueChallenge`. -/
def issueChallenge (deviceId : String) : Core.M (Except Err String) :=
  if deviceId = "" then
    return .error .conflict
  else do
    let ch ← newToken
    match ← rd (.setChallenge deviceId ch challengeTTL) with
    | .error e => return .error e
    | .ok () => return .ok ch

/-- `ConsumeChallenge`: read, compare, delete. -/
def consumeChallenge (deviceId challenge : String) : Core.M (Except Err Unit) := do
  match ← rd (.getChallenge deviceId) with
  | .error e => return .error e
  | .ok none => return .error .notFound
  | .ok (some got) =>
      if got ≠ challenge then
        return .error .conflict
      else
        rd (.delChallenge deviceId)

/-! ## Tokens -/

/-- `IssueAccessToken` and `IssueRefreshToken` differ in the namespace
only. -/
def issueToken (kind : TokenKind) (deviceId userId : String) (ttl : Time) :
    Core.M (Except Err String) :=
  if deviceId = "" ∨ userId = "" ∨ ttl ≤ 0 then
    return .error .conflict
  else do
    let tok ← newToken
    match ← rd (.hsetToken kind tok deviceId userId) with
    | .error e => return .error e
    | .ok () =>
        match ← rd (.expireToken kind tok ttl) with
        | .error e => return .error e
        | .ok () =>
            match ← rd (.saddIndex kind deviceId tok) with
            | .error e => return .error e
            | .ok () =>
                let _ ← rd (.expireIndex kind deviceId (ttl + Time.hour))
                return .ok tok

/-- `IssueAccessToken`. -/
def issueAccessToken (deviceId userId : String) (ttl : Time) :
    Core.M (Except Err String) :=
  issueToken .access deviceId userId ttl

/-- `IssueRefreshToken`. -/
def issueRefreshToken (deviceId userId : String) (ttl : Time) :
    Core.M (Except Err String) :=
  issueToken .refresh deviceId userId ttl

/-- `ResolveAccessToken`: a failed read has no fields, so it too is
`ErrNotFound`. -/
def resolveAccessToken (token : String) : Core.M (Except Err (String × String)) := do
  match ← rd (.hgetallToken .access token) with
  | .error _ => return .error .notFound
  | .ok none => return .error .notFound
  | .ok (some (device, user)) => return .ok (device, user)

/-- `pipe.Exec`: every command is sent, the first error is reported. -/
def pipeline (cmds : List (Core.M (Except Err Unit))) : Core.M (Except Err Unit) :=
  match cmds with
  | [] => return .ok ()
  | c :: rest => do
      let r ← c
      let rs ← pipeline rest
      match r with
      | .error e => return .error e
      | .ok () => return rs

/-- `RevokeDeviceTokens`. -/
def revokeDeviceTokens (deviceId : String) : Core.M (Except Err Unit) := do
  match ← rd (.smembersIndex .access deviceId) with
  | .error e => return .error e
  | .ok toks =>
      match ← rd (.smembersIndex .refresh deviceId) with
      | .error e => return .error e
      | .ok rfr =>
          pipeline (toks.map (fun t => rd (.delToken .access t)) ++
            rfr.map (fun t => rd (.delToken .refresh t)) ++
            [rd (.delIndex .access deviceId), rd (.delIndex .refresh deviceId)])

/-- `ConsumeRefreshToken`: one script. -/
def consumeRefreshToken (deviceId refreshToken : String) : Core.M (Except Err String) :=
  if deviceId = "" ∨ refreshToken = "" then
    return .error .notFound
  else do
    match ← rd (.evalConsumeRefresh refreshToken deviceId) with
    | .error e => return .error e
    | .ok none => return .error .notFound
    | .ok (some user) =>
        if user = "" then
          return .error .notFound
        else
          return .ok user

/-! ## Presence, push, attention, replay -/

/-- `SetPresence`. -/
def setPresence (p : Presence) : Core.M (Except Err Unit) :=
  if p.deviceId = "" ∨ p.connId = "" then
    return .error .conflict
  else do
    let now ← clock
    match ← rd (.hsetPresence p.deviceId ⟨p.online, p.connId, Time.unix now⟩) with
    | .error e => return .error e
    | .ok () =>
        match ← rd (.expirePresence p.deviceId presenceTTL) with
        | .error e => return .error e
        | .ok () => rd (.setConn p.connId p.deviceId presenceTTL)

/-- `GetPresence`. -/
def getPresence (deviceId : String) : Core.M (Except Err Presence) := do
  match ← rd (.hgetallPresence deviceId) with
  | .error e => return .error e
  | .ok none => return .error .notFound
  | .ok (some m) => return .ok ⟨deviceId, m.online, m.connId, m.lastSeen * Time.second⟩

/-- `SetPushToken`. -/
def setPushToken (deviceId platform token : String) : Core.M (Except Err Unit) :=
  if deviceId = "" ∨ platform = "" ∨ token = "" then
    return .error .conflict
  else
    rd (.hsetPushToken deviceId platform token)

/-- `encodeAttention`. -/
def encodeAttention (a : Attention) : String :=
  String.intercalate "\x1f" [a.computerId, a.workflowId, a.kind]

/-- `strings.SplitN` at a character: `n` parts at most, the last one whole. -/
def splitN (sep : Char) : Nat → List Char → List (List Char)
  | 0, _ => []
  | 1, text => [text]
  | n + 2, text =>
      match text.dropWhile (· ≠ sep) with
      | [] => [text]
      | _ :: rest => text.takeWhile (· ≠ sep) :: splitN sep (n + 1) rest

/-- `decodeAttention`: missing parts stay blank. -/
def decodeAttention (raw : String) : Attention :=
  let parts := (splitN '\x1f' 3 raw.toList).map String.ofList
  { computerId := parts[0]?.getD "", workflowId := parts[1]?.getD "", kind := parts[2]?.getD "" }

/-- `EnqueueAttention`. -/
def enqueueAttention (userId : String) (a : Attention) : Core.M (Except Err Unit) :=
  if userId = "" then
    return .error .conflict
  else do
    match ← rd (.rpushNotify userId (encodeAttention a)) with
    | .error e => return .error e
    | .ok () => rd (.ltrimNotify userId notifyTrim)

/-- `CheckAndMarkRequest`: the first use of an id within `ttl` marks it. -/
def checkAndMarkRequest (requestId : String) (ttl : Time) : Core.M (Except Err Unit) :=
  if requestId = "" ∨ ttl ≤ 0 then
    return .error .conflict
  else do
    match ← rd (.setnxReplay requestId ttl) with
    | .error e => return .error e
    | .ok false => return .error .replayed
    | .ok true => return .ok ()

/-- `Ping`. -/
def ping : Core.M (Except Err Unit) := rd .ping

end Calcar.Redis
