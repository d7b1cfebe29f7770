import Calcar.Api.Pairing

/-!
# The route table, socket upgrades and the whole backend

`routes` is the route table of `Server.routes`, with `authed` around the
handlers that have it; the socket upgrade is `Hub.ServeHTTP`.  `backend`
puts any number of requests and upgrades side by side.
-/

namespace Calcar.Api

open Lib Trust

/-! ## Requests -/

/-- A route with its path value and body. -/
inductive Route where
  | healthz
  | readyz
  | bootstrap (body : Json BootstrapReq)
  | challenge (body : Json ChallengeReq)
  | verify (body : Json VerifyReq)
  | refresh (body : Json RefreshReq)
  | devicesList
  | devicesRegister (body : Json RegisterReq)
  | deviceRevoke (id : String) (body : Option (Json RevokeReq))
  | pushToken (id : String) (body : Json PushTokenReq)
  | pairingCreate
  | pairingJoin (id : String) (body : Json JoinReq)
  | pairingGet (id : String)
  | pairingDecision (id : String) (body : Json DecisionReq)
  | trustGraph
  | heartbeat (body : Option (Json HeartbeatReq))
  | presenceGet (id : String)
  | attention (body : Json AttentionReq)
  | relayAlloc

/-- A request: the two headers the handlers read, and the route. -/
structure Request where
  authorization : String := ""
  requestId : String := ""
  route : Route

/-- A socket upgrade: the three places a token may stand in. -/
structure Upgrade where
  isGet : Bool := true
  authorization : String := ""
  accessToken : String := ""
  protocol : String := ""

/-! ## The server -/

/-- A handler program over the two databases. -/
def onCore {α : Type} (S : Server) (p : M α) : Core.M α := p.expand (Call.run S.crypto)

/-- A handler program as a program of the server. -/
def toSrv {α : Type} (S : Server) (p : M α) : Srv.M α := Core.toSrv (onCore S p)

/-- `authed`: the checks, then the handler body. -/
def authed (S : Server) (authorization : String) (next : Device → String → H Reply) :
    Srv.M Reply := do
  match ← toSrv S (authenticate authorization).run with
  | .error r => return r
  | .ok (dev, user) =>
      Srv.perform (.enter dev user)
      toSrv S (next dev user).reply

/-- A handler, with or without `authed` around it. -/
inductive Handler where
  | plain (h : H Reply)
  | authed (next : Device → String → H Reply)

/-- The route table. -/
def routes (S : Server) (r : Request) : Handler :=
  match r.route with
  | .healthz => .plain handleHealthz
  | .readyz => .plain handleReadyz
  | .bootstrap body => .plain (handleBootstrap S r.requestId body)
  | .challenge body => .plain (handleChallenge body)
  | .verify body => .plain (handleVerify S body)
  | .refresh body => .plain (handleRefresh S r.requestId body)
  | .devicesList => .authed fun _ user => handleDevicesList user
  | .devicesRegister body =>
      .authed fun me _ => handleDevicesRegister S r.requestId me body
  | .deviceRevoke id body => .authed fun me _ => handleDeviceRevoke r.requestId me id body
  | .pushToken id body => .authed fun me _ => handlePushToken r.requestId me id body
  | .pairingCreate => .authed fun me _ => handlePairingCreate r.requestId me
  | .pairingJoin id body => .plain (handlePairingJoin S id body)
  | .pairingGet id => .authed fun me _ => handlePairingGet me id
  | .pairingDecision id body =>
      .authed fun me _ => handlePairingDecision S r.requestId me id body
  | .trustGraph => .authed fun _ user => handleTrustGraph user
  | .heartbeat body => .authed fun me _ => handleHeartbeat r.requestId me body
  | .presenceGet id => .authed fun me _ => handlePresenceGet me id
  | .attention body => .authed fun me _ => handleAttention r.requestId me body
  | .relayAlloc => .plain handleRelayAlloc

/-- A request, served. -/
def serve (S : Server) (r : Request) : Srv.M Reply :=
  match routes S r with
  | .plain h => toSrv S h.reply
  | .authed next => authed S r.authorization next

/-! ## Socket upgrades -/

/-- `http.Error`. -/
def httpError (status : Nat) (msg : String) : Reply := ⟨status, .text msg⟩

/-- The token of an upgrade. -/
def Upgrade.token (u : Upgrade) : String :=
  if Ws.bearerToken u.authorization ≠ "" then Ws.bearerToken u.authorization
  else if u.accessToken ≠ "" then u.accessToken
  else Ws.protocolToken u.protocol

/-- The checks `ServeHTTP` makes before the handshake. -/
def checkUpgrade (u : Upgrade) : H (String × String) := do
  replyIf (u.isGet = false) (httpError 405 "method not allowed")
  replyIf (u.token = "") (httpError 401 "missing token")
  let (deviceId, userId) ← store (.resolveAccessToken u.token) fun _ =>
    httpError 401 "invalid token"
  let dev ← store (.getDevice deviceId) fun _ => httpError 401 "unknown device"
  replyIf (dev.revoked = true) (httpError 403 "revoked")
  refuseRevoked deviceId (httpError 403 "revoked")
  return (deviceId, userId)

/-- How a task ends. -/
inductive Outcome where
  | reply (r : Reply)
  | notUpgraded
  | closed
  | queued
  deriving DecidableEq, Repr

/-- A connection from its registration to the return of its handler. -/
def connection (S : Server) (deviceId userId : String) : Srv.M Outcome := do
  let t ← Srv.perform (.core .now)
  let k ← Srv.perform (.register deviceId userId (Time.unixMilli t))
  let b ← Srv.perform (.core (.rand 16))
  let seen ← Srv.perform (.core .now)
  let _ ← toSrv S (perform (.store (.setPresence ⟨deviceId, true, Ws.newID b, seen⟩)))
  Srv.perform (.start k)
  Srv.perform (.done k)
  Srv.perform (.unregister deviceId k)
  let left ← Srv.perform (.core .now)
  -- no connection id here
  let _ ← toSrv S (perform (.store (.setPresence ⟨deviceId, false, "", left⟩)))
  return .closed

/-- `Hub.ServeHTTP`. -/
def upgrade (S : Server) (u : Upgrade) : Srv.M Outcome := do
  match ← toSrv S (checkUpgrade u).run with
  | .error r => return .reply r
  | .ok (deviceId, userId) =>
      let accepted ← Srv.perform (.accept deviceId)
      if accepted = true then
        connection S deviceId userId
      else
        return .notUpgraded

/-- The goroutine `markCatchup` starts. -/
def catchup (S : Server) : Srv.M Outcome := do
  let user ← Srv.perform .takeCatchup
  let _ ← toSrv S (perform (.store (.enqueueAttention user ⟨"", "", "catchup"⟩)))
  return .queued

/-! ## The backend -/

/-- What a goroutine is started for. -/
inductive Task where
  | request (r : Request)
  | upgrade (u : Upgrade)
  | catchup

/-- The program of a task. -/
def Task.code (S : Server) : Task → Srv.M Outcome
  | .request r => do return .reply (← serve S r)
  | .upgrade u => Api.upgrade S u
  | .catchup => Api.catchup S

/-- Any number of tasks over one world. -/
def backend (S : Server) : System Task World Oracle Env Srv Srv.Ans Outcome :=
  system (Task.code S)

/-- No task yet, in an empty world. -/
def boot : Config Task World Srv Srv.Ans Outcome := ⟨{}, []⟩

end Calcar.Api
