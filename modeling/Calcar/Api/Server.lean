import Calcar.Api.Calls

/-!
# Identity, devices, presence and push

The handlers of `server.go`, in its order.  An authenticated handler takes
the device and user that `authed` has put into the request context.
-/

namespace Calcar.Api

open Lib Trust

/-- `Server`: its configuration, and the primitives it calls. -/
structure Server where
  crypto : Crypto
  tokenTTL : Time := 24 * Time.hour
  refreshTTL : Time := 30 * 24 * Time.hour

/-! ## Authentication -/

/-- The durable revocation check; a failed lookup does not refuse. -/
def refuseRevoked (deviceId : String) (bad : Reply) : H Unit := do
  match ← attempt (.store (.isRevoked deviceId)) with
  | .ok true => throw bad
  | _ => pure ()

/-- The checks of `authed`: the device and user of a bearer token. -/
def authenticate (authorization : String) : H (Device × String) := do
  let token := Ws.bearerToken authorization
  replyIf (token = "") (writeErr 401 "MISSING_TOKEN" "bearer token required" true)
  let (deviceId, userId) ← store (.resolveAccessToken token) fun _ =>
    writeErr 401 Code.revoked.text "invalid or expired token" false
  let dev ← store (.getDevice deviceId) fun _ =>
    writeErr 401 Code.revoked.text "unknown device" false
  replyIf (dev.revoked = true) (writeErr 403 Code.revoked.text "device revoked" false)
  refuseRevoked deviceId (writeErr 403 Code.revoked.text "device revoked" false)
  return (dev, userId)

/-- `userHasOwner`. -/
def userHasOwner (userId : String) : H (Except Err Bool) := do
  match ← attempt (.store (.listUserDevices userId)) with
  | .error e => return .error e
  | .ok devs => return .ok (devs.any fun d => d.role = .ownerPhone ∧ d.revoked = false)

/-! ## Ops -/

/-- `handleHealthz`. -/
def handleHealthz : H Reply := return ⟨200, .status "ok"⟩

/-- `handleReadyz`. -/
def handleReadyz : H Reply := do
  store .ping fun _ => writeErr 503 "NOT_READY" "dependency unhealthy" true
  return ⟨200, .status "ready"⟩

/-! ## Bootstrap and auth -/

structure BootstrapReq where
  displayName : String := ""
  pubKeyB64 : String := ""
  deviceId : String := ""
  deriving DecidableEq, Repr

/-- The reply to a key that is none. -/
def badPubKey : Reply :=
  writeErr 400 Code.invalidInput.text "pubkey_b64 must be a 32-byte Ed25519 key" false

/-- The reply to a display name out of bounds. -/
def badName : Reply :=
  writeErr 400 Code.invalidInput.text "display_name must be 1-64 chars" false

/-- `FingerprintEd25519Pub` with the reply its error gets. -/
def fingerprint (S : Server) (pub : Bytes) : H String :=
  match fingerprintEd25519Pub S.crypto pub with
  | .ok fp => pure fp
  | .error _ => throw (writeErr 400 Code.invalidInput.text "invalid public key" false)

/-- The device id of a bootstrap: the requested one, or a random one. -/
def bootstrapId (requested : String) : H String := do
  if Text.trimSpace requested = "" then
    let b ← attempt (.rand 16)
    return "PH-" ++ Text.toUpper (String.ofList ((Ws.newID b).toList.take 8))
  else
    return Text.trimSpace requested

/-- `handleBootstrap`. -/
def handleBootstrap (S : Server) (requestId : String) (body : Json BootstrapReq) :
    H Reply := do
  idempotent requestId
  let req ← decode body
  let name ← require (checkDisplayName req.displayName) badName
  let pub ← require (decodePubKey req.pubKeyB64) badPubKey
  let fp ← fingerprint S pub
  let userId ← store .createUser fun _ =>
    writeErr 500 "STORE_ERROR" "create user failed" true
  let deviceId ← bootstrapId req.deviceId
  replyIf (maxIDLen < len deviceId)
    (writeErr 400 Code.invalidInput.text "device_id too long" false)
  let has ← userHasOwner userId
  replyIf (has.toOption ≠ some false)
    (writeErr 403 Code.notOwner.text "owner already established" false)
  store (.registerDevice {
      id := deviceId
      userId := userId
      role := .ownerPhone
      displayName := name
      pubKey := pub
      fingerprint := fp }) fun e =>
    if e = .conflict then
      writeErr 409 Code.replayedId.text "device already registered" false
    else
      writeErr 500 "STORE_ERROR" "register device failed" true
  return ⟨201, .bootstrapped userId deviceId .ownerPhone fp⟩

structure ChallengeReq where
  deviceId : String := ""
  deriving DecidableEq, Repr

/-- The reply to a device id nothing is registered under. -/
def unknownDevice : Reply := writeErr 404 "UNKNOWN_DEVICE" "unknown device" false

/-- `handleChallenge`. -/
def handleChallenge (body : Json ChallengeReq) : H Reply := do
  let req ← decode body
  replyIf (Text.trimSpace req.deviceId = "")
    (writeErr 400 Code.invalidInput.text "device_id required" false)
  let _ ← store (.getDevice req.deviceId) fun _ => unknownDevice
  let ch ← store (.issueChallenge req.deviceId) fun _ =>
    writeErr 500 "STORE_ERROR" "challenge failed" true
  return ⟨200, .challenge req.deviceId ch challengeExpiresIn⟩

/-- A fresh access and refresh token for a device. -/
def issuePair (S : Server) (dev : Device) : H Reply := do
  let tok ← store (.issueAccessToken dev.id dev.userId S.tokenTTL) fun _ =>
    writeErr 500 "STORE_ERROR" "token issue failed" true
  let rfr ← store (.issueRefreshToken dev.id dev.userId S.refreshTTL) fun _ =>
    writeErr 500 "STORE_ERROR" "token issue failed" true
  return ⟨200, .tokens tok rfr (Int.tdiv S.tokenTTL Time.second)
    (Int.tdiv S.refreshTTL Time.second)⟩

/-- The device of a login, unless it is unknown or revoked. -/
def activeDevice (deviceId : String) : H Device := do
  let dev ← store (.getDevice deviceId) fun _ => unknownDevice
  replyIf (dev.revoked = true) (writeErr 403 Code.revoked.text "device revoked" false)
  refuseRevoked deviceId (writeErr 403 Code.revoked.text "device revoked" false)
  return dev

structure VerifyReq where
  deviceId : String := ""
  challenge : String := ""
  signatureB64 : String := ""
  deriving DecidableEq, Repr

/-- `handleVerify`. -/
def handleVerify (S : Server) (body : Json VerifyReq) : H Reply := do
  let req ← decode body
  let dev ← activeDevice req.deviceId
  let sig ← require
    ((Text.base64Decode false true (Text.trimSpace req.signatureB64)).filter fun s =>
      s.length = signatureSize)
    (writeErr 401 Code.badSignature.text "invalid signature" false)
  store (.consumeChallenge req.deviceId req.challenge) fun _ =>
    writeErr 401 "INVALID_CHALLENGE" "challenge unknown or expired" false
  replyIf (S.crypto.ed25519Verify dev.pubKey (utf8 req.challenge) sig = false)
    (writeErr 401 Code.badSignature.text "signature verification failed" false)
  issuePair S dev

structure RefreshReq where
  deviceId : String := ""
  refreshToken : String := ""
  deriving DecidableEq, Repr

/-- The reply to a refresh token that is not the device's. -/
def badRefresh : Reply :=
  writeErr 401 Code.revoked.text "invalid or expired refresh token" false

/-- `handleRefresh`. -/
def handleRefresh (S : Server) (requestId : String) (body : Json RefreshReq) :
    H Reply := do
  idempotent requestId
  let req ← decode body
  let deviceId := Text.trimSpace req.deviceId
  replyIf (deviceId = "" ∨ Text.trimSpace req.refreshToken = "")
    (writeErr 400 Code.invalidInput.text "device_id and refresh_token required" false)
  let dev ← activeDevice deviceId
  let userId ← store (.consumeRefreshToken deviceId (Text.trimSpace req.refreshToken))
    fun e =>
      if e = .notFound then badRefresh
      else writeErr 500 "STORE_ERROR" "refresh failed" true
  replyIf (userId ≠ dev.userId) badRefresh
  issuePair S dev

/-! ## Devices -/

/-- `handleDevicesList`. -/
def handleDevicesList (user : String) : H Reply := do
  let devs ← store (.listUserDevices user) fun _ =>
    writeErr 500 "STORE_ERROR" "list failed" true
  return ⟨200, .devices (devs.map deviceJSON)⟩

structure RegisterReq where
  deviceId : String := ""
  displayName : String := ""
  pubKeyB64 : String := ""
  fingerprint : String := ""
  role : String := ""
  deriving DecidableEq, Repr

/-- An error other than `ErrConflict`. -/
def failedHard (r : Except Err Unit) : Bool :=
  match r with
  | .ok () => false
  | .error e => e ≠ .conflict

/-- The first half of `handleDevicesRegister`: the id is registered already
and only its display name may change. -/
def renameDevice (me existing : Device) (req : RegisterReq) (name : String) : H Reply := do
  replyIf (existing.userId ≠ me.userId)
    (writeErr 403 Code.notOwner.text "device belongs to another user" false)
  let pub ← require (decodePubKey req.pubKeyB64) badPubKey
  replyIf (existing.pubKey ≠ pub)
    (writeErr 422 Code.pubkeyMismatch.text
      "device keys are immutable; re-pair for a new identity" false)
  replyIf (req.fingerprint ≠ "" ∧ req.fingerprint ≠ existing.fingerprint)
    (writeErr 422 Code.pubkeyMismatch.text "fingerprint is immutable" false)
  let updated := { existing with displayName := name }
  let stored ← attempt (.store (.registerDevice updated))
  replyIf (failedHard stored = true)
    (writeErr 500 "STORE_ERROR" "update failed" true)
  match ← attempt (.store (.getDevice req.deviceId)) with
  | .ok cur => return ⟨200, .device (deviceJSON { cur with displayName := name })⟩
  | .error _ => return ⟨200, .device (deviceJSON updated)⟩

/-- The owner slot of a user must be free for a new Owner. -/
def checkOwnerSlot (role : Role) (userId : String) : H Unit := do
  if role = .ownerPhone then
    match ← userHasOwner userId with
    | .error _ => throw (writeErr 500 "STORE_ERROR" "lookup failed" true)
    | .ok has =>
        replyIf (has = true)
          (writeErr 403 Code.notOwner.text "owner already established" false)
  else pure ()

/-- The role a registration asks for; none is a trusted phone. -/
def requestedRole (role : String) : Option Role :=
  if Text.trimSpace role = "" then some .trustedPhone
  else Role.parse (Text.trimSpace role)

/-- The row a registration writes. -/
def newDevice (me : Device) (req : RegisterReq) (role : Role) (name fp : String)
    (pub : Bytes) : Device where
  id := req.deviceId
  userId := me.userId
  role := role
  displayName := name
  pubKey := pub
  fingerprint := fp
  authorizedBy := me.id

/-- The second half of `handleDevicesRegister`: a new row. -/
def addDevice (S : Server) (me : Device) (req : RegisterReq) (name : String) :
    H Reply := do
  let role ← require (requestedRole req.role)
    (writeErr 400 Code.invalidInput.text
      "role must be owner_phone, trusted_phone, or computer" false)
  checkOwnerSlot role me.userId
  let pub ← require (decodePubKey req.pubKeyB64) badPubKey
  let fp ← fingerprint S pub
  replyIf (req.fingerprint ≠ "" ∧ req.fingerprint ≠ fp)
    (writeErr 422 Code.pubkeyMismatch.text "fingerprint does not derive from pubkey" false)
  store (.registerDevice (newDevice me req role name fp pub)) fun e =>
    storeErr e .pairingExpired .pairingConsumed
  return ⟨201, .device (deviceJSON (newDevice me req role name fp pub))⟩

/-- `handleDevicesRegister`. -/
def handleDevicesRegister (S : Server) (requestId : String) (me : Device)
    (body : Json RegisterReq) : H Reply := do
  idempotent requestId
  let req ← decode body
  replyIf (Text.trimSpace req.deviceId = "" ∨ maxIDLen < len req.deviceId)
    (writeErr 400 Code.invalidInput.text "device_id required, max 128 chars" false)
  let name ← require (checkDisplayName req.displayName) badName
  match ← attempt (.store (.getDevice req.deviceId)) with
  | .ok existing => renameDevice me existing req name
  | .error .notFound => addDevice S me req name
  | .error _ => throw (writeErr 500 "STORE_ERROR" "lookup failed" true)

structure RevokeReq where
  reason : String := ""
  deriving DecidableEq, Repr

/-- A device of the caller's user, or the reply that there is none. -/
def ownTarget (me : Device) (target : String) : H Unit := do
  let dev ← store (.getDevice target) fun e =>
    if e = .notFound then unknownDevice
    else writeErr 500 "STORE_ERROR" "lookup failed" true
  replyIf (dev.userId ≠ me.userId) unknownDevice

/-- `handleDeviceRevoke`; the body may be missing. -/
def handleDeviceRevoke (requestId : String) (me : Device) (target : String)
    (body : Option (Json RevokeReq)) : H Reply := do
  idempotent requestId
  replyIf (me.role ≠ .ownerPhone)
    (writeErr 403 Code.notOwner.text "only the Owner device revokes devices" false)
  let req ← decode (body.getD (.ok {}))
  let reason := Text.trimSpace req.reason
  replyIf (maxReason < len reason)
    (writeErr 400 Code.invalidInput.text "reason max 280 chars" false)
  ownTarget me target
  store (.revokeDevice target me.id reason) fun e =>
    storeErr e .pairingExpired .pairingConsumed
  store (.revokeDeviceTokens target) fun _ =>
    writeErr 500 "STORE_ERROR" "token revocation failed" true
  attempt (.notify {
    userId := me.userId
    type := .trustRevoked
    payload := .revoked target me.id })
  return ⟨200, .revoked target⟩

structure PushTokenReq where
  platform : String := ""
  pushToken : String := ""
  deriving DecidableEq, Repr

/-- `handlePushToken`. -/
def handlePushToken (requestId : String) (me : Device) (target : String)
    (body : Json PushTokenReq) : H Reply := do
  idempotent requestId
  let req ← decode body
  let platform := Text.trimSpace req.platform
  replyIf (platform = "" ∨ maxPlatformLen < len platform)
    (writeErr 400 Code.invalidInput.text "platform required, max 32 chars" false)
  replyIf (Text.trimSpace req.pushToken = "" ∨ maxPushTokLen < len req.pushToken)
    (writeErr 400 Code.invalidInput.text "push_token required, max 512 chars" false)
  ownTarget me target
  store (.setPushToken target platform req.pushToken) fun _ =>
    writeErr 500 "STORE_ERROR" "push token store failed" true
  return ⟨200, .pushToken target platform⟩

/-! ## Trust graph, presence, attention, relay -/

/-- `handleTrustGraph`. -/
def handleTrustGraph (user : String) : H Reply := do
  let devs ← store (.listUserDevices user) fun _ =>
    writeErr 500 "STORE_ERROR" "list failed" true
  return ⟨200, .graph (devs.map deviceJSON)⟩

structure HeartbeatReq where
  online : Option Bool := none
  deriving DecidableEq, Repr

/-- `handleHeartbeat`; the body may be missing. -/
def handleHeartbeat (requestId : String) (me : Device)
    (body : Option (Json HeartbeatReq)) : H Reply := do
  idempotent requestId
  let req ← decode (body.getD (.ok {}))
  let online := req.online.getD true
  let lastSeen ← now
  store (.setPresence ⟨me.id, online, "http", lastSeen⟩) fun _ =>
    writeErr 500 "STORE_ERROR" "presence failed" true
  attempt (.notify {
    userId := me.userId
    type := .presenceChanged
    payload := .presence me.id online })
  return ⟨200, .presence me.id online (Time.unixMilli lastSeen)⟩

/-- `handlePresenceGet`. -/
def handlePresenceGet (me : Device) (target : String) : H Reply := do
  let dev ← store (.getDevice target) fun _ => unknownDevice
  replyIf (dev.userId ≠ me.userId) unknownDevice
  let p ← store (.getPresence target) fun e =>
    if e = .notFound then writeErr 404 "NO_PRESENCE" "no presence recorded" false
    else writeErr 500 "STORE_ERROR" "presence lookup failed" true
  return ⟨200, .presence p.deviceId p.online (Time.unixMilli p.lastSeen)⟩

structure AttentionReq where
  computerId : String := ""
  workflowId : String := ""
  kind : String := ""
  deriving DecidableEq, Repr

/-- A text that is blank or longer than `max`. -/
def outOfBounds (s : String) (max : Nat) : Prop := Text.trimSpace s = "" ∨ max < len s

instance (s : String) (max : Nat) : Decidable (outOfBounds s max) :=
  inferInstanceAs (Decidable (_ ∨ _))

/-- `handleAttention`. -/
def handleAttention (requestId : String) (me : Device) (body : Json AttentionReq) :
    H Reply := do
  idempotent requestId
  replyIf (me.role ≠ .computer)
    (writeErr 403 Code.notOwner.text "only a computer posts attention" false)
  let req ← decode body
  replyIf (outOfBounds req.computerId maxIDLen ∨ outOfBounds req.workflowId maxIDLen ∨
      outOfBounds req.kind maxKindLen)
    (writeErr 400 Code.invalidInput.text
      "computer_id, workflow_id (max 128) and kind (max 64) required" false)
  replyIf (req.computerId ≠ me.id)
    (writeErr 403 Code.notOwner.text "computer_id must be the caller" false)
  store (.enqueueAttention me.userId ⟨req.computerId, req.workflowId, req.kind⟩) fun _ =>
    writeErr 500 "STORE_ERROR" "enqueue failed" true
  attempt (.notify {
    userId := me.userId
    type := .attentionPending
    payload := .attention req.computerId req.workflowId req.kind })
  return ⟨202, .queued⟩

/-- `handleRelayAlloc`: always 501. -/
def handleRelayAlloc : H Reply := return ⟨501, .relay⟩

end Calcar.Api
