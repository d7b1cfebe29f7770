import Calcar.Api.Server

/-!
# The pairing ceremony

The handlers of `pairing.go`: a phone creates a session, an unauthenticated
computer joins it, the Owner decides.
-/

namespace Calcar.Api

open Lib Trust

/-- `handlePairingCreate`. -/
def handlePairingCreate (requestId : String) (me : Device) : H Reply := do
  idempotent requestId
  replyIf (me.role = .computer)
    (writeErr 403 Code.notOwner.text "only a phone creates pairing sessions" false)
  let t ← now
  let idBytes ← attempt (.rand 16)
  let nonceBytes ← attempt (.rand 16)
  let sess : PairingSession := {
    id := Ws.newUUIDv4 idBytes
    userId := me.userId
    createdBy := me.id
    status := some .pending
    expiresAt := t + pairingTTL
    qrNonce := Ws.newNonceB64URL nonceBytes }
  store (.createPairingSession sess) fun e =>
    if e = .conflict ∨ e = .replayed then
      writeErr 409 Code.replayedId.text "session id collision, retry" true
    else
      writeErr 500 "STORE_ERROR" "create session failed" true
  return ⟨201, .session (sessionJSON sess)⟩

/-- `requestedAtProxy`. -/
def requestedAtProxy (s : PairingSession) : Int := Time.unixMilli (s.expiresAt - pairingTTL)

structure JoinReq where
  pubKeyB64 : String := ""
  fingerprint : String := ""
  displayName : String := ""
  requestId : String := ""
  qrNonce : String := ""
  deriving DecidableEq, Repr

/-- The reply to a session past its expiry. -/
def sessionExpired : Reply := writeErr 410 Code.pairingExpired.text "session expired" false

/-- `handlePairingJoin`, which is not authenticated. -/
def handlePairingJoin (S : Server) (sessionId : String) (body : Json JoinReq) :
    H Reply := do
  let req ← decode body
  replyIf (Text.trimSpace req.requestId = "")
    (writeErr 400 Code.invalidInput.text "request_id required" false)
  let pub ← require (decodePubKey req.pubKeyB64) badPubKey
  let fp ← fingerprint S pub
  replyIf (Text.trimSpace req.fingerprint ≠ fp)
    (writeErr 422 Code.pubkeyMismatch.text "fingerprint does not derive from pubkey" false)
  let name ← require (checkDisplayName req.displayName) badName
  let sess ← store (.getPairingSession sessionId) fun e =>
    storeErr e .pairingExpired .pairingConsumed
  let t ← now
  replyIf (sess.expiresAt < t) sessionExpired
  replyIf (Text.trimSpace req.qrNonce = "")
    (writeErr 400 Code.invalidInput.text "qr_nonce required" false)
  replyIf (req.qrNonce ≠ sess.qrNonce)
    (writeErr 422 Code.qrMismatch.text "qr nonce does not match this session" false)
  markRequest req.requestId
  store (.submitJoinRequest sessionId ⟨pub, fp, name, req.requestId⟩) fun e =>
    storeErr e .pairingExpired .pairingConsumed
  attempt (.notify {
    userId := sess.userId
    type := .pairingJoinRequested
    payload := .joinRequested sessionId name fp req.requestId
      (String.ofList (Text.base64Encode pub)) (requestedAtProxy sess) })
  return ⟨200, .joined sessionId .pending⟩

/-- `handlePairingGet`. -/
def handlePairingGet (me : Device) (sessionId : String) : H Reply := do
  let sess ← store (.getPairingSession sessionId) fun e =>
    storeErr e .pairingExpired .pairingConsumed
  replyIf (sess.createdBy ≠ me.id)
    (writeErr 403 Code.notOwner.text "only the creating phone may read this session" false)
  return ⟨200, .session (sessionJSON sess)⟩

structure DecisionReq where
  approve : Bool := false
  subjectPubKeyB64 : String := ""
  signatureB64 : String := ""
  authorizationId : String := ""
  nonceB64 : String := ""
  decidedAtMillis : Int := 0
  deriving DecidableEq, Repr

/-- `writeTrustErr`. -/
def writeTrustErr (e : TrustError) : Reply :=
  match e.code with
  | .pairingExpired => writeErr 410 Code.pairingExpired.text e.text false
  | .pubkeyMismatch => writeErr 422 Code.pubkeyMismatch.text e.text false
  | .replayedId => writeErr 409 Code.replayedId.text e.text false
  | .unknownSession => writeErr 404 Code.unknownSession.text e.text false
  | .badSignature => writeErr 401 Code.badSignature.text e.text false
  | _ => writeErr 400 Code.invalidInput.text e.text false

/-- The record the backend verifies: the phone's fields and its own. -/
def authorizationRecord (S : Server) (me : Device) (sess : PairingSession)
    (req : DecisionReq) (sessionId subjectDeviceId : String)
    (subjectPub sig nonce : Bytes) : AuthorizationRecord where
  authorizationId := Text.trimSpace req.authorizationId
  sessionId := sessionId
  subjectDeviceId := subjectDeviceId
  subjectPublicKey := subjectPub
  ownerDeviceId := me.id
  contextHash := contextHash S.crypto sess.joinName sess.joinFingerprint subjectDeviceId
    sessionId (requestedAtProxy sess)
  ownerSignature := sig
  decidedAtMillis := req.decidedAtMillis
  nonce := nonce

/-- The computer row an approval registers. -/
def pairedComputer (me : Device) (sess : PairingSession) (subjectDeviceId : String)
    (subjectPub : Bytes) : Device where
  id := subjectDeviceId
  userId := sess.userId
  role := .computer
  displayName := sess.joinName
  pubKey := subjectPub
  fingerprint := sess.joinFingerprint
  authorizedBy := me.id

/-- What both outcomes of `handlePairingDecision` check first: the session
is the caller's, unexpired, and the subject key is the joined one. -/
def decidable (S : Server) (me : Device) (sessionId : String) (req : DecisionReq) :
    H (PairingSession × Bytes × String) := do
  let subjectPub ← require (decodePubKey req.subjectPubKeyB64)
    (writeErr 400 Code.invalidInput.text
      "subject_pubkey_b64 must be a 32-byte Ed25519 key" false)
  let sess ← store (.getPairingSession sessionId) fun e =>
    storeErr e .pairingExpired .pairingConsumed
  replyIf (sess.userId ≠ me.userId)
    (writeErr 403 Code.notOwner.text "session belongs to another user" false)
  let t ← now
  replyIf (sess.expiresAt < t) sessionExpired
  replyIf (sess.joinPubKey = [])
    (writeErr 409 Code.invalidInput.text "no join request on this session" false)
  replyIf (subjectPub ≠ sess.joinPubKey)
    (writeErr 422 Code.pubkeyMismatch.text "subject pubkey differs from join pubkey" false)
  replyIf ((fingerprintEd25519Pub S.crypto subjectPub).toOption ≠ some sess.joinFingerprint)
    (writeErr 422 Code.pubkeyMismatch.text "fingerprint does not derive from pubkey" false)
  let subjectDeviceId ← match deviceIDForComputer S.crypto subjectPub with
    | .ok id => pure id
    | .error _ => throw (writeErr 500 "STORE_ERROR" "device id derivation failed" true)
  return (sess, subjectPub, subjectDeviceId)

/-- A rejection. -/
def reject (me : Device) (sessionId : String) (sess : PairingSession) : H Reply := do
  store (.decidePairingSession sessionId false [] [] me.id) fun e =>
    storeErr e .pairingExpired .pairingConsumed
  attempt (.notify {
    userId := sess.userId
    type := .pairingDecided
    payload := .decided sessionId false "" })
  return ⟨200, .decided sessionId .rejected none⟩

/-- The signed record of an approval, once `VerifyAuthorization` accepts it. -/
def verifiedRecord (S : Server) (me : Device) (sessionId : String) (req : DecisionReq)
    (sess : PairingSession) (subjectPub : Bytes) (subjectDeviceId : String) :
    H AuthorizationRecord := do
  let sig ← require
    ((decodeFirst (Text.trimSpace req.signatureB64) [(false, true), (true, true)]).filter
      fun s => s.length = signatureSize)
    (writeErr 401 Code.badSignature.text "owner signature required for approval" false)
  replyIf (Text.trimSpace req.authorizationId = "" ∨ maxIDLen < len req.authorizationId)
    (writeErr 400 Code.invalidInput.text "authorization_id required, max 128 chars" false)
  let nonce ← require
    ((decodeFirst (Text.trimSpace req.nonceB64) [(false, true), (true, true)]).filter
      fun n => 0 < n.length ∧ n.length ≤ 64)
    (writeErr 400 Code.invalidInput.text "nonce_b64 required, 1-64 bytes" false)
  replyIf (req.decidedAtMillis ≤ 0)
    (writeErr 400 Code.invalidInput.text "decided_at_millis required" false)
  let t ← now
  let rec' := authorizationRecord S me sess req sessionId subjectDeviceId subjectPub sig
    nonce
  match verifyAuthorization S.crypto rec' me.pubKey sessionId sess.joinPubKey
      rec'.contextHash (Time.unixMilli t) pairingTTLMillis with
  | .ok () => pure rec'
  | .error e => throw (writeTrustErr e)

/-- An approval: verify, register the computer, decide. -/
def approve (S : Server) (me : Device) (sessionId : String) (req : DecisionReq)
    (sess : PairingSession) (subjectPub : Bytes) (subjectDeviceId : String) :
    H Reply := do
  let rec' ← verifiedRecord S me sessionId req sess subjectPub subjectDeviceId
  let registered ← attempt
    (.store (.registerDevice (pairedComputer me sess subjectDeviceId subjectPub)))
  replyIf (failedHard registered = true)
    (writeErr 500 "STORE_ERROR" "computer registration failed" true)
  store (.decidePairingSession sessionId true subjectPub rec'.ownerSignature me.id) fun e =>
    storeErr e .pairingExpired .pairingConsumed
  attempt (.notify {
    userId := sess.userId
    type := .pairingDecided
    payload := .decided sessionId true subjectDeviceId })
  return ⟨200, .decided sessionId .approved (some subjectDeviceId)⟩

/-- `handlePairingDecision`. -/
def handlePairingDecision (S : Server) (requestId : String) (me : Device)
    (sessionId : String) (body : Json DecisionReq) : H Reply := do
  idempotent requestId
  replyIf (me.role ≠ .ownerPhone)
    (writeErr 403 Code.notOwner.text "only the Owner device decides pairing" false)
  let req ← decode body
  let (sess, subjectPub, subjectDeviceId) ← decidable S me sessionId req
  if req.approve = true then
    approve S me sessionId req sess subjectPub subjectDeviceId
  else
    reject me sessionId sess

end Calcar.Api
