import Calcar.Store.Combined
import Calcar.Ws.Ids

/-!
# Handlers, replies and errors

Handler bodies of `api` are programs over the store seam, the clock, random
bytes and the hub's `Notify`.  `H` is such a program with the early exits of
Go's `writeErr(...); return`: it ends with a value or with a reply.  Here are
also the reply shapes and the helpers all handlers share.
-/

namespace Calcar.Api

open Lib Trust

/-- What a handler body can do. -/
inductive Call where
  | store (c : Seam)
  | now
  | rand (n : Nat)
  | notify (ev : Ws.Event)

@[reducible] def Call.Ans : Call → Type
  | .store c => c.Ans
  | .now => Time
  | .rand _ => Bytes
  | .notify _ => Unit

/-- The calls of a handler, over the combined store. -/
def Call.run (C : Crypto) : (c : Call) → Core.M c.Ans
  | .store c => combined C c
  | .now => Core.perform .now
  | .rand n => Core.perform (.rand n)
  | .notify ev => Core.perform (.notify ev)

/-- A handler program. -/
abbrev M (α : Type) : Type := Prog Call Call.Ans α

abbrev perform (c : Call) : M c.Ans := Prog.perform c

/-! ## Replies -/

/-- `sessionJSON`; the join fields are there once a join is recorded. -/
structure SessionView where
  sessionId : String
  status : Option Status
  ownerDeviceId : String
  expiresAtMillis : Int
  qrNonce : String
  join : Option (String × String × String × List Char)
  deriving DecidableEq, Repr

/-- `deviceJSON`. -/
structure DeviceView where
  deviceId : String
  role : Role
  displayName : String
  pubKeyB64 : List Char
  fingerprint : String
  revoked : Bool
  authorizedBy : String
  deriving DecidableEq, Repr

/-- The bodies the handlers write. -/
inductive Body where
  | err (code msg : String) (retryable : Bool)
  | text (msg : String)
  | status (text : String)
  | bootstrapped (userId deviceId : String) (role : Role) (fingerprint : String)
  | challenge (deviceId challenge : String) (expiresInSeconds : Int)
  | tokens (access refresh : String) (expiresInSeconds refreshExpiresInSeconds : Int)
  | devices (ds : List DeviceView)
  | graph (ds : List DeviceView)
  | device (d : DeviceView)
  | revoked (deviceId : String)
  | pushToken (deviceId platform : String)
  | session (s : SessionView)
  | joined (sessionId : String) (status : Status)
  | decided (sessionId : String) (status : Status) (subjectDeviceId : Option String)
  | presence (deviceId : String) (online : Bool) (lastSeenMillis : Int)
  | queued
  | relay
  deriving DecidableEq, Repr

/-- A reply: the status line and the body. -/
structure Reply where
  status : Nat
  body : Body
  deriving DecidableEq, Repr

/-- The reply says that the same request may be sent again. -/
def Reply.retryable (r : Reply) : Bool :=
  match r.body with
  | .err _ _ b => b
  | _ => false

/-- A handler with early exits. -/
abbrev H (α : Type) : Type := ExceptT Reply (Prog Call Call.Ans) α

/-- Whatever way a handler ends, its reply. -/
def H.reply (h : H Reply) : M Reply := do
  match ← h.run with
  | .error r => return r
  | .ok r => return r

/-! ## Helpers -/

/-- `writeErr`. -/
def writeErr (status : Nat) (code msg : String) (retryable : Bool) : Reply :=
  ⟨status, .err code msg retryable⟩

/-- `storeErr` on an error. -/
def storeErr (e : Err) (expiredCode goneCode : Code) : Reply :=
  match e with
  | .notFound =>
      writeErr 404 Code.unknownSession.text "unknown session or device" false
  | .expired => writeErr 410 expiredCode.text "session expired" false
  | .gone => writeErr 410 goneCode.text "session already consumed" false
  | .forbidden => writeErr 403 Code.notOwner.text "forbidden" false
  | .replayed => writeErr 409 Code.replayedId.text "request id already used" false
  | .conflict => writeErr 409 Code.replayedId.text "already exists" false
  | .other => writeErr 500 "STORE_ERROR" "store failure" true

/-- Reply and return if the condition holds. -/
def replyIf (c : Prop) [Decidable c] (r : Reply) : H Unit :=
  if c then throw r else pure ()

/-- A call whose result the handler looks at itself. -/
def attempt (c : Call) : H c.Ans := ExceptT.mk (do return .ok (← perform c))

/-- A store call; on an error the handler ends with `bad`. -/
def store (c : Seam) (bad : Err → Reply) : H c.Ret := do
  match ← attempt (.store c) with
  | .ok a => pure a
  | .error e => throw (bad e)

/-- `s.now()`. -/
def now : H Time := attempt .now

/-- A request body as the JSON decoder leaves it: the value, or its
complaint. -/
abbrev Json (α : Type) : Type := Except String α

/-- `decode`. -/
def decode {α : Type} (body : Json α) : H α :=
  match body with
  | .ok req => pure req
  | .error detail =>
      throw (writeErr 400 Code.invalidInput.text ("malformed JSON: " ++ detail) false)

def requestIDTTL : Time := 24 * Time.hour
def pairingTTL : Time := 10 * Time.minute
def challengeExpiresIn : Int := 120
def maxDisplayName : Nat := 64
def maxReason : Nat := 280
def maxIDLen : Nat := 128
def maxKindLen : Nat := 64
def maxPlatformLen : Nat := 32
def maxPushTokLen : Nat := 512

/-- `CheckAndMarkRequest` with the replies it gives in all handlers. -/
def markRequest (requestId : String) : H Unit :=
  store (.checkAndMarkRequest requestId requestIDTTL) fun e =>
    if e = .replayed then
      writeErr 409 Code.replayedId.text "request id already used" false
    else
      writeErr 500 "STORE_ERROR" "replay check failed" true

/-- `idempotent`: the `X-Request-ID` header is required and marked. -/
def idempotent (header : String) : H Unit := do
  replyIf (Text.trimSpace header = "")
    (writeErr 400 "MISSING_REQUEST_ID" "X-Request-ID header required" false)
  markRequest (Text.trimSpace header)

/-- The first decoder that accepts the text. -/
def decodeFirst (s : String) : List (Bool × Bool) → Option Bytes
  | [] => none
  | (url, pad) :: rest =>
      match Text.base64Decode url pad s with
      | some b => some b
      | none => decodeFirst s rest

/-- `decodePubKey`. -/
def decodePubKey (b64 : String) : Option Bytes :=
  match decodeFirst (Text.trimSpace b64) [(false, true), (true, true), (true, false)] with
  | some raw => if raw.length = publicKeySize then some raw else none
  | none => none

/-- `len` of a string: its bytes. -/
def len (s : String) : Nat := s.utf8ByteSize

/-- `checkDisplayName`: the trimmed name if it is acceptable. -/
def checkDisplayName (name : String) : Option String :=
  let t := Text.trimSpace name
  if t ≠ "" ∧ len t ≤ maxDisplayName then some t else none

/-- Reply unless there is a value. -/
def require {α : Type} (x : Option α) (bad : Reply) : H α :=
  match x with
  | some a => pure a
  | none => throw bad

/-- `deviceJSON`. -/
def deviceJSON (d : Device) : DeviceView where
  deviceId := d.id
  role := d.role
  displayName := d.displayName
  pubKeyB64 := Text.base64Encode d.pubKey
  fingerprint := d.fingerprint
  revoked := d.revoked
  authorizedBy := d.authorizedBy

/-- `sessionJSON`. -/
def sessionJSON (s : PairingSession) : SessionView where
  sessionId := s.id
  status := s.status
  ownerDeviceId := s.createdBy
  expiresAtMillis := Time.unixMilli s.expiresAt
  qrNonce := s.qrNonce
  join :=
    if s.joinRequestId ≠ "" then
      some (s.joinRequestId, s.joinFingerprint, s.joinName,
        Text.base64Encode s.joinPubKey)
    else none

end Calcar.Api
