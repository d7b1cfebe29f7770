import Calcar.Phone.Seed
import Mathlib.Logic.Function.Basic

/-!
# Owner setup

`establishOwner` of `owner_setup.dart`, on a phone of which the secure store and
the API client are kept.  Each call it awaits has a fate: whether it throws, and
if it is a write, whether it took effect nevertheless.
-/

namespace Calcar.Phone

/-- What setup can change. -/
@[ext]
structure Handset where
  stored : String → Option String
  client : Client

/-- Code that may throw; what it changed before stays. -/
abbrev App : Type → Type := ExceptT Unit (StateM Handset)

/-- The fate of a write or a delete: it is done, or throws without effect, or
throws after it took effect. -/
inductive CallFate where
  | done
  | lost
  | kept
  deriving DecidableEq, Repr

def CallFate.settle (fate : CallFate) (change : Handset → Handset) : App Unit := do
  if fate ≠ .lost then
    modify change
  if fate ≠ .done then
    throw ()

def setStored (key : String) (value : Option String) (phone : Handset) : Handset :=
  { phone with stored := Function.update phone.stored key value }

@[simp] theorem setStored_self (key : String) (value : Option String) (phone : Handset) :
    (setStored key value phone).stored key = value := by
  simp [setStored]

theorem setStored_other {key key' : String} (h : key' ≠ key) (value : Option String)
    (phone : Handset) : (setStored key value phone).stored key' = phone.stored key' := by
  simp [setStored, h]

/-- `LocalAuthResult`. -/
inductive LocalAuthResult where
  | unlocked
  | cancelled
  | failed
  | unavailable
  deriving DecidableEq, Repr

/-- `buildBootstrapBody`, with the request id of the header. -/
structure BootstrapCall where
  displayName : String
  pubkeyB64 : String
  deviceId : String
  requestId : String
  deriving DecidableEq, Repr

/-- `buildVerifyBody`. -/
structure VerifyCall where
  deviceId : String
  challenge : String
  signatureB64 : String
  deriving DecidableEq, Repr

/-- `BootstrapResult.fromJson`, of the fields that are used. -/
structure BootstrapResult where
  userId : String
  deviceId : String
  deriving DecidableEq, Repr

def BootstrapResult.fromJson (json : JsonFields) : BootstrapResult where
  userId := (json "user_id").getD ""
  deviceId := (json "device_id").getD ""

/-- `ChallengeResponse.fromJson`, of the field that is used. -/
def challengeOf (json : JsonFields) : String := (json "challenge").getD ""

/-- Whether the awaits of a use of the key go through: the read of the store and
those of the cryptography package. -/
structure KeyFate where
  reads : Bool
  computes : Bool
  deriving DecidableEq, Repr

/-- What the calls of one setup come to; `none` is a call that throws. -/
structure Fates where
  gate : Option LocalAuthResult
  seed : Seed
  generates : Bool
  publicKey : KeyFate
  bootstrap : BootstrapCall → Option JsonFields
  challenge : String → Option JsonFields
  sign : KeyFate
  verify : VerifyCall → Option JsonFields
  writes : String → CallFate
  deletes : String → CallFate

namespace Fates

/-- The secure store. -/
def store (fates : Fates) (reads : Bool) : SeedStore App where
  read key := do
    if reads = true then
      return (← get).stored key
    else
      throw ()
  write key value := (fates.writes key).settle (setStored key (some value))
  delete key := (fates.deletes key).settle (setStored key none)

end Fates

/-- A call that is answered, or throws. -/
def answered {α : Type} (answer : Option α) : App α :=
  match answer with
  | some a => pure a
  | none => throw ()

/-- An assignment to fields of the client. -/
def setClient (change : Client → Client) : App Unit :=
  modify fun phone => { phone with client := change phone.client }

/-- `String.trim` of Dart: white space and the byte order mark. -/
def trim (s : String) : String :=
  let blank (c : Char) : Bool := Text.isSpace c || c.toNat == 0xFEFF
  String.ofList (((s.toList.dropWhile blank).reverse.dropWhile blank).reverse)

namespace CalcarApiClient

/-- `verify`. -/
def verify (fates : Fates) (call : VerifyCall) : App TokenResponse := do
  let body ← answered (fates.verify call)
  let resp := TokenResponse.fromJson body
  setClient fun client => client.withTokens resp
  return resp

end CalcarApiClient

section Setup

variable (E : Ed25519) (fates : Fates)

/-! The `try` block of `establishOwner`, in three parts. -/

/-- A fresh key, and the bootstrap call for it. -/
def register (displayName requestId : String) : App BootstrapResult := do
  OwnerKeyService.generate (fates.store true) fates.seed fates.generates
  let pub ← OwnerKeyService.publicKey (fates.store fates.publicKey.reads) E
    fates.publicKey.computes
  let body ← answered (fates.bootstrap {
    displayName := trim displayName
    pubkeyB64 := String.ofList (Text.base64Encode pub)
    deviceId := ""
    requestId := requestId })
  return BootstrapResult.fromJson body

/-- The challenge, signed with the key, and `verify`. -/
def logIn (boot : BootstrapResult) : App TokenResponse := do
  let ch ← answered (fates.challenge boot.deviceId)
  let sig ← OwnerKeyService.sign (fates.store fates.sign.reads) E fates.sign.computes
    (Trust.utf8 (challengeOf ch))
  CalcarApiClient.verify fates {
    deviceId := boot.deviceId
    challenge := challengeOf ch
    signatureB64 := String.ofList (Text.base64Encode sig) }

/-- The ids of the client, and the session. -/
def adopt (session : Bool) (boot : BootstrapResult) (pair : TokenResponse) : App Unit := do
  setClient fun client => { client with deviceId := boot.deviceId }
  setClient fun client => { client with userId := boot.userId }
  let token := (← get).client.token
  if token.getD "" = "" then
    throw ()
  else if session = true then
    SessionStore.save (fates.store true) {
      deviceId := boot.deviceId
      userId := boot.userId
      token := token.getD ""
      refreshToken := pair.refreshToken }

def establish (displayName requestId : String) (session : Bool) : App Unit := do
  let boot ← register E fates displayName requestId
  let pair ← logIn E fates boot
  adopt fates session boot pair

/-- `establishOwner`. -/
def establishOwner (displayName requestId : String) (session : Bool) : App Bool := do
  if trim displayName = "" then
    return false
  else
    let auth ← answered fates.gate
    if auth ≠ .unlocked then
      return false
    else
      tryCatch
        (do
          establish E fates displayName requestId session
          return true)
        fun _ => do
          OwnerKeyService.deleteKey (fates.store true)
          return false

end Setup

end Calcar.Phone
