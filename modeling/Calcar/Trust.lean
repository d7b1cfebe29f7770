import Calcar.Lib.Utf8
import Calcar.Store.Types

/-!
# The trust core

`backend/trust/trust.go`: fingerprints and device ids derived from a public
key, the context hash, the bytes the Owner signs and the checks of
`VerifyAuthorization`.  SHA-256 and Ed25519 verification are parameters; no
statement assumes anything about them.
-/

namespace Calcar

/-- The two primitives of Go's crypto library the backend calls. -/
structure Crypto where
  sha256 : Bytes → Bytes
  ed25519Verify : Bytes → Bytes → Bytes → Bool

namespace Trust

/-- Stable error codes. -/
inductive Code where
  | pairingExpired
  | pairingConsumed
  | unknownSession
  | pubkeyMismatch
  | revoked
  | notOwner
  | replayedId
  | badSignature
  | unknownApproval
  | approvalExpired
  | approvalResolved
  | invalidInput
  | qrMismatch
  deriving DecidableEq, Repr

/-- The text of a code on the wire. -/
def Code.text : Code → String
  | .pairingExpired => "PAIRING_EXPIRED"
  | .pairingConsumed => "PAIRING_CONSUMED"
  | .unknownSession => "UNKNOWN_SESSION"
  | .pubkeyMismatch => "PUBKEY_MISMATCH"
  | .revoked => "REVOKED"
  | .notOwner => "NOT_OWNER"
  | .replayedId => "REPLAYED_ID"
  | .badSignature => "BAD_SIGNATURE"
  | .unknownApproval => "UNKNOWN_APPROVAL"
  | .approvalExpired => "APPROVAL_EXPIRED"
  | .approvalResolved => "APPROVAL_RESOLVED"
  | .invalidInput => "INVALID_INPUT"
  | .qrMismatch => "QR_MISMATCH"

/-- `TrustError`. -/
structure TrustError where
  code : Code
  msg : String
  deriving DecidableEq, Repr

/-- `TrustError.Error`. -/
def TrustError.text (e : TrustError) : String := e.code.text ++ ": " ++ e.msg

def publicKeySize : Nat := 32
def signatureSize : Nat := 64

def pairingTTLMillis : Int := 10 * 60 * 1000
def maxClockSkewMillis : Int := 5 * 60 * 1000

/-- An `int64` sum or difference wraps around. -/
def wrap64 (n : Int) : Int := Int.bmod n 18446744073709551616

/-- The values of an `int64`. -/
def InInt64 (n : Int) : Prop := -9223372036854775808 ≤ n ∧ n < 9223372036854775808

instance (n : Int) : Decidable (InInt64 n) := inferInstanceAs (Decidable (_ ∧ _))

theorem wrap64_self {n : Int} (h : InInt64 n) : wrap64 n = n := by
  obtain ⟨hlow, hhigh⟩ := h
  exact Int.bmod_eq_of_le (by omega) (by omega)

/-- Groups of four, joined by single blanks. -/
def groupFours : List Char → List Char
  | a :: b :: c :: d :: e :: rest => a :: b :: c :: d :: ' ' :: groupFours (e :: rest)
  | cs => cs

/-- `FingerprintEd25519Pub`. -/
def fingerprintEd25519Pub (C : Crypto) (pub : Bytes) : Except TrustError String :=
  if pub.length ≠ publicKeySize then
    .error ⟨.invalidInput, "public key must be 32 bytes"⟩
  else
    let hexed := Text.toUpper (Text.hexEncode (C.sha256 pub))
    .ok (String.ofList (groupFours hexed.toList))

/-- `DeviceIDForComputer`. -/
def deviceIDForComputer (C : Crypto) (pub : Bytes) : Except TrustError String :=
  if pub.length ≠ publicKeySize then
    .error ⟨.invalidInput, "public key must be 32 bytes"⟩
  else
    .ok ("RD-WIN-" ++ Text.toUpper (Text.hexEncode ((C.sha256 pub).take 4)))

/-- The UTF-8 bytes of a text. -/
def utf8 (s : String) : Bytes := s.toUTF8.data.toList

theorem utf8_ofList (cs : List Char) : utf8 (String.ofList cs) = Lib.Utf8.asBytes cs := by
  unfold utf8 Lib.Utf8.asBytes
  simp [List.utf8Encode]

theorem utf8_toList (s : String) : utf8 s = Lib.Utf8.asBytes s.toList := by
  rw [← utf8_ofList, String.ofList_toList]

/-- The bytes `ContextHash` hashes: the fields with NUL separators. -/
def contextPreimage (displayName fingerprint subjectDeviceId sessionId : String)
    (requestedAtMillis : Int) : Bytes :=
  utf8 displayName ++ [0] ++ utf8 fingerprint ++ [0] ++ utf8 subjectDeviceId ++ [0] ++
    utf8 sessionId ++ [0] ++ utf8 (toString requestedAtMillis)

/-- `ContextHash`. -/
def contextHash (C : Crypto) (displayName fingerprint subjectDeviceId sessionId : String)
    (requestedAtMillis : Int) : Bytes :=
  C.sha256 (contextPreimage displayName fingerprint subjectDeviceId sessionId
    requestedAtMillis)

/-! ## Authorization records -/

/-- `calcarv1.AuthorizationRecord`. -/
structure AuthorizationRecord where
  authorizationId : String
  sessionId : String
  subjectDeviceId : String
  subjectPublicKey : Bytes
  ownerDeviceId : String
  contextHash : Bytes
  ownerSignature : Bytes
  decidedAtMillis : Int
  nonce : Bytes
  deriving DecidableEq, Repr

/-- A base-128 varint, least significant group first; ten groups hold any
`uint64`. -/
def varint : Nat → Nat → Bytes
  | 0, _ => []
  | fuel + 1, n =>
      if n < 128 then [UInt8.ofNat n]
      else UInt8.ofNat (n % 128 + 128) :: varint fuel (n / 128)

/-- A length-delimited field; an empty one is left out. -/
def lenField (field : Nat) (b : Bytes) : Bytes :=
  if b.isEmpty then []
  else varint 10 (field * 8 + 2) ++ varint 10 b.length ++ b

/-- A nested message is written even when it is empty. -/
def msgField (field : Nat) (b : Bytes) : Bytes :=
  varint 10 (field * 8 + 2) ++ varint 10 b.length ++ b

/-- An `int64` field; zero is left out, negative numbers are two's
complement. -/
def intField (field : Nat) (n : Int) : Bytes :=
  if n = 0 then []
  else varint 10 (field * 8) ++ varint 10 (n % 18446744073709551616).toNat

/-- Deterministic proto3 serialization of a record, fields ascending. -/
def marshal (r : AuthorizationRecord) : Bytes :=
  lenField 1 (utf8 r.authorizationId) ++ lenField 2 (utf8 r.sessionId) ++
    msgField 3 (lenField 1 (utf8 r.subjectDeviceId)) ++ lenField 4 r.subjectPublicKey ++
    msgField 5 (lenField 1 (utf8 r.ownerDeviceId)) ++ lenField 6 r.contextHash ++
    lenField 7 r.ownerSignature ++ intField 8 r.decidedAtMillis ++ lenField 9 r.nonce

/-- `SigningPayload`: the record without its signature. -/
def signingPayload (r : AuthorizationRecord) : Bytes :=
  marshal { r with ownerSignature := [] }

/-- `VerifyAuthorization`: signature, session, key, context, then time. -/
def verifyAuthorization (C : Crypto) (r : AuthorizationRecord) (ownerPub : Bytes)
    (expectedSessionId : String) (expectedSubjectPub expectedContextHash : Bytes)
    (nowMillis ttlMillis : Int) : Except TrustError Unit :=
  if ownerPub.length ≠ publicKeySize then
    .error ⟨.notOwner, "owner public key must be 32 bytes"⟩
  else if r.ownerSignature.length ≠ signatureSize then
    .error ⟨.badSignature, "owner signature must be 64 bytes"⟩
  else if !C.ed25519Verify ownerPub (signingPayload r) r.ownerSignature then
    .error ⟨.badSignature, "owner signature invalid"⟩
  else if expectedSessionId = "" ∨ r.sessionId ≠ expectedSessionId then
    .error ⟨.unknownSession, "session binding mismatch"⟩
  else if expectedSubjectPub.length ≠ publicKeySize ∨
      r.subjectPublicKey ≠ expectedSubjectPub then
    .error ⟨.pubkeyMismatch, "subject public key mismatch"⟩
  else if r.contextHash.isEmpty then
    .error ⟨.invalidInput, "missing context hash"⟩
  else if !expectedContextHash.isEmpty ∧ r.contextHash ≠ expectedContextHash then
    .error ⟨.pubkeyMismatch, "context hash mismatch"⟩
  else if r.decidedAtMillis ≤ 0 then
    .error ⟨.invalidInput, "missing decided_at_millis"⟩
  else if wrap64 (nowMillis + maxClockSkewMillis) < r.decidedAtMillis then
    .error ⟨.replayedId, "decision timestamp skewed into the future"⟩
  else if ttlMillis < wrap64 (nowMillis - r.decidedAtMillis) then
    .error ⟨.pairingExpired, "authorization outside TTL"⟩
  else .ok ()

end Trust

end Calcar
