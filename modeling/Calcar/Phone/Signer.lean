import Calcar.Trust

/-!
# The phone's approve signer

`approve_signer.dart`: the device id, the context hash and the bytes of an
authorization record as the phone builds them before it signs.
-/

namespace Calcar.Phone

/-- Session TTL the context proxy derives from. -/
def kPairingTtlMillis : Int := 10 * 60 * 1000

/-- `deviceIDForComputer`; `none` is its `ArgumentError`. -/
def deviceIDForComputer (C : Crypto) (pubkey : Bytes) : Option String :=
  if pubkey.length ≠ 32 then none
  else some ("RD-WIN-" ++ Text.toUpper (Text.hexEncode ((C.sha256 pubkey).take 4)))

/-- The loop of `pairingContextHash`: a NUL before every field but the first. -/
def joinFields : List String → Bytes
  | [] => []
  | [field] => Trust.utf8 field
  | field :: next :: fields => Trust.utf8 field ++ 0 :: joinFields (next :: fields)

/-- `pairingContextHash`. -/
def pairingContextHash (C : Crypto) (displayName fingerprint subjectDeviceId sessionId : String)
    (requestedAtMillis : Int) : Bytes :=
  C.sha256
    (joinFields [displayName, fingerprint, subjectDeviceId, sessionId, toString requestedAtMillis])

theorem shiftRight_seven_lt {n : Nat} (h : 0x80 ≤ n) : n >>> 7 < n := by
  rw [Nat.shiftRight_eq_div_pow]
  omega

/-- `_varint`. -/
def varint (value : Nat) : Bytes :=
  if 0x80 ≤ value then UInt8.ofNat ((value &&& 0x7F) ||| 0x80) :: varint (value >>> 7)
  else [UInt8.ofNat value]
termination_by value
decreasing_by exact shiftRight_seven_lt ‹_›

/-- `_field`. -/
def field (number : Nat) (value : Bytes) : Bytes :=
  varint ((number <<< 3) ||| 2) ++ varint value.length ++ value

/-- What `encodeAuthorizationRecord` is called with. -/
structure RecordFields where
  authorizationId : String
  sessionId : String
  subjectDeviceId : String
  subjectPublicKey : Bytes
  ownerDeviceId : String
  contextHash : Bytes
  decidedAtMillis : Int
  nonce : Bytes
  deriving DecidableEq, Repr

/-- `encodeAuthorizationRecord`; an error is the text of its `ArgumentError`. -/
def encodeAuthorizationRecord (f : RecordFields) : Except String Bytes :=
  if f.authorizationId = "" ∨ f.sessionId = "" ∨ f.subjectDeviceId = "" ∨ f.ownerDeviceId = "" then
    .error "record string fields must all be non-empty"
  else if f.subjectPublicKey.length ≠ 32 then
    .error "subject public key must be 32 bytes"
  else if f.contextHash = [] ∨ f.nonce = [] ∨ f.decidedAtMillis ≤ 0 then
    .error "record hash, nonce, and decided_at are required"
  else
    let subject := field 1 (Trust.utf8 f.subjectDeviceId)
    let owner := field 1 (Trust.utf8 f.ownerDeviceId)
    .ok (field 1 (Trust.utf8 f.authorizationId) ++ field 2 (Trust.utf8 f.sessionId) ++
      field 3 subject ++ field 4 f.subjectPublicKey ++ field 5 owner ++ field 6 f.contextHash ++
      varint ((8 <<< 3) ||| 0) ++ varint f.decidedAtMillis.toNat ++ field 9 f.nonce)

end Calcar.Phone
