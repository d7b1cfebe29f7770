import Calcar.Text

/-!
# Identifiers and tokens of the signal plane

The pure parts of `hub.go`: how random bytes become ids and nonces, and
where a bearer token is taken from.
-/

namespace Calcar.Ws

/-! ## Identifiers -/

/-- `NewID` on the bytes it draws. -/
def newID (b : Bytes) : String := Text.hexEncode b

/-- The version and variant bits of a UUID. -/
def stampV4 (b : Bytes) : Bytes :=
  (b.modify 6 fun x => x &&& 0x0f ||| 0x40).modify 8 fun x => x &&& 0x3f ||| 0x80

/-- `NewUUIDv4` on the bytes it draws. -/
def newUUIDv4 (b : Bytes) : String :=
  let h := (Text.hexEncode (stampV4 b)).toList
  String.ofList (h.take 8 ++ ['-'] ++ (h.drop 8).take 4 ++ ['-'] ++ (h.drop 12).take 4 ++
    ['-'] ++ (h.drop 16).take 4 ++ ['-'] ++ (h.drop 20).take 12)

/-- The inner loop of `base64RawURL`: emit digits while six bits are there.
The accumulator is a 64-bit word. -/
def emitDigits (acc : UInt64) : Nat → Nat → List Char × Nat
  | 0, bits => ([], bits)
  | fuel + 1, bits =>
      if 6 ≤ bits then
        let digit := (acc >>> UInt64.ofNat (bits - 6)) &&& 0x3F
        let (rest, left) := emitDigits acc fuel (bits - 6)
        (Text.base64Digit true digit.toNat :: rest, left)
      else ([], bits)

/-- The outer loop of `base64RawURL`. -/
def rawURLLoop : Bytes → UInt64 → Nat → List Char
  | [], acc, bits =>
      if 0 < bits then
        [Text.base64Digit true ((acc <<< UInt64.ofNat (6 - bits)) &&& 0x3F).toNat]
      else []
  | c :: rest, acc, bits =>
      let acc := acc <<< 8 ||| UInt64.ofNat c.toNat
      let (out, left) := emitDigits acc (bits + 8) (bits + 8)
      out ++ rawURLLoop rest acc left

/-- `base64RawURL`. -/
def base64RawURL (b : Bytes) : String := String.ofList (rawURLLoop b 0 0)

/-- `NewNonceB64URL` on the bytes it draws. -/
def newNonceB64URL (b : Bytes) : String := base64RawURL b

/-! ## Tokens -/

/-- `bearerToken`; the api and the ws package have the same one. -/
def bearerToken (hdr : String) : String :=
  let cs := hdr.toList
  if ' ' ∈ cs ∧ Text.isBearer (cs.takeWhile (· != ' ')) then
    Text.trimSpace (String.ofList ((cs.dropWhile (· != ' ')).drop 1))
  else ""

/-- `strings.Split(s, ",")`. -/
def splitComma : List Char → List (List Char)
  | [] => [[]]
  | c :: rest =>
      match splitComma rest with
      | [] => [[c]]
      | part :: parts => if c = ',' then [] :: part :: parts else (c :: part) :: parts

/-- `protocolToken`: the last offered subprotocol that is not the version
tag. -/
def protocolToken (hdr : String) : String :=
  if hdr = "" then ""
  else
    let parts := (splitComma hdr.toList).reverse.map fun p =>
      Text.trimSpace (String.ofList p)
    (parts.find? fun p => ¬(p = "" ∨ p = "calcar-ws-v1")).getD ""

example : bearerToken "Bearer  abc " = "abc" := by decide

example : protocolToken "tok, calcar-ws-v1" = "tok" := by decide

end Calcar.Ws
