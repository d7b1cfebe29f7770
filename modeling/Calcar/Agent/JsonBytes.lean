import Calcar.Agent.Json
import Calcar.Lib.TextWalk

/-!
# The agent's JSON parser over bytes

`Parser` of `json.rs` as it walks: a position in the bytes of the text that every
function moves, indices and slices that panic out of range, and `from_utf8` on what is
sliced.  The values, and what a number text stands for, are those of `Json`.
-/

namespace Calcar.Agent.JsonBytes

open Calcar.Lib Calcar.Lib.Walk Calcar.Lib.Utf8

variable {F : Type}

/-! ## Bytes and text -/

/-- `u8::is_ascii_whitespace`. -/
def isAsciiWhitespace (b : UInt8) : Bool :=
  b == 0x20 || b == 0x09 || b == 0x0A || b == 0x0C || b == 0x0D

/-- `b'0'..=b'9'`. -/
def isDigit (b : UInt8) : Bool := decide (0x30 ≤ b.toNat ∧ b.toNat ≤ 0x39)

/-- `u32::from_str_radix(digits, 16)`. -/
def fromStrRadix16 : List Char → Option Nat
  | [] => none
  | c :: rest =>
      if c = '+' then if rest = [] then none else Json.hexDigits 0 rest
      else Json.hexDigits 0 (c :: rest)

/-! ## Steps -/

/-- The loops `while p(byte) { self.pos += 1 }`. -/
def skipWhile (spare : Nat) (p : UInt8 → Bool) : Walk Unit :=
  loop spare (fun _ => do
    match ← peek with
    | some byte => if p byte then do advance 1; pure (.inl ()) else pure (.inr ())
    | none => pure (.inr ())) ()

/-- `skip_ws`. -/
def skipWs (spare : Nat) : Walk Unit :=
  loop spare (fun _ => do
    if (← position) < (← length) then
      if isAsciiWhitespace (← index) then do advance 1; pure (.inl ()) else pure (.inr ())
    else pure (.inr ())) ()

def lit (word : Bytes) : Walk Unit := do
  let rest ← slice (← position) (← length)
  if word.isPrefixOf rest then advance word.length else refuse

def hex4 : Walk Nat := do
  let pos ← position
  if pos + 4 > (← length) then refuse
  else do
    let digits ← ofOption (fromUtf8 (← slice pos (pos + 4)))
    let code ← ofOption (fromStrRadix16 digits)
    advance 4
    pure code

/-- A character behind a backslash. -/
def escaped (esc : UInt8) : Walk Char :=
  if esc = 0x75 then do ofOption (Json.charFromU32 (← hex4))
  else ofOption (Json.shortEscape (Char.ofNat esc.toNat))

/-- A round of the loop of `string`. -/
def stringRound (out : List Char) : Walk (List Char ⊕ List Char) := do
  let byte ← ofOption (← peek)
  if byte = 0x22 then do
    advance 1
    pure (.inr out)
  else if byte = 0x5C then do
    advance 1
    let esc ← ofOption (← peek)
    advance 1
    let ch ← escaped esc
    pure (.inl (out ++ [ch]))
  else if byte.toNat ≤ 0x1F then refuse
  else do
    let rest ← slice (← position) (← length)
    let text ← ofOption (fromUtf8 rest)
    let ch ← ofOption text.head?
    advance ch.utf8Size
    pure (.inl (out ++ [ch]))

def string (spare : Nat) : Walk (List Char) := do
  advance 1
  loop spare stringRound []

/-- What `number` makes of the text it has walked over. -/
def numberValue (f : Json.F64 F) (isFloat : Bool) (text : List Char) : Option (Json.Value F) :=
  if text = [] ∨ text = ['-'] then none
  else if isFloat then (Json.parseF64 f (Json.scan text).1).map .float
  else
    match Json.parseI64 (Json.scan text).1 with
    | some n => some (.int n)
    | none => (Json.parseF64 f (Json.scan text).1).map .float

/-- The position moves over a byte that is one of some. -/
def optional (bs : Bytes) : Walk Bool := do
  match ← peek with
  | some byte => if bs.contains byte then do advance 1; pure true else pure false
  | none => pure false

/-- The digits behind a point, and whether there is one. -/
def fraction (spare : Nat) : Walk Bool := do
  let point ← optional [0x2E]
  if point then do
    skipWhile spare isDigit
    pure true
  else pure false

/-- The exponent, and whether there is one. -/
def exponent (spare : Nat) : Walk Bool := do
  let letter ← optional [0x65, 0x45]
  if letter then do
    let _ ← optional [0x2B, 0x2D]
    skipWhile spare isDigit
    pure true
  else pure false

def number (f : Json.F64 F) (spare : Nat) : Walk (Json.Value F) := do
  let start ← position
  let _ ← optional [0x2D]
  skipWhile spare isDigit
  let point ← fraction spare
  let exponent ← exponent spare
  let text ← ofOption (fromUtf8 (← slice start (← position)))
  ofOption (numberValue f (point || exponent) text)

/-! ## Values -/

/-- A round of the loop of `array`, where `value` parses an item. -/
def arrayRound (spare : Nat) (value : Walk (Json.Value F)) (items : List (Json.Value F)) :
    Walk (List (Json.Value F) ⊕ Json.Value F) := do
  skipWs spare
  let item ← value
  skipWs spare
  let byte ← ofOption (← peek)
  if byte = 0x2C then do
    advance 1
    pure (.inl (items ++ [item]))
  else if byte = 0x5D then do
    advance 1
    pure (.inr (.arr (items ++ [item])))
  else refuse

def array (spare : Nat) (value : Walk (Json.Value F)) : Walk (Json.Value F) := do
  advance 1
  skipWs spare
  if (← peek) = some 0x5D then do
    advance 1
    pure (.arr [])
  else loop spare (arrayRound spare value) []

/-- A round of the loop of `object`, where `value` parses what a key is mapped to. -/
def objectRound (spare : Nat) (value : Walk (Json.Value F)) (map : List (String × Json.Value F)) :
    Walk (List (String × Json.Value F) ⊕ Json.Value F) := do
  skipWs spare
  if (← peek) = some 0x22 then do
    let key ← string spare
    skipWs spare
    if (← peek) = some 0x3A then do
      advance 1
      skipWs spare
      let item ← value
      skipWs spare
      let byte ← ofOption (← peek)
      if byte = 0x2C then do
        advance 1
        pure (.inl (Json.insert (String.ofList key) item map))
      else if byte = 0x7D then do
        advance 1
        pure (.inr (.obj (Json.insert (String.ofList key) item map)))
      else refuse
    else refuse
  else refuse

def object (spare : Nat) (value : Walk (Json.Value F)) : Walk (Json.Value F) := do
  advance 1
  skipWs spare
  if (← peek) = some 0x7D then do
    advance 1
    pure (.obj [])
  else loop spare (objectRound spare value) []

/-- `value`, with so many nested calls at most. -/
def value (f : Json.F64 F) (spare : Nat) : Nat → Nat → Walk (Json.Value F)
  | 0, _ => spent
  | calls + 1, depth => do
      enter depth
      if depth > Json.maxDepth then refuse
      else do
        let byte ← ofOption (← peek)
        if byte = 0x7B then object spare (value f spare calls (depth + 1))
        else if byte = 0x5B then array spare (value f spare calls (depth + 1))
        else if byte = 0x22 then do
          let text ← string spare
          pure (.str (String.ofList text))
        else if byte = 0x74 then do
          lit [0x74, 0x72, 0x75, 0x65]
          pure (.bool true)
        else if byte = 0x66 then do
          lit [0x66, 0x61, 0x6C, 0x73, 0x65]
          pure (.bool false)
        else if byte = 0x6E then do
          lit [0x6E, 0x75, 0x6C, 0x6C]
          pure .null
        else if byte = 0x2D ∨ isDigit byte = true then number f spare
        else refuse

/-- `parse`: a call for every depth that is allowed and for the first that is not. -/
def document (f : Json.F64 F) (spare : Nat) : Walk (Json.Value F) := do
  skipWs spare
  let value ← value f spare (Json.maxDepth + 2 + spare) 0
  skipWs spare
  if (← position) ≠ (← length) then refuse else pure value

def parse (f : Json.F64 F) (spare : Nat) (text : String) : List Access × Ended (Json.Value F) :=
  document f spare (asBytes text.toList) 0

end Calcar.Agent.JsonBytes
