import Calcar.Lib.JsonText

/-!
# The agent's JSON

`json.rs`.  The parser walks the characters still to be read; the source walks
bytes, and a byte outside ASCII is one only inside a string.  `f64` and its
conversions are a parameter.
-/

namespace Calcar.Agent.Json

open Calcar.Lib.Json (Numeral Exponent hexDigit)

/-- `i64`. -/
structure I64 where
  val : Int
  low : -9223372036854775808 ≤ val
  high : val ≤ 9223372036854775807
  deriving DecidableEq

def I64.ofInt (n : Int) : Option I64 :=
  if h : -9223372036854775808 ≤ n ∧ n ≤ 9223372036854775807 then some ⟨n, h.1, h.2⟩ else none

/-- `f64` as far as the code uses it: `{f:?}`, and the value of a number text that
`parse` accepts. -/
structure F64 (F : Type) where
  isFinite : F → Bool
  debug : F → List Char
  read : Numeral → F

/-- `Value`.  A `BTreeMap` is its entries in the order of the keys. -/
inductive Value (F : Type)
  | null
  | bool (b : Bool)
  | int (n : I64)
  | float (f : F)
  | str (text : String)
  | arr (items : List (Value F))
  | obj (map : List (String × Value F))

/-- `BTreeMap::insert`. -/
def insert {V : Type} (key : String) (v : V) : List (String × V) → List (String × V)
  | [] => [(key, v)]
  | (k, w) :: rest =>
      if key < k then (key, v) :: (k, w) :: rest
      else if key = k then (key, v) :: rest
      else (k, w) :: insert key v rest

variable {F : Type}

/-! ## Rendering -/

def lowerHex (n : Nat) : Char :=
  if n < 10 then Char.ofNat ('0'.toNat + n) else Char.ofNat ('a'.toNat + (n - 10))

/-- `{:04x}` of a number below `0x10000`. -/
def hex04 (n : Nat) : List Char :=
  [lowerHex (n / 4096 % 16), lowerHex (n / 256 % 16), lowerHex (n / 16 % 16), lowerHex (n % 16)]

/-- `i64::to_string`. -/
def intText (n : Int) : List Char :=
  (if n < 0 then ['-'] else []) ++ Nat.toDigits 10 n.natAbs

def writeChar (ch : Char) : List Char :=
  if ch = '"' then ['\\', '"']
  else if ch = '\\' then ['\\', '\\']
  else if ch = '\n' then ['\\', 'n']
  else if ch = '\r' then ['\\', 'r']
  else if ch = '\t' then ['\\', 't']
  else if ch.toNat < 0x20 then '\\' :: 'u' :: hex04 ch.toNat
  else [ch]

/-- `write_string`. -/
def writeString (text : String) : List Char :=
  '"' :: (text.toList.flatMap writeChar ++ ['"'])

mutual

/-- `write_value`. -/
def writeValue (f : F64 F) : Value F → List Char
  | .null => "null".toList
  | .bool true => "true".toList
  | .bool false => "false".toList
  | .int n => intText n.val
  | .float x => if f.isFinite x then f.debug x else "null".toList
  | .str text => writeString text
  | .arr items => '[' :: (writeItems f 0 items ++ [']'])
  | .obj map => '{' :: (writeMembers f 0 map ++ ['}'])

/-- The loop over the items of an array, from the item at `index`. -/
def writeItems (f : F64 F) (index : Nat) : List (Value F) → List Char
  | [] => []
  | item :: items =>
      (if index > 0 then [','] else []) ++ (writeValue f item ++ writeItems f (index + 1) items)

def writeMembers (f : F64 F) (index : Nat) : List (String × Value F) → List Char
  | [] => []
  | (key, item) :: map =>
      (if index > 0 then [','] else []) ++
        (writeString key ++ ':' :: (writeValue f item ++ writeMembers f (index + 1) map))

end

def render (f : F64 F) (value : Value F) : String :=
  String.ofList (writeValue f value)

/-! ## Parsing -/

/-- `u8::is_ascii_whitespace`. -/
def isAsciiWhitespace (c : Char) : Bool :=
  c == ' ' || c == '\t' || c == '\n' || c == '\x0c' || c == '\r'

/-- `skip_ws`. -/
def skipWs (s : List Char) : List Char :=
  s.dropWhile isAsciiWhitespace

def lit (word : List Char) (s : List Char) : Option (List Char) :=
  if s.take word.length = word then some (s.drop word.length) else none

/-- `char::from_u32`: no surrogates. -/
def charFromU32 (code : Nat) : Option Char :=
  if h : code.isValidChar then some (Char.ofNatAux code h) else none

/-- The digits of `u32::from_str_radix(digits, 16)`. -/
def hexDigits (n : Nat) : List Char → Option Nat
  | [] => some n
  | c :: rest => do
      let d ← hexDigit c
      hexDigits (16 * n + d) rest

/-- `hex4`.  `from_str_radix` takes a leading `+`. -/
def hex4 (a b c d : Char) : Option Nat :=
  if a = '+' then hexDigits 0 [b, c, d] else hexDigits 0 [a, b, c, d]

/-- The escapes of one character. -/
def shortEscape (esc : Char) : Option Char :=
  if esc = '"' then some '"'
  else if esc = '\\' then some '\\'
  else if esc = '/' then some '/'
  else if esc = 'b' then some '\x08'
  else if esc = 'f' then some '\x0c'
  else if esc = 'n' then some '\n'
  else if esc = 'r' then some '\r'
  else if esc = 't' then some '\t'
  else none

def push (ch : Char) (out : List Char × List Char) : List Char × List Char :=
  (ch :: out.1, out.2)

/-- `string`, after the opening quote: what it holds and what is left. -/
def string : List Char → Option (List Char × List Char)
  | [] => none
  | byte :: rest =>
      if byte = '"' then some ([], rest)
      else if byte = '\\' then
        match rest with
        | [] => none
        | esc :: rest =>
            if esc = 'u' then
              match rest with
              | a :: b :: c :: d :: rest =>
                  ((hex4 a b c d).bind charFromU32).bind fun ch => (string rest).map (push ch)
              | _ => none
            else (shortEscape esc).bind fun ch => (string rest).map (push ch)
      else if byte.toNat < 0x20 then none
      else (string rest).map (push byte)

def digits (s : List Char) : List Char × List Char :=
  (s.takeWhile Char.isDigit, s.dropWhile Char.isDigit)

def scanFrac : List Char → Option (List Char) × List Char
  | [] => (none, [])
  | c :: s => if c = '.' then ((digits s).1, (digits s).2) else (none, c :: s)

def scanSign : List Char → Option Char × List Char
  | [] => (none, [])
  | c :: s => if c = '+' ∨ c = '-' then (some c, s) else (none, c :: s)

def scanExp : List Char → Option Exponent × List Char
  | [] => (none, [])
  | c :: s =>
      if c = 'e' ∨ c = 'E' then
        (some ⟨c, (scanSign s).1, (digits (scanSign s).2).1⟩, (digits (scanSign s).2).2)
      else (none, c :: s)

/-- What `number` walks over from `start`, after a minus. -/
def scanRest (minus : Bool) (s : List Char) : Numeral × List Char :=
  let frac := scanFrac (digits s).2
  let exp := scanExp frac.2
  (⟨minus, (digits s).1, frac.1, exp.1⟩, exp.2)

def scan : List Char → Numeral × List Char
  | [] => scanRest false []
  | c :: s => if c = '-' then scanRest true s else scanRest false (c :: s)

/-- The texts that `parse::<f64>` takes: a digit before or after the point, and one
in the exponent. -/
def isF64 (n : Numeral) : Bool :=
  (!n.int.isEmpty || n.frac.any fun ds => !ds.isEmpty) && n.exp.all fun e => !e.digits.isEmpty

/-- `parse::<i64>` of a text without point and exponent. -/
def parseI64 (n : Numeral) : Option I64 :=
  if n.int.isEmpty then none
  else I64.ofInt (if n.minus then -(Nat.ofDigitChars 10 n.int 0) else Nat.ofDigitChars 10 n.int 0)

def parseF64 (f : F64 F) (n : Numeral) : Option F :=
  if isF64 n then some (f.read n) else none

/-- The value that `number` gives to the text it has walked over. -/
def numberValue (f : F64 F) (n : Numeral) : Option (Value F) :=
  if n.frac.isSome || n.exp.isSome then (parseF64 f n).map .float
  else if n.int.isEmpty then none
  else
    match parseI64 n with
    | some i => some (.int i)
    | none => (parseF64 f n).map .float

def number (f : F64 F) (s : List Char) : Option (Value F × List Char) :=
  (numberValue f (scan s).1).map fun v => (v, (scan s).2)

/-- The loop of `array`.  A round takes a character at least, so `n`, which counts the
characters left, is 0 only at the end of the text. -/
def items (value : List Char → Option (Value F × List Char)) :
    Nat → List Char → Option (List (Value F) × List Char)
  | 0, _ => none
  | n + 1, s => do
      let (item, s) ← value (skipWs s)
      match skipWs s with
      | [] => none
      | c :: s =>
          if c = ',' then (items value n s).map fun out => (item :: out.1, out.2)
          else if c = ']' then some ([item], s)
          else none

/-- `array`, after the bracket. -/
def array (value : List Char → Option (Value F × List Char)) (s : List Char) :
    Option (Value F × List Char) :=
  match skipWs s with
  | [] => none
  | c :: rest =>
      if c = ']' then some (.arr [], rest)
      else (items value (rest.length + 1) (c :: rest)).map fun out => (.arr out.1, out.2)

/-- A key, its colon and the value of a member. -/
def member (value : List Char → Option (Value F × List Char)) :
    List Char → Option ((String × Value F) × List Char)
  | [] => none
  | c :: s =>
      if c = '"' then do
        let (key, s) ← string s
        match skipWs s with
        | [] => none
        | c :: s =>
            if c = ':' then (value (skipWs s)).map fun out => ((String.ofList key, out.1), out.2)
            else none
      else none

/-- The loop of `object`. -/
def members (value : List Char → Option (Value F × List Char)) :
    Nat → List (String × Value F) → List Char → Option (List (String × Value F) × List Char)
  | 0, _, _ => none
  | n + 1, map, s => do
      let (entry, s) ← member value (skipWs s)
      match skipWs s with
      | [] => none
      | c :: s =>
          if c = ',' then members value n (insert entry.1 entry.2 map) s
          else if c = '}' then some (insert entry.1 entry.2 map, s)
          else none

/-- `object`, after the brace. -/
def object (value : List Char → Option (Value F × List Char)) (s : List Char) :
    Option (Value F × List Char) :=
  match skipWs s with
  | [] => none
  | c :: rest =>
      if c = '}' then some (.obj [], rest)
      else (members value (rest.length + 1) [] (c :: rest)).map fun out => (.obj out.1, out.2)

def maxDepth : Nat := 64

/-- `value`.  `room` is how many more levels may be entered, `MAX_DEPTH + 1 - depth`. -/
def value (f : F64 F) : Nat → List Char → Option (Value F × List Char)
  | 0, _ => none
  | _ + 1, [] => none
  | room + 1, c :: s =>
      if c = '{' then object (value f room) s
      else if c = '[' then array (value f room) s
      else if c = '"' then (string s).map fun out => (.str (String.ofList out.1), out.2)
      else if c = 't' then (lit "true".toList (c :: s)).map fun rest => (.bool true, rest)
      else if c = 'f' then (lit "false".toList (c :: s)).map fun rest => (.bool false, rest)
      else if c = 'n' then (lit "null".toList (c :: s)).map fun rest => (.null, rest)
      else if c = '-' ∨ c.isDigit = true then number f (c :: s)
      else none

/-- `parse`; `none` is `Malformed`. -/
def parse (f : F64 F) (text : String) : Option (Value F) :=
  match value f (maxDepth + 1) (skipWs text.toList) with
  | none => none
  | some (v, rest) => if skipWs rest = [] then some v else none

end Calcar.Agent.Json
