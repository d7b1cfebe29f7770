/-!
# The text helpers the backend takes from Go's standard library

Only what the modelled functions use: `strings.TrimSpace`, `strings.ToUpper`
on hex digits, `encoding/hex`, and the three `encoding/base64` decoders that
`decodePubKey` tries in turn.  Everything recurses on lists, so a request can
be evaluated.
-/

namespace Calcar

/-- Raw bytes: keys, signatures, hashes. -/
abbrev Bytes : Type := List UInt8

namespace Text

/-- `unicode.IsSpace`. -/
def isSpace (c : Char) : Bool :=
  let n := c.toNat
  (9 ≤ n && n ≤ 13) || n == 0x20 || n == 0x85 || n == 0xA0 || n == 0x1680 ||
    (0x2000 ≤ n && n ≤ 0x200A) || n == 0x2028 || n == 0x2029 || n == 0x202F ||
    n == 0x205F || n == 0x3000

/-- `strings.TrimSpace`. -/
def trimSpace (s : String) : String :=
  String.ofList
    (((s.toList.dropWhile isSpace).reverse.dropWhile isSpace).reverse)

theorem mem_dropWhile {l : List Char} {c : Char} (hc : c ∈ l) (hspace : isSpace c = false) :
    c ∈ l.dropWhile isSpace := by
  induction l with
  | nil => cases hc
  | cons x xs ih =>
      by_cases hx : isSpace x = true
      · rw [List.dropWhile_cons_of_pos hx]
        obtain rfl | hin := List.mem_cons.mp hc
        · rw [hspace] at hx
          cases hx
        · exact ih hin
      · rw [List.dropWhile_cons_of_neg hx]
        exact hc

/-- Text with a character that is no space does not trim to nothing. -/
theorem trimSpace_ne_empty {s : String} {c : Char} (hc : c ∈ s.toList)
    (hspace : isSpace c = false) : trimSpace s ≠ "" := by
  intro he
  have hlist := congrArg String.toList he
  unfold trimSpace at hlist
  rw [String.toList_ofList] at hlist
  have hfirst : c ∈ s.toList.dropWhile isSpace := mem_dropWhile hc hspace
  have hlast := mem_dropWhile (List.mem_reverse.mpr hfirst) hspace
  rw [← List.mem_reverse, hlist] at hlast
  cases hlast

/-- Text without spaces is not trimmed. -/
theorem trimSpace_self {s : String} (h : ∀ c ∈ s.toList, isSpace c = false) : trimSpace s = s := by
  have hdrop : ∀ l : List Char, (∀ c ∈ l, isSpace c = false) → l.dropWhile isSpace = l := by
    intro l hl
    cases l with
    | nil => rfl
    | cons x xs => exact List.dropWhile_cons_of_neg (by rw [hl x List.mem_cons_self]; decide)
  have hback : ∀ c ∈ s.toList.reverse, isSpace c = false := fun c hc => h c (List.mem_reverse.mp hc)
  unfold trimSpace
  rw [hdrop _ h, hdrop _ hback, List.reverse_reverse, String.ofList_toList]

/-- The lower-case hex digit of a number below 16. -/
def hexDigit (n : Nat) : Char :=
  if n < 10 then Char.ofNat (48 + n) else Char.ofNat (87 + n)

/-- `hex.EncodeToString`. -/
def hexEncode (b : Bytes) : String :=
  String.ofList (b.flatMap fun x => [hexDigit (x.toNat / 16), hexDigit (x.toNat % 16)])

/-- `strings.ToUpper` on ASCII letters, which is all it meets here. -/
def toUpper (s : String) : String :=
  String.ofList (s.toList.map fun c =>
    if 97 ≤ c.toNat && c.toNat ≤ 122 then Char.ofNat (c.toNat - 32) else c)

/-- `strings.EqualFold(s, "bearer")`: the letters have no other case
variants than their ASCII ones. -/
def isBearer (s : List Char) : Bool :=
  toUpper (String.ofList s) == "BEARER"

/-! ## Base64 -/

/-- The value of a base64 digit; `url` selects the URL alphabet. -/
def base64Value (url : Bool) (c : Char) : Option Nat :=
  let n := c.toNat
  if 65 ≤ n && n ≤ 90 then some (n - 65)
  else if 97 ≤ n && n ≤ 122 then some (n - 71)
  else if 48 ≤ n && n ≤ 57 then some (n + 4)
  else if c == (if url then '-' else '+') then some 62
  else if c == (if url then '_' else '/') then some 63
  else none

/-- Decode groups of four digits; the last group may be short. -/
def base64Groups : List Nat → Option Bytes
  | [] => some []
  | [_] => none
  | [a, b] => some [UInt8.ofNat (a * 4 + b / 16)]
  | [a, b, c] =>
      some [UInt8.ofNat (a * 4 + b / 16), UInt8.ofNat (b % 16 * 16 + c / 4)]
  | a :: b :: c :: d :: rest =>
      (base64Groups rest).map fun out =>
        UInt8.ofNat (a * 4 + b / 16) :: UInt8.ofNat (b % 16 * 16 + c / 4) ::
          UInt8.ofNat (c % 4 * 64 + d) :: out

/-- Split off the padding: at most two `=`, at the end only. -/
def base64Padding (s : List Char) : List Char × Nat :=
  let rest := (s.reverse.dropWhile (· == '=')).reverse
  (rest, s.length - rest.length)

/-- `DecodeString` of `StdEncoding`, `URLEncoding` (`pad`) and
`RawURLEncoding` (not `pad`).  Line breaks are skipped; with padding the
length is a multiple of four, without it no `=` may occur. -/
def base64Decode (url pad : Bool) (s : String) : Option Bytes :=
  let cs := s.toList.filter fun c => c != '\n' && c != '\r'
  if pad then
    let (body, n) := base64Padding cs
    if cs.length % 4 == 0 && n ≤ 2 && body.length % 4 == (4 - n) % 4 then
      (body.mapM (base64Value url)).bind base64Groups
    else none
  else (cs.mapM (base64Value url)).bind base64Groups

/-- The digits `EncodeToString` writes. -/
def base64Digit (url : Bool) (n : Nat) : Char :=
  if n < 26 then Char.ofNat (65 + n)
  else if n < 52 then Char.ofNat (71 + n)
  else if n < 62 then Char.ofNat (n - 4)
  else if n = 62 then (if url then '-' else '+')
  else (if url then '_' else '/')

/-- `StdEncoding.EncodeToString`. -/
def base64Encode : Bytes → List Char
  | [] => []
  | [a] => [base64Digit false (a.toNat / 4), base64Digit false (a.toNat % 4 * 16), '=', '=']
  | [a, b] =>
      [base64Digit false (a.toNat / 4),
        base64Digit false (a.toNat % 4 * 16 + b.toNat / 16),
        base64Digit false (b.toNat % 16 * 4), '=']
  | a :: b :: c :: rest =>
      base64Digit false (a.toNat / 4) ::
        base64Digit false (a.toNat % 4 * 16 + b.toNat / 16) ::
        base64Digit false (b.toNat % 16 * 4 + c.toNat / 64) ::
        base64Digit false (c.toNat % 64) :: base64Encode rest

example : base64Decode false true (String.ofList (base64Encode [1, 2, 3, 250])) =
    some [1, 2, 3, 250] := by decide

end Text

end Calcar
