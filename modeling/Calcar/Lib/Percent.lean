import Calcar.Lib.Utf16
import Calcar.Lib.Utf8

/-!
# Percent-encoding of texts

A text is encoded byte by byte of its UTF-8: unreserved bytes stand for themselves, and any
other is a percent sign and two hex digits.  A percent sign without two digits behind it is
a malformed escape, and a text with one does not decode.

## Main results

* `decode_encode` — a text of characters is read back from its encoding.
* `encode_units` — what an encoding is made of.
* `decode_plain`, `decode_badEscape` — texts without escapes, and with a malformed one.
-/

namespace Calcar.Lib.Percent

open Utf16

/-! ## Digits -/

section Pairs

variable {α β : Type}

/-- The list begins with two hex digits. -/
def hexPair (hexVal : α → Option β) : List α → Bool
  | hi :: lo :: _ => (hexVal hi).isSome && (hexVal lo).isSome
  | _ => false

/-- Whether two hex digits come first is the same in front of what is no digit. -/
theorem hexPair_append {hexVal : α → Option β} {x : α} (hx : hexVal x = none) (a b : List α) :
    hexPair hexVal (a ++ x :: b) = hexPair hexVal a := by
  match a with
  | [] => cases b <;> simp [hexPair, hx]
  | [_] => simp [hexPair, hx]
  | _ :: _ :: _ => rfl

end Pairs

/-- The value of a hex digit. -/
def hexVal (u : UInt16) : Option Nat :=
  if 0x30 ≤ u.toNat ∧ u.toNat ≤ 0x39 then some (u.toNat - 0x30)
  else if 0x61 ≤ u.toNat ∧ u.toNat ≤ 0x66 then some (u.toNat - 0x61 + 10)
  else if 0x41 ≤ u.toNat ∧ u.toNat ≤ 0x46 then some (u.toNat - 0x41 + 10)
  else none

/-- The hex digit of a number below sixteen. -/
def hexDigit (n : Nat) : UInt16 := UInt16.ofNat (if n < 10 then 0x30 + n else 0x41 + (n - 10))

/-- Letters, digits and `-_.!~*'()`. -/
def unreserved (n : Nat) : Bool :=
  decide (0x30 ≤ n ∧ n ≤ 0x39) || decide (0x41 ≤ n ∧ n ≤ 0x5A) || decide (0x61 ≤ n ∧ n ≤ 0x7A) ||
    [0x2D, 0x5F, 0x2E, 0x21, 0x7E, 0x2A, 0x27, 0x28, 0x29].contains n

theorem hexVal_hexDigit {n : Nat} (h : n < 16) : hexVal (hexDigit n) = some n := by
  have hall : ∀ n < 16, hexVal (hexDigit n) = some n := by decide
  exact hall n h

theorem unreserved_hexDigit {n : Nat} (h : n < 16) : unreserved (hexDigit n).toNat = true := by
  have hall : ∀ n < 16, unreserved (hexDigit n).toNat = true := by decide
  exact hall n h

/-- An unreserved byte is an ASCII character and no percent sign. -/
theorem unreserved_plain {n : Nat} (h : unreserved n = true) : n < 128 ∧ n ≠ 0x25 := by
  simp [unreserved] at h
  omega

/-! ## Encoding -/

/-- What a byte is encoded to. -/
def escape (b : UInt8) : Text :=
  if unreserved b.toNat = true then [UInt16.ofNat b.toNat]
  else [0x25, hexDigit (b.toNat / 16), hexDigit (b.toNat % 16)]

/-- The character of a rune; a half of a pair is replaced. -/
def charOf (rune : Nat) : Char :=
  if rune.isValidChar then Char.ofNat rune else Char.ofNat 0xFFFD

/-- The bytes of a text. -/
def bytesOf (text : Text) : Bytes := (runes text).flatMap fun rune => String.utf8EncodeChar (charOf rune)

/-- The encoding of a text. -/
def encode (text : Text) : Text := (bytesOf text).flatMap escape

/-! ## Decoding -/

/-- The bytes that a text of ASCII characters and escapes stands for. -/
def unescape : Text → Option Bytes
  | [] => some []
  | 0x25 :: hi :: lo :: text =>
      match hexVal hi, hexVal lo with
      | some h, some l => (unescape text).map (UInt8.ofNat (16 * h + l) :: ·)
      | _, _ => none
  | u :: text =>
      if u = 0x25 ∨ 127 < u.toNat then none else (unescape text).map (UInt8.ofNat u.toNat :: ·)

attribute [grind =] unescape

/-- What a text decodes to. -/
def decode (text : Text) : Option Text :=
  ((unescape text).bind Utf8.fromUtf8).map fun cs => ofString (String.ofList cs)

/-- The text has a percent sign without two hex digits behind it. -/
def BadEscape (text : Text) : Prop :=
  ∃ front rest, text = front ++ 0x25 :: rest ∧ hexPair hexVal rest = false

theorem unescape_escape {hi lo : UInt16} {h l : Nat} (hhi : hexVal hi = some h)
    (hlo : hexVal lo = some l) (text : Text) :
    unescape (0x25 :: hi :: lo :: text) = (unescape text).map (UInt8.ofNat (16 * h + l) :: ·) := by
  simp [unescape, hhi, hlo]

theorem unescape_plain {u : UInt16} (hu : u ≠ 0x25) (hlow : u.toNat ≤ 127) (text : Text) :
    unescape (u :: text) = (unescape text).map (UInt8.ofNat u.toNat :: ·) := by
  rw [unescape, if_neg (by simp [hu]; omega)]
  exact fun _ _ _ h => absurd h hu

theorem unescape_bad {rest : Text} (h : hexPair hexVal rest = false) :
    unescape (0x25 :: rest) = none := by
  match rest, h with
  | [], _ => simp [unescape]
  | [_], _ => simp [unescape]
  | hi :: lo :: more, h =>
      rw [unescape]
      cases hhi : hexVal hi with
      | none => rfl
      | some hv =>
          cases hlo : hexVal lo with
          | none => rfl
          | some lv => simp [hexPair, hhi, hlo] at h

theorem unescape_high {u : UInt16} (h : 127 < u.toNat) (text : Text) :
    unescape (u :: text) = none := by
  rw [unescape, if_pos (.inr h)]
  intro _ _ _ hu
  subst hu
  exact absurd h (by decide)

/-- **A malformed escape** makes nothing of the text. -/
theorem unescape_badEscape {rest : Text} (h : hexPair hexVal rest = false) :
    ∀ front : Text, unescape (front ++ 0x25 :: rest) = none
  | [] => unescape_bad h
  | u :: front => by
      have ih := unescape_badEscape h front
      by_cases hu : u = 0x25
      · subst hu
        cases hpair : hexPair hexVal front with
        | false =>
            have hfar := hexPair_append (show hexVal 0x25 = none by decide) front rest
            exact unescape_bad (hfar.trans hpair)
        | true =>
            match front, hpair with
            | hi :: lo :: front, hpair =>
                simp only [hexPair, Bool.and_eq_true, Option.isSome_iff_exists] at hpair
                rcases hpair with ⟨⟨hv, hhi⟩, lv, hlo⟩
                have hmore := unescape_badEscape h front
                simp only [List.cons_append]
                rw [unescape_escape hhi hlo, hmore, Option.map_none]
      · by_cases hlow : u.toNat ≤ 127
        · rw [List.cons_append, unescape_plain hu hlow, ih, Option.map_none]
        · exact unescape_high (by omega) _

theorem decode_badEscape {text : Text} (h : BadEscape text) : decode text = none := by
  rcases h with ⟨front, rest, rfl, hpair⟩
  rw [decode, unescape_badEscape hpair]
  rfl

/-! ## Reading back -/

theorem unescape_append_escape (b : UInt8) (text : Text) :
    unescape (escape b ++ text) = (unescape text).map (b :: ·) := by
  have hb : b.toNat < 256 := b.toNat_lt
  unfold escape
  by_cases hplain : unreserved b.toNat = true
  · have hlow := unreserved_plain hplain
    have hunit : (UInt16.ofNat b.toNat).toNat = b.toNat := by
      rw [UInt16.toNat_ofNat', Nat.mod_eq_of_lt (by omega)]
    rw [if_pos hplain, List.singleton_append, unescape_plain, hunit, UInt8.ofNat_toNat]
    · intro heq
      have htoNat := congrArg UInt16.toNat heq
      rw [hunit] at htoNat
      exact hlow.2 htoNat
    · omega
  · have hvalue : 16 * (b.toNat / 16) + b.toNat % 16 = b.toNat := by omega
    rw [if_neg hplain]
    simp only [List.cons_append, List.nil_append]
    rw [unescape_escape (hexVal_hexDigit (by omega)) (hexVal_hexDigit (by omega)), hvalue,
      UInt8.ofNat_toNat]

theorem unescape_encoded (bs : Bytes) : unescape (bs.flatMap escape) = some bs := by
  induction bs with
  | nil => rfl
  | cons b bs ih => rw [List.flatMap_cons, unescape_append_escape, ih, Option.map_some]

theorem charOf_toNat (c : Char) : charOf c.toNat = c := by
  have hvalid : c.toNat.isValidChar := c.valid
  rw [charOf, if_pos hvalid, Char.ofNat_toNat]

theorem bytesOf_ofString (s : String) : bytesOf (ofString s) = Utf8.asBytes s.toList := by
  rw [bytesOf, runes_ofString, List.flatMap_map, Utf8.asBytes]
  simp only [charOf_toNat]

/-- **A text is read back** from its encoding. -/
theorem decode_encode {text : Text} (h : WellFormed text) : decode (encode text) = some text := by
  rcases h with ⟨s, rfl⟩
  rw [decode, encode, unescape_encoded, Option.bind_some, bytesOf_ofString, Utf8.fromUtf8_asBytes,
    Option.map_some, String.ofList_toList]

/-- An encoding is made of percent signs and unreserved characters. -/
theorem encode_units (text : Text) :
    ∀ u ∈ encode text, u = 0x25 ∨ unreserved u.toNat = true := by
  intro u hu
  rcases List.mem_flatMap.mp hu with ⟨b, -, hb⟩
  have hbyte : b.toNat < 256 := b.toNat_lt
  unfold escape at hb
  by_cases hplain : unreserved b.toNat = true
  · rw [if_pos hplain, List.mem_singleton] at hb
    rw [hb, UInt16.toNat_ofNat', Nat.mod_eq_of_lt (by omega)]
    exact .inr hplain
  · rw [if_neg hplain] at hb
    simp only [List.mem_cons, List.not_mem_nil, or_false] at hb
    rcases hb with rfl | rfl | rfl
    · exact .inl rfl
    · exact .inr (unreserved_hexDigit (by omega))
    · exact .inr (unreserved_hexDigit (by omega))

/-- The characters of ASCII units. -/
def chars (text : Text) : List Char := text.map fun u => Char.ofNat u.toNat

/-- ASCII units are the units of their characters. -/
theorem ofString_chars {text : Text} (h : ∀ u ∈ text, u.toNat ≤ 127) :
    ofString (String.ofList (chars text)) = text := by
  rw [ofString, String.toList_ofList]
  induction text with
  | nil => rfl
  | cons u text ih =>
      have hu := h u List.mem_cons_self
      have hunit : fromCharCode u.toNat = [u] := by
        rw [fromCharCode, if_neg (by omega), UInt16.ofNat_toNat]
      rw [chars, List.map_cons, List.flatMap_cons, Utf8.toNat_ofNat_ascii (by omega), hunit]
      exact congrArg (u :: ·) (ih fun v hv => h v (List.mem_cons_of_mem _ hv))

theorem unescape_ascii {text : Text} (h : ∀ u ∈ text, u.toNat ≤ 127 ∧ u ≠ 0x25) :
    unescape text = some (Utf8.asBytes (chars text)) := by
  induction text with
  | nil => rfl
  | cons u text ih =>
      have hu := h u List.mem_cons_self
      have hchar := Utf8.toNat_ofNat_ascii (n := u.toNat) (by omega)
      have hhead : chars (u :: text) = Char.ofNat u.toNat :: chars text := rfl
      rw [unescape_plain hu.2 hu.1, ih fun v hv => h v (List.mem_cons_of_mem _ hv), hhead,
        Utf8.asBytes_cons, Utf8.utf8_ascii (by omega), hchar]
      rfl

/-- **A text without escapes** stands for itself. -/
theorem decode_plain {text : Text} (h : ∀ u ∈ text, u.toNat ≤ 127 ∧ u ≠ 0x25) :
    decode text = some text := by
  rw [decode, unescape_ascii h, Option.bind_some, Utf8.fromUtf8_asBytes, Option.map_some,
    ofString_chars fun u hu => (h u hu).1]

end Calcar.Lib.Percent
