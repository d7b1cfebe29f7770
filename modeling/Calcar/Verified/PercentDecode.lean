import Calcar.Agent.Routing
import Calcar.Lib.Percent
import Calcar.Verified.LossyText

/-!
# Percent decoding

An encoding of a text escapes every percent sign and whatever other bytes it likes.  The
decoder reads escape by escape and passes everything else on, a percent sign without two
hex digits behind it among them; no digit is a percent sign, so what stands in front of
such a sign does not reach behind it.

## Main results

* `decodeEscapes_encodes` — any encoding is read back.
* `decodeEscapes_malformed` — a malformed escape stays, wherever it stands.
* `percentWalk_safe` — the loop over positions ends, in range, with the same bytes.
* `percent_decode_law` — the three together, on texts.
-/

namespace Calcar.Agent

open Lib Lib.Walk
open Lib.Percent (hexPair hexPair_append)

/-! ## Escapes -/

attribute [grind =] decodeEscapes

theorem decodeEscapes_other {b : UInt8} (hb : b ≠ 0x25) (rest : Bytes) :
    decodeEscapes (b :: rest) = b :: decodeEscapes rest := by
  rw [decodeEscapes]
  exact fun _ _ _ h => absurd h hb

theorem decodeEscapes_hex {hi lo h l : UInt8} (hhi : hexVal hi = some h)
    (hlo : hexVal lo = some l) (rest : Bytes) :
    decodeEscapes (0x25 :: hi :: lo :: rest) = (h <<< 4 ||| l) :: decodeEscapes rest := by
  simp [decodeEscapes, hhi, hlo]

theorem decodeEscapes_plain {rest : Bytes} (h : hexPair hexVal rest = false) :
    decodeEscapes (0x25 :: rest) = 0x25 :: decodeEscapes rest := by
  match rest, h with
  | [], _ => rfl
  | [_], _ => rw [decodeEscapes]; simp
  | hi :: lo :: more, h =>
      rw [decodeEscapes]
      cases hhi : hexVal hi with
      | none => rfl
      | some hv =>
          cases hlo : hexVal lo with
          | none => rfl
          | some lv => simp [hexPair, hhi, hlo] at h

/-- **A malformed escape stays**, and is decoded apart from what is around it. -/
theorem decodeEscapes_malformed {b : Bytes} (hb : hexPair hexVal b = false) (n : Nat) :
    ∀ a : Bytes, a.length ≤ n →
      decodeEscapes (a ++ 0x25 :: b) = decodeEscapes a ++ 0x25 :: decodeEscapes b := by
  induction n with
  | zero =>
      intro a ha
      rw [List.length_eq_zero_iff.mp (Nat.le_zero.mp ha), List.nil_append, decodeEscapes_plain hb]
      rfl
  | succ n ih =>
      intro a ha
      match a, ha with
      | [], _ =>
          rw [List.nil_append, decodeEscapes_plain hb]
          rfl
      | x :: a, ha =>
          rw [List.length_cons] at ha
          by_cases hx : x = 0x25
          · subst hx
            cases hpair : hexPair hexVal a with
            | false =>
                have hfar : hexPair hexVal (a ++ 0x25 :: b) = false := by
                  rw [hexPair_append (by decide), hpair]
                rw [List.cons_append, decodeEscapes_plain hfar, decodeEscapes_plain hpair,
                  ih a (by omega), List.cons_append]
            | true =>
                match a, hpair with
                | hi :: lo :: more, hpair =>
                    simp only [hexPair, Bool.and_eq_true, Option.isSome_iff_exists] at hpair
                    obtain ⟨⟨h, hhi⟩, l, hlo⟩ := hpair
                    simp only [List.length_cons] at ha
                    simp only [List.cons_append]
                    rw [decodeEscapes_hex hhi hlo, decodeEscapes_hex hhi hlo, ih more (by omega),
                      List.cons_append]
          · rw [List.cons_append, decodeEscapes_other hx, decodeEscapes_other hx, ih a (by omega),
              List.cons_append]

/-! ## Encodings -/

/-- The byte is the hex digit of a number below sixteen, in either case. -/
def DigitOf (n : Nat) (c : UInt8) : Prop :=
  (n < 10 ∧ c = UInt8.ofNat (0x30 + n)) ∨
    (10 ≤ n ∧ n < 16 ∧ (c = UInt8.ofNat (0x61 + (n - 10)) ∨ c = UInt8.ofNat (0x41 + (n - 10))))

/-- `es` is a percent-encoding of `bs`: each percent sign is escaped, and any bytes beside. -/
inductive Encodes : Bytes → Bytes → Prop where
  | nil : Encodes [] []
  | plain {b : UInt8} {bs es : Bytes} (hb : b ≠ 0x25) (h : Encodes bs es) :
      Encodes (b :: bs) (b :: es)
  | escape {b hi lo : UInt8} {bs es : Bytes} (hhi : DigitOf (b.toNat / 16) hi)
      (hlo : DigitOf (b.toNat % 16) lo) (h : Encodes bs es) :
      Encodes (b :: bs) (0x25 :: hi :: lo :: es)

theorem hexVal_digit {n : Nat} {c : UInt8} (h : DigitOf n c) : hexVal c = some (UInt8.ofNat n) := by
  have hdec : ∀ n < 10, hexVal (UInt8.ofNat (0x30 + n)) = some (UInt8.ofNat n) := by decide
  have hlow : ∀ n < 6, hexVal (UInt8.ofNat (0x61 + n)) = some (UInt8.ofNat (n + 10)) := by
    decide
  have hup : ∀ n < 6, hexVal (UInt8.ofNat (0x41 + n)) = some (UInt8.ofNat (n + 10)) := by
    decide
  rcases h with ⟨hn, rfl⟩ | ⟨hge, hlt, rfl | rfl⟩
  · exact hdec n hn
  · rw [hlow (n - 10) (by omega), Nat.sub_add_cancel hge]
  · rw [hup (n - 10) (by omega), Nat.sub_add_cancel hge]

/-- The two halves of a byte. -/
theorem nibbles (b : UInt8) :
    (UInt8.ofNat (b.toNat / 16) <<< 4 ||| UInt8.ofNat (b.toNat % 16)) = b := by
  have hall : ∀ hi < 16, ∀ lo < 16,
      (UInt8.ofNat hi <<< 4 ||| UInt8.ofNat lo) = UInt8.ofNat (16 * hi + lo) := by
    decide
  have hhi : b.toNat / 16 < 16 := by
    have := b.toNat_lt
    omega
  have h := hall (b.toNat / 16) hhi (b.toNat % 16) (Nat.mod_lt _ (by decide))
  rwa [Nat.div_add_mod, UInt8.ofNat_toNat] at h

/-- **Any encoding is read back.** -/
theorem decodeEscapes_encodes {bs es : Bytes} (h : Encodes bs es) : decodeEscapes es = bs := by
  induction h with
  | nil => rfl
  | plain hb _ ih => rw [decodeEscapes_other hb, ih]
  | escape hhi hlo _ ih =>
      rw [decodeEscapes_hex (hexVal_digit hhi) (hexVal_digit hlo), nibbles, ih]

/-! ## The loop over positions -/

/-- What has been put out, and what is still to be read. -/
def DecodedTo (bytes out : Bytes) (pos : Nat) : Prop :=
  pos ≤ bytes.length ∧ out ++ decodeEscapes (bytes.drop pos) = decodeEscapes bytes

/-- An index in range. -/
def InRange (bytes : Bytes) : Access → Prop
  | .index pos => pos < bytes.length
  | .slice _ start stop => start ≤ stop ∧ stop ≤ bytes.length
  | .enter _ => True

section Rounds

variable {bytes out : Bytes} {pos : Nat}

/-- The bytes behind a position, read by `get`. -/
theorem get_pair (bytes : Bytes) (pos : Nat) :
    (if pos + 1 ≤ pos + 3 ∧ pos + 3 ≤ bytes.length
      then some ((bytes.drop (pos + 1)).take (pos + 3 - (pos + 1))) else none) =
      match bytes.drop (pos + 1) with
      | hi :: lo :: _ => some [hi, lo]
      | _ => none := by
  have hlength : (bytes.drop (pos + 1)).length = bytes.length - (pos + 1) := List.length_drop
  have htwo : pos + 3 - (pos + 1) = 2 := by omega
  rw [htwo]
  match hrest : bytes.drop (pos + 1) with
  | [] =>
      rw [hrest, List.length_nil] at hlength
      rw [if_neg (by omega)]
  | [x] =>
      rw [hrest, List.length_singleton] at hlength
      rw [if_neg (by omega)]
  | hi :: lo :: more =>
      rw [hrest, List.length_cons, List.length_cons] at hlength
      rw [if_pos (by omega)]
      rfl

/-- A byte that is passed on. -/
theorem plain_round {b : UInt8} (hlt : pos < bytes.length)
    (hb : decodeEscapes (bytes.drop pos) = b :: decodeEscapes (bytes.drop (pos + 1)))
    (h : DecodedTo bytes out pos) :
    Meets (InRange bytes) bytes pos
      (do Walk.advance 1; pure (.inl (out ++ [b])) : Walk (Bytes ⊕ Bytes))
      (Round (DecodedTo bytes) (fun out _ => out = decodeEscapes bytes) pos) := by
  refine Meets.bind (meets_advance (meets_pure ⟨⟨by omega, ?_⟩, by omega⟩))
  rw [List.append_assoc, List.singleton_append, ← hb, h.2]

/-- **One round** goes on behind a byte or an escape, or has reached the end. -/
theorem percentRound_meets (h : DecodedTo bytes out pos) :
    Meets (InRange bytes) bytes pos (percentRound out)
      (Round (DecodedTo bytes) (fun out _ => out = decodeEscapes bytes) pos) := by
  unfold percentRound
  refine Meets.bind (meets_position (Meets.bind (meets_length ?_)))
  by_cases hlt : pos < bytes.length
  · rw [if_pos hlt]
    have hdrop : bytes.drop pos = bytes[pos] :: bytes.drop (pos + 1) :=
      List.drop_eq_getElem_cons hlt
    refine Meets.bind (meets_get ?_)
    rw [get_pair]
    refine Meets.bind (meets_index hlt (List.getElem?_eq_getElem hlt) ?_)
    by_cases hbyte : bytes[pos] = 0x25
    · rw [if_pos hbyte]
      rw [hbyte] at hdrop
      have hplain (hpair : hexPair hexVal (bytes.drop (pos + 1)) = false) :
          decodeEscapes (bytes.drop pos) = bytes[pos] :: decodeEscapes (bytes.drop (pos + 1)) := by
        rw [hdrop, decodeEscapes_plain hpair, hbyte]
      match hrest : bytes.drop (pos + 1) with
      | [] => exact plain_round hlt (hplain (by rw [hrest]; rfl)) h
      | [x] => exact plain_round hlt (hplain (by rw [hrest]; rfl)) h
      | hi :: lo :: more =>
          simp only
          split
          next hv lv hhi hlo =>
            have hlength : (bytes.drop (pos + 1)).length = bytes.length - (pos + 1) :=
              List.length_drop
            have hmore : bytes.drop (pos + 3) = more := by
              rw [show pos + 3 = pos + 1 + 2 from rfl, ← List.drop_drop, hrest]
              rfl
            rw [hrest, List.length_cons, List.length_cons] at hlength
            refine Meets.bind (meets_advance (meets_pure ⟨⟨by omega, ?_⟩, by omega⟩))
            rw [hmore, List.append_assoc, List.singleton_append,
              ← decodeEscapes_hex hhi hlo more, ← hrest, ← hdrop, h.2]
          next hnone =>
            refine plain_round hlt (hplain ?_) h
            rw [hrest]
            cases hhi : hexVal hi with
            | none => simp [hexPair, hhi]
            | some hv =>
                cases hlo : hexVal lo with
                | none => simp [hexPair, hlo]
                | some lv => exact (hnone hv lv hhi hlo).elim
    · rw [if_neg hbyte]
      exact plain_round hlt (by rw [hdrop, decodeEscapes_other hbyte]) h
  · rw [if_neg hlt]
    refine meets_pure ?_
    have hend := h.2
    rw [List.drop_eq_nil_of_le (Nat.le_of_not_lt hlt), decodeEscapes, List.append_nil] at hend
    exact hend

end Rounds

/-- **The loop** reads in range, comes to an end, and has decoded by then. -/
theorem percentWalk_safe (spare : Nat) (bytes : Bytes) :
    Meets (InRange bytes) bytes 0 (percentWalk spare) fun out _ => out = decodeEscapes bytes :=
  meets_loop (DecodedTo bytes) (fun _ _ h => h.1) (fun _ _ h => percentRound_meets h)
    ⟨Nat.zero_le _, rfl⟩

theorem percentRound_willing (out : Bytes) : Willing (percentRound out) := by
  have hplain (b : UInt8) :
      Willing (do Walk.advance 1; pure (.inl (out ++ [b])) : Walk (Bytes ⊕ Bytes)) :=
    (willing_advance 1).bind fun _ => willing_pure _
  unfold percentRound
  refine willing_position.bind fun index => willing_length.bind fun length => ?_
  split
  · refine (willing_get _ _).bind fun triple => willing_index.bind fun byte => ?_
    simp only
    split
    · split
      · exact hplain byte
      · split
        · exact (willing_advance 3).bind fun _ => willing_pure _
        · exact hplain byte
      · exact willing_outOfRange
    · exact hplain byte
  · exact willing_pure _

/-! ## Texts -/

theorem utf8_append (s t : String) : Trust.utf8 (s ++ t) = Trust.utf8 s ++ Trust.utf8 t := by
  rw [Trust.utf8_toList, String.toList_append, Utf8.asBytes_append, ← Trust.utf8_toList,
    ← Trust.utf8_toList]

theorem lossyText_utf8 (s : String) : lossyText (Trust.utf8 s) = s.toList := by
  rw [Trust.utf8_toList]
  exact lossyText_encoded s.toList

theorem percentDecode_eq (part : String) :
    percentDecode part = String.ofList (lossyText (decodeEscapes (Trust.utf8 part))) := rfl

/-- A malformed escape is left as the text it is. -/
theorem percentDecode_malformed {rest : String} (h : hexPair hexVal (Trust.utf8 rest) = false)
    (front : String) :
    percentDecode (front ++ "%" ++ rest) = percentDecode front ++ "%" ++ percentDecode rest := by
  have hsign : Trust.utf8 "%" = [0x25] := by decide
  have hlow : (0x25 : UInt8).toNat < 128 := by decide
  rw [percentDecode_eq, utf8_append, utf8_append, hsign, List.append_assoc, List.singleton_append,
    decodeEscapes_malformed h _ _ (Nat.le_refl _), lossyText_append _ hlow _ _ (Nat.le_refl _)]
  apply String.toList_inj.mp
  simp [percentDecode_eq]

/-- **Percent decoding.**  A text is read back from any percent-encoding of it that is a
text; whatever the part, the loop reads in range and ends with the bytes that are decoded;
and a percent sign without two hex digits behind it is left where it stands, between what
the texts around it decode to. -/
theorem percent_decode_law :
    (∀ s part : String, Encodes (Trust.utf8 s) (Trust.utf8 part) → percentDecode part = s) ∧
    (∀ (spare : Nat) (part : String),
      (∀ access ∈ (percentWalk spare (Trust.utf8 part) 0).1, InRange (Trust.utf8 part) access) ∧
        ∃ out pos, (percentWalk spare (Trust.utf8 part) 0).2 = .done out pos ∧
          percentDecode part = fromUtf8Lossy out) ∧
    ∀ front rest : String, hexPair hexVal (Trust.utf8 rest) = false →
      percentDecode (front ++ "%" ++ rest) = percentDecode front ++ "%" ++ percentDecode rest := by
  refine ⟨fun s part h => ?_, fun spare part => ?_, fun front rest h => ?_⟩
  · rw [percentDecode_eq, decodeEscapes_encodes h, lossyText_utf8, String.ofList_toList]
  · have hsafe := percentWalk_safe spare (Trust.utf8 part)
    obtain ⟨out, pos, hend, hout⟩ := hsafe.ends (willing_loop percentRound_willing spare [])
    exact ⟨hsafe.1, out, pos, hend, by rw [hout]; rfl⟩
  · exact percentDecode_malformed h front

/-- Both cases of digits, a letter that need not be escaped, and a text that stays. -/
theorem percent_decode_sample :
    percentDecode "%61b%c3%A9%25" = "abé%" ∧ percentDecode "a%4" = "a" ++ "%" ++ "4" := by
  have hletter : Encodes [0x61, 0x62, 0xC3, 0xA9, 0x25]
      [0x25, 0x36, 0x31, 0x62, 0x25, 0x63, 0x33, 0x25, 0x41, 0x39, 0x25, 0x32, 0x35] :=
    .escape (.inl (by decide)) (.inl (by decide)) <| .plain (by decide) <|
      .escape (.inr (by decide)) (.inl (by decide)) <|
      .escape (.inr (by decide)) (.inl (by decide)) <|
      .escape (.inl (by decide)) (.inl (by decide)) .nil
  have htext : Trust.utf8 "abé%" = [0x61, 0x62, 0xC3, 0xA9, 0x25] := by decide
  have hpart : Trust.utf8 "%61b%c3%A9%25" =
      [0x25, 0x36, 0x31, 0x62, 0x25, 0x63, 0x33, 0x25, 0x41, 0x39, 0x25, 0x32, 0x35] := by decide
  constructor
  · exact percent_decode_law.1 "abé%" "%61b%c3%A9%25" (by rw [htext, hpart]; exact hletter)
  · have hleft := percent_decode_law.2.2 "a" "4" (by decide)
    have hfront : percentDecode "a" = "a" := by decide
    have hrest : percentDecode "4" = "4" := by decide
    rw [hfront, hrest] at hleft
    exact hleft

end Calcar.Agent
