import Calcar.Verified.JsonBytes

/-!
# Bytes and characters give the same value

The parser over bytes stands, at every step, in front of what the parser over characters
has left to read.  Each of its parts, started in front of some characters, ends where
the part over characters ends and with the same value, and it is refused where that
part fails.

## Main results

* `string_reads`, `number_reads`, `array_reads`, `object_reads` — the parts.
* `parse_reads` — both parsers agree on every text.
-/

namespace Calcar.Agent.JsonBytes

open Calcar.Lib Calcar.Lib.Walk Calcar.Lib.Utf8

variable {F : Type} {cs s t : List Char} {pos : Nat}

/-! ## Tests of bytes -/

theorem isDigit_firstByte (c : Char) : isDigit (firstByte c) = c.isDigit := by
  refine firstByte_test (by decide) (fun _ => isDigit_low) (fun c hc => ?_) c
  have hrange := Char.isDigit_iff_toNat.mp hc
  have hnine : '9'.toNat = 57 := rfl
  omega

theorem isAsciiWhitespace_firstByte (c : Char) :
    isAsciiWhitespace (firstByte c) = Json.isAsciiWhitespace c :=
  firstByte_test (by decide) (fun _ => isAsciiWhitespace_low)
    (fun c hc => Nat.lt_of_le_of_lt (Json.lax.white_low c hc) (by decide)) c

/-! ## Loops over bytes -/

theorem skipWhile_reads {p : UInt8 → Bool} {q : Char → Bool}
    (hpq : ∀ c, p (firstByte c) = q c) (hq : ∀ c, q c = true → c.toNat < 128)
    (h : At cs pos s) (spare : Nat) :
    Reads cs pos (skipWhile spare p) (some ((), s.dropWhile q)) := by
  unfold skipWhile
  refine reads_loop h fun n hn => ?_
  induction s generalizing pos n with
  | nil =>
      obtain ⟨m, rfl⟩ : ∃ m, n = m + 1 := Nat.exists_eq_succ_of_ne_zero (Nat.ne_of_gt hn)
      refine reads_leave (reads_peek ?_)
      rw [h.none]
      exact reads_pure h
  | cons c s ih =>
      obtain ⟨m, rfl⟩ : ∃ m, n = m + 1 :=
        Nat.exists_eq_succ_of_ne_zero (Nat.ne_of_gt (Nat.zero_lt_of_lt hn))
      by_cases hqc : q c = true
      · rw [List.dropWhile_cons_of_pos hqc]
        have hnext : At cs (pos + 1) s := h.ascii (hq c hqc)
        refine reads_again () s (reads_peek ?_) fun pos' hat => ?_
        · rw [h.byte]
          simp only [hpq c, hqc, if_true]
          exact reads_advance (reads_pure hnext)
        · exact ih hat m (Nat.lt_of_succ_lt_succ hn)
      · rw [List.dropWhile_cons_of_neg hqc]
        refine reads_leave (reads_peek ?_)
        rw [h.byte]
        simp only [hpq c, hqc]
        exact reads_pure h

theorem skipWs_reads (h : At cs pos s) (spare : Nat) :
    Reads cs pos (skipWs spare) (some ((), Json.skipWs s)) := by
  unfold skipWs Json.skipWs
  refine reads_loop h fun n hn => ?_
  induction s generalizing pos n with
  | nil =>
      obtain ⟨m, rfl⟩ : ∃ m, n = m + 1 := Nat.exists_eq_succ_of_ne_zero (Nat.ne_of_gt hn)
      refine reads_leave (reads_position (reads_length ?_))
      have hplace : pos + 0 = (asBytes cs).length := h.place
      rw [if_neg (by omega)]
      exact reads_pure h
  | cons c s ih =>
      obtain ⟨m, rfl⟩ : ∃ m, n = m + 1 :=
        Nat.exists_eq_succ_of_ne_zero (Nat.ne_of_gt (Nat.zero_lt_of_lt hn))
      have hlt : pos < (asBytes cs).length := (List.getElem?_eq_some_iff.mp h.byte).1
      by_cases hws : Json.isAsciiWhitespace c = true
      · rw [List.dropWhile_cons_of_pos hws]
        have hnext : At cs (pos + 1) s :=
          h.ascii (Nat.lt_of_le_of_lt (Json.lax.white_low c hws) (by decide))
        refine reads_again () s (reads_position (reads_length ?_)) fun pos' hat => ?_
        · rw [if_pos hlt]
          refine reads_index h.byte ?_
          rw [isAsciiWhitespace_firstByte, if_pos hws]
          exact reads_advance (reads_pure hnext)
        · exact ih hat m (Nat.lt_of_succ_lt_succ hn)
      · rw [List.dropWhile_cons_of_neg hws]
        refine reads_leave (reads_position (reads_length ?_))
        rw [if_pos hlt]
        refine reads_index h.byte ?_
        rw [isAsciiWhitespace_firstByte, if_neg hws]
        exact reads_pure h

/-! ## Words -/

theorem lit_reads {w : List Char} (hw : ∀ c ∈ w, c.toNat < 128) (h : At cs pos s) :
    Reads cs pos (lit (asBytes w)) ((Json.lit w s).map fun rest => ((), rest)) := by
  unfold lit
  refine reads_position (reads_length (reads_slice ⟨h.boundary.le, Nat.le_refl _⟩ ?_))
  rw [List.take_of_length_le (by rw [List.length_drop]), h.drop]
  by_cases hpre : w <+: s
  · obtain ⟨rest, rfl⟩ := hpre
    have hbytes : (asBytes w).isPrefixOf (asBytes (w ++ rest)) = true := by
      rw [asBytes_append]
      exact List.isPrefixOf_iff_prefix.mpr (List.prefix_append _ _)
    rw [if_pos hbytes, Json.lit, if_pos (List.take_left' rfl), List.drop_left]
    exact ⟨_, h.append, rfl⟩
  · have hbytes : ¬(asBytes w).isPrefixOf (asBytes s) = true := fun hb =>
      hpre (ascii_start hw (List.isPrefixOf_iff_prefix.mp hb))
    have htake : ¬s.take w.length = w := fun heq => hpre (heq ▸ List.take_prefix _ _)
    rw [if_neg hbytes, Json.lit, if_neg htake]
    exact reads_refuse

/-! ## Escapes and strings -/

/-- The four digits of a `\u` escape. -/
def unitDigits : List Char → Option (Nat × List Char)
  | a :: b :: c :: d :: rest => (Json.hex4 a b c d).map fun code => (code, rest)
  | _ => none

theorem fromStrRadix16_four (a b c d : Char) :
    fromStrRadix16 [a, b, c, d] = Json.hex4 a b c d := by
  unfold fromStrRadix16 Json.hex4
  simp

/-- What is decoded from the first four bytes stands in front of the text. -/
theorem unitDigits_of {digits : List Char} {code : Nat} (hfour : 4 ≤ (asBytes s).length)
    (hdigits : fromUtf8 ((asBytes s).take 4) = some digits)
    (hcode : fromStrRadix16 digits = some code) :
    ∃ rest, s = digits ++ rest ∧ (asBytes digits).length = 4 ∧
      unitDigits s = some (code, rest) := by
  have hascii := fromStrRadix16_low hcode
  have hbytes : asBytes digits = (asBytes s).take 4 := asBytes_fromUtf8 hdigits
  obtain ⟨rest, rfl⟩ := ascii_start hascii (hbytes ▸ List.take_prefix 4 (asBytes s))
  have hlength : (asBytes digits).length = 4 := by
    rw [hbytes, List.length_take]
    omega
  have hchars : digits.length = 4 := by
    have hall : ∀ ds : List Char, (∀ c ∈ ds, c.toNat < 128) →
        (asBytes ds).length = ds.length := by
      intro ds
      induction ds with
      | nil => exact fun _ => rfl
      | cons c ds ih =>
          intro h
          rw [asBytes_ascii (h c (List.mem_cons_self ..)), List.length_cons, List.length_cons,
            ih fun d hd => h d (List.mem_cons_of_mem c hd)]
    rw [← hall digits hascii, hlength]
  refine ⟨rest, rfl, hlength, ?_⟩
  obtain _ | ⟨a, _ | ⟨b, _ | ⟨c, _ | ⟨d, _ | ⟨e, more⟩⟩⟩⟩⟩ := digits <;> cases hchars
  rw [fromStrRadix16_four] at hcode
  rw [List.cons_append, List.cons_append, List.cons_append, List.cons_append,
    List.nil_append, unitDigits, hcode]
  rfl

theorem unitDigits_some {code : Nat} (h : unitDigits s = some (code, t)) :
    ∃ digits, s = digits ++ t ∧ (asBytes digits).length = 4 ∧
      fromStrRadix16 digits = some code := by
  obtain _ | ⟨a, _ | ⟨b, _ | ⟨c, _ | ⟨d, rest⟩⟩⟩⟩ := s
  case cons.cons.cons.cons =>
    obtain ⟨code', hcode, hout⟩ := Option.map_eq_some_iff.mp h
    cases hout
    rw [← fromStrRadix16_four] at hcode
    have hascii := fromStrRadix16_low hcode
    refine ⟨[a, b, c, d], rfl, ?_, hcode⟩
    simp only [List.mem_cons, List.not_mem_nil, or_false, forall_eq_or_imp, forall_eq] at hascii
    obtain ⟨ha, hb, hc, hd⟩ := hascii
    rw [asBytes_ascii ha, asBytes_ascii hb, asBytes_ascii hc, asBytes_ascii hd]
    rfl
  all_goals cases h

theorem hex4_reads (h : At cs pos s) : Reads cs pos hex4 (unitDigits s) := by
  have hplace := h.place
  have hsome : ∀ {code : Nat} {rest : List Char}, unitDigits s = some (code, rest) →
      4 ≤ (asBytes s).length ∧ ∃ digits, fromUtf8 ((asBytes s).take 4) = some digits ∧
        fromStrRadix16 digits = some code := by
    intro code rest hdigits
    obtain ⟨digits, hs, hfour, hcode⟩ := unitDigits_some hdigits
    rw [hs, asBytes_append, ← hfour, List.take_left, fromUtf8_asBytes, List.length_append]
    exact ⟨Nat.le_add_right _ _, digits, rfl, hcode⟩
  unfold hex4
  refine reads_position (reads_length ?_)
  by_cases hroom : pos + 4 > (asBytes cs).length
  · rw [if_pos hroom]
    cases hdigits : unitDigits s with
    | none => exact reads_refuse
    | some out => exact absurd (hsome hdigits).1 (by omega)
  rw [if_neg hroom]
  refine reads_slice (by omega) ?_
  rw [h.drop, Nat.add_sub_cancel_left]
  cases hdecode : fromUtf8 ((asBytes s).take 4) with
  | none =>
      cases hdigits : unitDigits s with
      | none => exact reads_none
      | some out =>
          obtain ⟨-, digits, hd, -⟩ := hsome hdigits
          rw [hdecode] at hd
          cases hd
  | some digits =>
      refine reads_some ?_
      cases hcode : fromStrRadix16 digits with
      | none =>
          cases hdigits : unitDigits s with
          | none => exact reads_none
          | some out =>
              obtain ⟨-, digits', hd, hc⟩ := hsome hdigits
              rw [hdecode] at hd
              cases hd
              rw [hcode] at hc
              cases hc
      | some code =>
          obtain ⟨rest, rfl, hfour, hdigits⟩ := unitDigits_of (by omega) hdecode hcode
          rw [hdigits]
          refine reads_some (reads_advance (reads_pure ?_))
          rw [← hfour]
          exact h.append

theorem escaped_unit (h : At cs pos s) : Reads cs pos (escaped 0x75)
    ((unitDigits s).bind fun out => (Json.charFromU32 out.1).map fun ch => (ch, out.2)) := by
  have hhex := hex4_reads h
  unfold escaped
  rw [if_pos rfl]
  cases hdigits : unitDigits s with
  | none =>
      rw [hdigits] at hhex
      exact hhex.bind_none
  | some out =>
      rw [hdigits] at hhex
      refine hhex.bind fun pos' hat => ?_
      show Reads cs pos' (ofOption (Json.charFromU32 out.1)) _
      cases hch : Json.charFromU32 out.1 with
      | none =>
          rw [Option.bind_some, hch]
          exact reads_refuse
      | some ch =>
          rw [Option.bind_some, hch]
          exact reads_pure hat

/-- A byte outside ASCII is no escape, as the character it starts is none. -/
theorem escaped_short {esc : Char} (hu : esc ≠ 'u') (h : At cs pos (esc :: s)) :
    Reads cs (pos + 1) (escaped (firstByte esc))
      ((Json.shortEscape esc).map fun ch => (ch, s)) := by
  have hbyte : firstByte esc ≠ 0x75 := fun heq => hu ((firstByte_iff (k := 'u') (by decide)).mp heq)
  unfold escaped
  rw [if_neg hbyte]
  by_cases hlow : esc.toNat < 128
  · have hback : Char.ofNat (firstByte esc).toNat = esc := by
      rw [firstByte_ascii hlow, UInt8.toNat_ofNat', Nat.mod_eq_of_lt (by omega), Char.ofNat_toNat]
    rw [hback]
    cases Json.shortEscape esc with
    | none => exact reads_refuse
    | some ch => exact reads_pure (h.ascii hlow)
  · have hchar : Json.shortEscape esc = none := by
      cases hch : Json.shortEscape esc with
      | none => rfl
      | some ch =>
          exact absurd (escapes_low (Json.shortEscape_some hch)) hlow
    have hfirst : Json.shortEscape (Char.ofNat (firstByte esc).toNat) = none := by
      cases hch : Json.shortEscape (Char.ofNat (firstByte esc).toNat) with
      | none => rfl
      | some ch =>
          exact absurd (shortEscape_low hch)
            (Nat.not_lt.mpr (firstByte_high (Nat.not_lt.mp hlow)))
    rw [hchar, hfirst]
    exact reads_refuse

theorem control_firstByte (c : Char) : (firstByte c).toNat ≤ 0x1F ↔ c.toNat < 0x20 := by
  have htest := firstByte_test (p := fun b => decide (b.toNat ≤ 0x1F))
    (q := fun c => decide (c.toNat < 0x20)) (by decide)
    (fun b hb => Nat.lt_of_le_of_lt (of_decide_eq_true hb) (by decide))
    (fun c hc => Nat.lt_trans (of_decide_eq_true hc) (by decide)) c
  rw [← decide_eq_true_iff (p := (firstByte c).toNat ≤ 0x1F), htest, decide_eq_true_iff]

/-- What the parser over characters reads behind a `\u`. -/
theorem string_unitDigits (s : List Char) :
    Json.string ('\\' :: 'u' :: s) =
      (unitDigits s).bind fun out => (Json.charFromU32 out.1).bind fun ch =>
        (Json.string out.2).map (Json.push ch) := by
  rw [Json.string.eq_def]
  obtain _ | ⟨a, _ | ⟨b, _ | ⟨c, _ | ⟨d, rest⟩⟩⟩⟩ := s
  case cons.cons.cons.cons =>
    show ((Json.hex4 a b c d).bind Json.charFromU32).bind _ = _
    rw [unitDigits]
    cases Json.hex4 a b c d <;> rfl
  all_goals rfl

/-- The character of an escape, and what is left behind it. -/
def escapeOf (esc : Char) (s : List Char) : Option (Char × List Char) :=
  if esc = 'u' then
    (unitDigits s).bind fun out => (Json.charFromU32 out.1).map fun ch => (ch, out.2)
  else (Json.shortEscape esc).map fun ch => (ch, s)

theorem escaped_reads {esc : Char} (h : At cs pos (esc :: s)) :
    Reads cs (pos + 1) (escaped (firstByte esc)) (escapeOf esc s) := by
  unfold escapeOf
  by_cases hu : esc = 'u'
  · subst hu
    rw [if_pos rfl]
    exact escaped_unit (h.ascii (by decide))
  · rw [if_neg hu]
    exact escaped_short hu h

theorem string_escapeOf (esc : Char) (s : List Char) :
    Json.string ('\\' :: esc :: s) =
      (escapeOf esc s).bind fun found => (Json.string found.2).map (Json.push found.1) := by
  unfold escapeOf
  by_cases hu : esc = 'u'
  · subst hu
    rw [string_unitDigits, if_pos rfl]
    cases unitDigits s with
    | none => rfl
    | some out =>
        rw [Option.bind_some, Option.bind_some]
        cases Json.charFromU32 out.1 <;> rfl
  · rw [if_neg hu, Json.string_escape hu]
    cases Json.shortEscape esc <;> rfl

theorem escapeOf_length {esc ch : Char} (h : escapeOf esc s = some (ch, t)) :
    t.length ≤ s.length := by
  unfold escapeOf at h
  by_cases hu : esc = 'u'
  · rw [if_pos hu] at h
    obtain ⟨out, hdigits, hout⟩ := Option.bind_eq_some_iff.mp h
    obtain ⟨ch', -, hend⟩ := Option.map_eq_some_iff.mp hout
    cases hend
    obtain ⟨digits, hs, -, -⟩ := unitDigits_some hdigits
    rw [hs, List.length_append]
    exact Nat.le_add_left _ _
  · rw [if_neg hu] at h
    obtain ⟨ch', -, hend⟩ := Option.map_eq_some_iff.mp h
    cases hend
    exact Nat.le_refl _

/-- A round at a backslash. -/
theorem escape_round {esc : Char} (h : At cs pos ('\\' :: esc :: s)) (out : List Char) :
    Reads cs pos (stringRound out)
      ((escapeOf esc s).map fun found => (.inl (out ++ [found.1]), found.2)) := by
  have hnext : At cs (pos + 1) (esc :: s) := h.ascii (by decide)
  have hescape := escaped_reads hnext
  have hquote : firstByte '\\' ≠ 0x22 := by decide
  have hslash : firstByte '\\' = 0x5C := by decide
  unfold stringRound
  refine reads_peek ?_
  rw [h.byte]
  refine reads_some ?_
  rw [if_neg hquote, if_pos hslash]
  refine reads_advance (reads_peek ?_)
  rw [hnext.byte]
  refine reads_some (reads_advance ?_)
  cases hfound : escapeOf esc s with
  | none =>
      rw [hfound] at hescape
      exact hescape.bind_none
  | some found =>
      rw [hfound] at hescape
      exact hescape.bind fun pos' hat => reads_pure hat

/-- The characters so far, in front of those that follow. -/
theorem map_push (out : List Char) (ch : Char) (o : Option (List Char × List Char)) :
    (o.map (Json.push ch)).map (fun found => (out ++ found.1, found.2)) =
      o.map fun found => (out ++ [ch] ++ found.1, found.2) := by
  cases o with
  | none => rfl
  | some found =>
      rw [Option.map_some, Option.map_some, Option.map_some, List.append_assoc]
      rfl

theorem string_rounds (n : Nat) : ∀ (s : List Char) (pos : Nat) (out : List Char),
    s.length < n → At cs pos s → Reads cs pos (rounds stringRound n out)
      ((Json.string s).map fun found => (out ++ found.1, found.2)) := by
  induction n with
  | zero => exact fun s pos out hn => absurd hn (Nat.not_lt_zero _)
  | succ n ih =>
      intro s pos out hn h
      cases s with
      | nil =>
          refine reads_refused (reads_peek ?_)
          rw [h.none]
          exact reads_none
      | cons c s =>
          have hs : s.length < n := Nat.lt_of_succ_lt_succ hn
          by_cases hquote : c = '"'
          · subst hquote
            rw [Json.string_quote, Option.map_some, List.append_nil]
            refine reads_leave (reads_peek ?_)
            rw [h.byte]
            exact reads_some (reads_advance (reads_pure (h.ascii (by decide))))
          have hquoteByte : firstByte c ≠ 0x22 := fun heq =>
            hquote ((firstByte_iff (k := '"') (by decide)).mp heq)
          by_cases hslash : c = '\\'
          · subst hslash
            cases s with
            | nil =>
                have hnext : At cs (pos + 1) [] := h.ascii (by decide)
                have hquote : firstByte '\\' ≠ 0x22 := by decide
                have hslash : firstByte '\\' = 0x5C := by decide
                refine reads_refused (reads_peek ?_)
                rw [h.byte]
                refine reads_some ?_
                rw [if_neg hquote, if_pos hslash]
                refine reads_advance (reads_peek ?_)
                rw [hnext.none]
                exact reads_none
            | cons esc s =>
                have hround := escape_round h out
                rw [string_escapeOf]
                cases hfound : escapeOf esc s with
                | none =>
                    rw [hfound] at hround
                    exact reads_refused hround
                | some found =>
                    rw [hfound] at hround
                    have hlength : found.2.length ≤ s.length := escapeOf_length hfound
                    rw [Option.bind_some, map_push]
                    exact reads_again _ _ hround fun pos' hat =>
                      ih found.2 pos' _ (Nat.lt_of_le_of_lt hlength (Nat.lt_of_succ_lt hs)) hat
          have hslashByte : firstByte c ≠ 0x5C := fun heq =>
            hslash ((firstByte_iff (k := '\\') (by decide)).mp heq)
          by_cases hcontrol : c.toNat < 0x20
          · have hnone : Json.string (c :: s) = none := by
              rw [Json.string.eq_def]
              dsimp only
              rw [if_neg hquote, if_neg hslash, if_pos hcontrol]
            rw [hnone]
            refine reads_refused (reads_peek ?_)
            rw [h.byte]
            refine reads_some ?_
            rw [if_neg hquoteByte, if_neg hslashByte, if_pos ((control_firstByte c).mpr hcontrol)]
            exact reads_refuse
          · have hmore : Json.string (c :: s) = (Json.string s).map (Json.push c) := by
              rw [Json.string.eq_def]
              dsimp only
              rw [if_neg hquote, if_neg hslash, if_neg hcontrol]
            rw [hmore, map_push]
            refine reads_again (out ++ [c]) s (reads_peek ?_) fun pos' hat => ih s pos' _ hs hat
            rw [h.byte]
            refine reads_some ?_
            rw [if_neg hquoteByte, if_neg hslashByte,
              if_neg fun hle => hcontrol ((control_firstByte c).mp hle)]
            refine reads_position (reads_length (reads_slice ⟨h.boundary.le, Nat.le_refl _⟩ ?_))
            rw [List.take_of_length_le (by rw [List.length_drop]), h.drop, fromUtf8_asBytes]
            exact reads_some (reads_some (reads_advance (reads_pure h.step)))

theorem string_reads (h : At cs pos ('"' :: s)) (spare : Nat) :
    Reads cs pos (string spare) (Json.string s) := by
  have hnext : At cs (pos + 1) s := h.ascii (by decide)
  unfold string
  refine reads_advance (reads_loop hnext fun n hn => ?_)
  have hrounds := string_rounds n s (pos + 1) [] hn hnext
  have hid : (Json.string s).map (fun found => ([] ++ found.1, found.2)) = Json.string s :=
    by cases Json.string s <;> rfl
  rwa [hid] at hrounds

/-! ## Numbers -/

/-- Whether the first character is one of some, and what is left behind it. -/
def optionalOf (q : Char → Bool) : List Char → Bool × List Char
  | [] => (false, [])
  | c :: s => if q c then (true, s) else (false, c :: s)

theorem optional_reads {bs : Bytes} {q : Char → Bool}
    (hbs : ∀ c, bs.contains (firstByte c) = q c) (hq : ∀ c, q c = true → c.toNat < 128)
    (h : At cs pos s) : Reads cs pos (optional bs) (some (optionalOf q s)) := by
  unfold optional
  refine reads_peek ?_
  cases s with
  | nil =>
      rw [h.none]
      exact reads_pure h
  | cons c s =>
      rw [h.byte]
      show Reads cs pos (if bs.contains (firstByte c) = true then _ else _) (some (ite _ _ _))
      by_cases hqc : q c = true
      · rw [hbs, if_pos hqc, if_pos hqc]
        exact reads_advance (reads_pure (h.ascii (hq c hqc)))
      · rw [hbs, if_neg hqc, if_neg hqc]
        exact reads_pure h

/-- One character is looked for. -/
theorem optional_one {k : Char} (hk : k.toNat < 128) (h : At cs pos s) :
    Reads cs pos (optional [UInt8.ofNat k.toNat]) (some (optionalOf (fun c => c == k) s)) := by
  refine optional_reads (fun c => ?_) (fun c hc => ?_) h
  · rw [Bool.eq_iff_iff, List.contains_iff_mem, List.mem_singleton, firstByte_iff hk, beq_iff_eq]
  · rw [beq_iff_eq.mp hc]
    exact hk

/-- One of two characters is looked for. -/
theorem optional_two {k l : Char} (hk : k.toNat < 128) (hl : l.toNat < 128) (h : At cs pos s) :
    Reads cs pos (optional [UInt8.ofNat k.toNat, UInt8.ofNat l.toNat])
      (some (optionalOf (fun c => c == k || c == l) s)) := by
  refine optional_reads (fun c => ?_) (fun c hc => ?_) h
  · rw [Bool.eq_iff_iff, List.contains_iff_mem, List.mem_cons, List.mem_singleton,
      firstByte_iff hk, firstByte_iff hl, Bool.or_eq_true, beq_iff_eq, beq_iff_eq]
  · obtain hc | hc := Bool.or_eq_true_iff.mp hc
    · rw [beq_iff_eq.mp hc]
      exact hk
    · rw [beq_iff_eq.mp hc]
      exact hl

theorem digits_reads (h : At cs pos s) (spare : Nat) :
    Reads cs pos (skipWhile spare isDigit) (some ((), (Json.digits s).2)) := by
  refine skipWhile_reads isDigit_firstByte (fun c hc => ?_) h spare
  have hrange := Char.isDigit_iff_toNat.mp hc
  have hnine : '9'.toNat = 57 := rfl
  omega

theorem fraction_reads (h : At cs pos s) (spare : Nat) :
    Reads cs pos (fraction spare)
      (some ((Json.scanFrac s).1.isSome, (Json.scanFrac s).2)) := by
  have hpoint : Reads cs pos (optional [0x2E]) _ := optional_one (k := '.') (by decide) h
  unfold fraction
  cases s with
  | nil => exact hpoint.bind fun pos' hat => reads_pure hat
  | cons c s =>
      by_cases hc : c = '.'
      · have hyes : optionalOf (fun c => c == '.') (c :: s) = (true, s) :=
          if_pos (beq_iff_eq.mpr hc)
        rw [hyes] at hpoint
        rw [Json.scanFrac, if_pos hc]
        refine hpoint.bind fun pos' hat => ?_
        exact (digits_reads hat spare).bind fun pos'' hend => reads_pure hend
      · have hno : optionalOf (fun c => c == '.') (c :: s) = (false, c :: s) :=
          if_neg fun heq => hc (beq_iff_eq.mp heq)
        rw [hno] at hpoint
        rw [Json.scanFrac, if_neg hc]
        exact hpoint.bind fun pos' hat => reads_pure hat

theorem scanSign_rest (s : List Char) :
    (Json.scanSign s).2 = (optionalOf (fun c => c == '+' || c == '-') s).2 := by
  cases s with
  | nil => rfl
  | cons c s =>
      by_cases hc : c = '+' ∨ c = '-'
      · have hyes : (c == '+' || c == '-') = true := by simpa using hc
        rw [Json.scanSign, if_pos hc, optionalOf, if_pos hyes]
      · have hno : ¬(c == '+' || c == '-') = true := by simpa using hc
        rw [Json.scanSign, if_neg hc, optionalOf, if_neg hno]

theorem exponent_reads (h : At cs pos s) (spare : Nat) :
    Reads cs pos (exponent spare) (some ((Json.scanExp s).1.isSome, (Json.scanExp s).2)) := by
  have hletter : Reads cs pos (optional [0x65, 0x45]) _ :=
    optional_two (k := 'e') (l := 'E') (by decide) (by decide) h
  unfold exponent
  cases s with
  | nil => exact hletter.bind fun pos' hat => reads_pure hat
  | cons c s =>
      by_cases hc : c = 'e' ∨ c = 'E'
      · have hyes : optionalOf (fun c => c == 'e' || c == 'E') (c :: s) = (true, s) :=
          if_pos (by simpa using hc)
        rw [hyes] at hletter
        rw [Json.scanExp, if_pos hc]
        refine hletter.bind fun pos₁ hat₁ => ?_
        have hsign : Reads cs pos₁ (optional [0x2B, 0x2D]) _ :=
          optional_two (k := '+') (l := '-') (by decide) (by decide) hat₁
        refine hsign.bind fun pos₂ hat₂ => ?_
        have hdigits : At cs pos₂ (Json.scanSign s).2 := by
          rw [scanSign_rest]
          exact hat₂
        exact (digits_reads hdigits spare).bind fun pos₃ hat₃ => reads_pure hat₃
      · have hno : optionalOf (fun c => c == 'e' || c == 'E') (c :: s) = (false, c :: s) :=
          if_neg (by simpa using hc)
        rw [hno] at hletter
        rw [Json.scanExp, if_neg hc]
        exact hletter.bind fun pos' hat => reads_pure hat

/-- The text of a numeral is read as `number` reads it. -/
theorem numberValue_text (f : Json.F64 F) {n : Lib.Json.Numeral} (hn : n.shape = true) :
    numberValue f (n.frac.isSome || n.exp.isSome) (n.put []) = Json.numberValue f n := by
  have hscan : Json.scan (n.put []) = (n, []) := Json.scan_complete hn Lib.Json.ends_nil
  have hnil : n.put [] ≠ [] := by
    intro hput
    rw [hput] at hscan
    cases hscan
    exact absurd hn (by decide)
  unfold numberValue
  by_cases hminus : n.put [] = ['-']
  · rw [if_pos (.inr hminus)]
    rw [hminus] at hscan
    cases hscan
    rfl
  rw [if_neg (not_or.mpr ⟨hnil, hminus⟩), hscan]
  unfold Json.numberValue
  by_cases hfloat : (n.frac.isSome || n.exp.isSome) = true
  · rw [if_pos hfloat, if_pos hfloat]
  · rw [if_neg hfloat, if_neg hfloat]
    have hint : ¬n.int.isEmpty = true := by
      intro hempty
      obtain ⟨hstart, -, -, -⟩ := n.shape_iff.mp hn
      obtain ⟨minus, int, frac, exp⟩ := n
      rw [Bool.or_eq_true, not_or, Bool.not_eq_true, Bool.not_eq_true] at hfloat
      obtain rfl : int = [] := List.isEmpty_iff.mp hempty
      obtain rfl : frac = none := Option.not_isSome_iff_eq_none.mp (by simp [hfloat.1])
      obtain rfl : exp = none := Option.not_isSome_iff_eq_none.mp (by simp [hfloat.2])
      obtain rfl : minus = true := hstart.resolve_right fun h => h rfl
      exact hminus rfl
    exact (if_neg hint).symm

theorem put_append (n : Lib.Json.Numeral) (r : List Char) : n.put r = n.put [] ++ r := by
  obtain ⟨minus, int, frac, exp⟩ := n
  cases frac <;> cases exp <;>
    simp [Lib.Json.Numeral.put, Lib.Json.putFrac, Lib.Json.putExp, Lib.Json.Exponent.put]

theorem number_reads (f : Json.F64 F) {c : Char} (hc : c = '-' ∨ c.isDigit = true)
    (h : At cs pos (c :: s)) (spare : Nat) :
    Reads cs pos (number f spare) (Json.number f (c :: s)) := by
  have hscan : Json.scan (c :: s) = Json.scanRest (optionalOf (fun c => c == '-') (c :: s)).1
      (optionalOf (fun c => c == '-') (c :: s)).2 := by
    by_cases hminus : c = '-'
    · rw [Json.scan, if_pos hminus, optionalOf, if_pos (beq_iff_eq.mpr hminus)]
    · rw [Json.scan, if_neg hminus, optionalOf, if_neg fun heq => hminus (beq_iff_eq.mp heq)]
  obtain ⟨hshape, hput⟩ := Json.scan_sound (s := s) hc
  have hminus : Reads cs pos (optional [0x2D]) _ := optional_one (k := '-') (by decide) h
  generalize optionalOf (fun c => c == '-') (c :: s) = found at hscan hminus
  obtain ⟨minus, s₁⟩ := found
  change Json.scan (c :: s) = Json.scanRest minus s₁ at hscan
  unfold number Json.number
  rw [hscan] at hshape hput ⊢
  refine reads_position (hminus.bind fun pos₁ h₁ => ?_)
  refine (digits_reads h₁ spare).bind fun pos₂ h₂ => ?_
  refine (fraction_reads h₂ spare).bind fun pos₃ h₃ => ?_
  refine (exponent_reads h₃ spare).bind fun pos₄ h₄ => ?_
  have hrest : At cs pos₄ (Json.scanRest minus s₁).2 := h₄
  -- What has been walked over is the text of the numeral.
  have hplace := h.place
  have hplace₄ := hrest.place
  rw [← hput, put_append, asBytes_append, List.length_append] at hplace
  refine reads_position (reads_slice ⟨by omega, hrest.boundary.le⟩ ?_)
  rw [h.drop, ← hput, put_append, asBytes_append, List.take_left' (by omega), fromUtf8_asBytes]
  refine reads_some ?_
  show Reads cs pos₄ (ofOption (numberValue f ((Json.scanRest minus s₁).1.frac.isSome ||
    (Json.scanRest minus s₁).1.exp.isSome) ((Json.scanRest minus s₁).1.put []))) _
  rw [numberValue_text f hshape]
  cases Json.numberValue f (Json.scanRest minus s₁).1 with
  | none => exact reads_refuse
  | some v => exact reads_pure hrest

/-! ## Documents -/

/-- The parsers of an item agree. -/
def Agree (cs : List Char) (value : Walk (Json.Value F))
    (read : List Char → Option (Json.Value F × List Char)) : Prop :=
  ∀ pos s, At cs pos s → Reads cs pos value (read s)

/-- Behind an item: a comma, and the loop goes on, or what closes the container. -/
def separated {σ β : Type} (close : Char) (more : σ) (last : β) :
    List Char → Option ((σ ⊕ β) × List Char)
  | [] => none
  | c :: s =>
      if c = ',' then some (.inl more, s)
      else if c = close then some (.inr last, s)
      else none

theorem separated_reads {σ β : Type} {close : Char} {more : σ} {last : β}
    (hclose : close.toNat < 128) (h : At cs pos s) :
    Reads cs pos (do
      let byte ← ofOption (← peek)
      if byte = 0x2C then do
        advance 1
        pure (.inl more)
      else if byte = UInt8.ofNat close.toNat then do
        advance 1
        pure (.inr last)
      else refuse) (separated close more last s) := by
  refine reads_peek ?_
  cases s with
  | nil =>
      rw [h.none]
      exact reads_none
  | cons c s =>
      rw [h.byte, separated]
      refine reads_some ?_
      have hcommaByte : firstByte c = 0x2C ↔ c = ',' := firstByte_iff (k := ',') (by decide)
      by_cases hcomma : c = ','
      · rw [if_pos (hcommaByte.mpr hcomma), if_pos hcomma]
        exact reads_advance (reads_pure (h.ascii (by rw [hcomma]; decide)))
      rw [if_neg (mt hcommaByte.mp hcomma), if_neg hcomma]
      by_cases hend : c = close
      · rw [if_pos ((firstByte_iff hclose).mpr hend), if_pos hend]
        exact reads_advance (reads_pure (h.ascii (hend ▸ hclose)))
      · rw [if_neg (mt (firstByte_iff hclose).mp hend), if_neg hend]
        exact reads_refuse

section Containers

variable {f : Json.F64 F} {room : Nat} {value : Walk (Json.Value F)}
  {read : List Char → Option (Json.Value F × List Char)} {spare : Nat}

theorem arrayRound_reads (hagree : Agree cs value read) (h : At cs pos s)
    (items : List (Json.Value F)) :
    Reads cs pos (arrayRound spare value items)
      ((read (Json.skipWs s)).bind fun found =>
        separated ']' (items ++ [found.1]) (.arr (items ++ [found.1])) (Json.skipWs found.2)) := by
  unfold arrayRound
  refine (skipWs_reads h spare).bind fun pos₁ h₁ => ?_
  have hvalue := hagree pos₁ _ h₁
  cases hread : read (Json.skipWs s) with
  | none =>
      rw [hread] at hvalue
      exact hvalue.bind_none
  | some found =>
      rw [hread] at hvalue
      refine hvalue.bind fun pos₂ h₂ => ?_
      exact (skipWs_reads h₂ spare).bind fun pos₃ h₃ => separated_reads (by decide) h₃

theorem items_reads (hagree : Agree cs value read) (hsound : Json.Sound f room read)
    (hempty : read [] = none) (n : Nat) :
    ∀ (k : Nat) (s : List Char) (pos : Nat) (items : List (Json.Value F)), s.length < n →
      s.length ≤ k → At cs pos s →
      Reads cs pos (rounds (arrayRound spare value) n items)
        ((Json.items read k s).map fun found => (.arr (items ++ found.1), found.2)) := by
  induction n with
  | zero => exact fun k s pos items hn => absurd hn (Nat.not_lt_zero _)
  | succ n ih =>
      intro k s pos items hn hk h
      have hround : Reads cs pos (arrayRound spare value items) _ :=
        arrayRound_reads hagree h items
      cases k with
      | zero =>
          obtain rfl : s = [] := List.length_eq_zero_iff.mp (Nat.le_zero.mp hk)
          rw [show read (Json.skipWs []) = none from hempty] at hround
          exact reads_refused hround
      | succ k =>
          rw [Json.items]
          cases hread : read (Json.skipWs s) with
          | none =>
              rw [hread] at hround
              exact reads_refused hround
          | some found =>
              obtain ⟨v, t⟩ := found
              rw [hread] at hround
              rw [Option.bind_some] at hround
              rw [Option.bind_eq_bind, Option.bind_some]
              dsimp only at hround ⊢
              obtain ⟨tree, -, -, hput, -⟩ := hsound _ _ _ hread
              have hshort := tree.put_length t
              rw [hput] at hshort
              have hskip := Json.skip_length s
              have hskip' := Json.skip_length t
              cases ht : Json.skipWs t with
              | nil =>
                  rw [ht] at hround
                  exact reads_refused hround
              | cons c u =>
                  rw [ht] at hround hskip'
                  rw [List.length_cons] at hskip'
                  unfold separated at hround
                  dsimp only at hround ⊢
                  by_cases hcomma : c = ','
                  · rw [if_pos hcomma] at hround ⊢
                    refine reads_again _ _ hround fun pos' hat => ?_
                    have hrest := ih k u pos' (items ++ [v]) (by omega) (by omega) hat
                    rw [Option.map_map]
                    cases hitems : Json.items read k u with
                    | none =>
                        rw [hitems] at hrest
                        exact hrest
                    | some out =>
                        rw [hitems, Option.map_some, List.append_assoc] at hrest
                        exact hrest
                  rw [if_neg hcomma] at hround ⊢
                  by_cases hend : c = ']'
                  · rw [if_pos hend] at hround ⊢
                    exact reads_leave hround
                  · rw [if_neg hend] at hround ⊢
                    exact reads_refused hround

theorem array_reads (hagree : Agree cs value read) (hsound : Json.Sound f room read)
    (hempty : read [] = none) (h : At cs pos ('[' :: s)) :
    Reads cs pos (array spare value) (Json.array read s) := by
  have hnext : At cs (pos + 1) s := h.ascii (by decide)
  unfold array Json.array
  refine reads_advance ((skipWs_reads hnext spare).bind fun pos₁ h₁ => reads_peek ?_)
  cases hs : Json.skipWs s with
  | nil =>
      rw [hs] at h₁
      rw [h₁.none, if_neg (by simp)]
      exact reads_loop h₁ fun n hn => items_reads hagree hsound hempty n 0 [] pos₁ [] hn
        (Nat.le_refl 0) h₁
  | cons c rest =>
      rw [hs] at h₁
      have hclose : (some (firstByte c) = some (0x5D : UInt8)) ↔ c = ']' := by
        rw [Option.some_inj]
        exact firstByte_iff (k := ']') (by decide)
      rw [h₁.byte]
      dsimp only
      by_cases hc : c = ']'
      · rw [if_pos (hclose.mpr hc), if_pos hc]
        exact reads_advance (reads_pure (h₁.ascii (by rw [hc]; decide)))
      · rw [if_neg (mt hclose.mp hc), if_neg hc]
        exact reads_loop h₁ fun n hn => items_reads hagree hsound hempty n _ _ pos₁ [] hn
          (Nat.le_refl _) h₁

/-- A key, its colon and the value of a member. -/
theorem objectRound_reads (hagree : Agree cs value read) (h : At cs pos s)
    (map : List (String × Json.Value F)) :
    Reads cs pos (objectRound spare value map)
      ((Json.member read (Json.skipWs s)).bind fun found =>
        separated '}' (Json.insert found.1.1 found.1.2 map)
          (.obj (Json.insert found.1.1 found.1.2 map)) (Json.skipWs found.2)) := by
  unfold objectRound
  refine (skipWs_reads h spare).bind fun pos₁ h₁ => reads_peek ?_
  cases hs : Json.skipWs s with
  | nil =>
      rw [hs] at h₁
      rw [h₁.none, if_neg (by simp)]
      exact reads_refuse
  | cons c s₁ =>
      rw [hs] at h₁
      have hquote : (some (firstByte c) = some (0x22 : UInt8)) ↔ c = '"' := by
        rw [Option.some_inj]
        exact firstByte_iff (k := '"') (by decide)
      rw [h₁.byte, Json.member]
      by_cases hc : c = '"'
      case neg =>
        rw [if_neg (mt hquote.mp hc), if_neg hc]
        exact reads_refuse
      subst hc
      rw [if_pos (hquote.mpr rfl), if_pos rfl]
      have hkey := string_reads h₁ spare
      cases hstring : Json.string s₁ with
      | none =>
          rw [hstring] at hkey
          exact hkey.bind_none
      | some found =>
          obtain ⟨key, s₂⟩ := found
          rw [hstring] at hkey
          refine hkey.bind fun pos₂ h₂ => ?_
          refine (skipWs_reads h₂ spare).bind fun pos₃ h₃ => reads_peek ?_
          rw [Option.bind_eq_bind, Option.bind_some]
          dsimp only
          cases hs₂ : Json.skipWs s₂ with
          | nil =>
              rw [hs₂] at h₃
              rw [h₃.none, if_neg (by simp)]
              exact reads_refuse
          | cons d s₃ =>
              rw [hs₂] at h₃
              have hcolon : (some (firstByte d) = some (0x3A : UInt8)) ↔ d = ':' := by
                rw [Option.some_inj]
                exact firstByte_iff (k := ':') (by decide)
              rw [h₃.byte]
              dsimp only
              by_cases hd : d = ':'
              case neg =>
                rw [if_neg (mt hcolon.mp hd), if_neg hd]
                exact reads_refuse
              rw [if_pos (hcolon.mpr hd), if_pos hd]
              have hitem : At cs (pos₃ + 1) s₃ := h₃.ascii (by rw [hd]; decide)
              refine reads_advance ((skipWs_reads hitem spare).bind fun pos₄ h₄ => ?_)
              have hvalue := hagree pos₄ _ h₄
              cases hread : read (Json.skipWs s₃) with
              | none =>
                  rw [hread] at hvalue
                  exact hvalue.bind_none
              | some out =>
                  rw [hread] at hvalue
                  refine hvalue.bind fun pos₅ h₅ => ?_
                  exact (skipWs_reads h₅ spare).bind fun pos₆ h₆ =>
                    separated_reads (by decide) h₆

theorem member_short (hsound : Json.Sound f room read) {entry : String × Json.Value F}
    (h : Json.member read s = some (entry, t)) : t.length ≤ s.length := by
  obtain ⟨key, keyEnd, colonEnd, tree, -, -, -, -, -, hput, -⟩ := Json.member_sound hsound h
  have hkey := Lib.Json.putString_length key (keyEnd ++ ':' :: (colonEnd ++ tree.put t))
  have htree := tree.put_length t
  rw [hput] at hkey
  simp only [List.length_append, List.length_cons] at hkey
  omega

theorem members_reads (hagree : Agree cs value read) (hsound : Json.Sound f room read)
    (n : Nat) : ∀ (k : Nat) (s : List Char) (pos : Nat) (map : List (String × Json.Value F)),
      s.length < n → s.length ≤ k → At cs pos s →
      Reads cs pos (rounds (objectRound spare value) n map)
        ((Json.members read k map s).map fun found => (.obj found.1, found.2)) := by
  induction n with
  | zero => exact fun k s pos map hn => absurd hn (Nat.not_lt_zero _)
  | succ n ih =>
      intro k s pos map hn hk h
      have hround : Reads cs pos (objectRound spare value map) _ :=
        objectRound_reads hagree h map
      cases k with
      | zero =>
          obtain rfl : s = [] := List.length_eq_zero_iff.mp (Nat.le_zero.mp hk)
          exact reads_refused hround
      | succ k =>
          rw [Json.members]
          cases hmember : Json.member read (Json.skipWs s) with
          | none =>
              rw [hmember] at hround
              exact reads_refused hround
          | some found =>
              obtain ⟨entry, t⟩ := found
              rw [hmember] at hround
              rw [Option.bind_some] at hround
              rw [Option.bind_eq_bind, Option.bind_some]
              dsimp only at hround ⊢
              have hshort := member_short hsound hmember
              have hskip := Json.skip_length s
              have hskip' := Json.skip_length t
              cases ht : Json.skipWs t with
              | nil =>
                  rw [ht] at hround
                  exact reads_refused hround
              | cons c u =>
                  rw [ht] at hround hskip'
                  rw [List.length_cons] at hskip'
                  unfold separated at hround
                  dsimp only at hround ⊢
                  by_cases hcomma : c = ','
                  · rw [if_pos hcomma] at hround ⊢
                    exact reads_again _ _ hround fun pos' hat =>
                      ih k u pos' _ (by omega) (by omega) hat
                  rw [if_neg hcomma] at hround ⊢
                  by_cases hend : c = '}'
                  · rw [if_pos hend] at hround ⊢
                    exact reads_leave hround
                  · rw [if_neg hend] at hround ⊢
                    exact reads_refused hround

theorem object_reads (hagree : Agree cs value read) (hsound : Json.Sound f room read)
    (h : At cs pos ('{' :: s)) :
    Reads cs pos (object spare value) (Json.object read s) := by
  have hnext : At cs (pos + 1) s := h.ascii (by decide)
  unfold object Json.object
  refine reads_advance ((skipWs_reads hnext spare).bind fun pos₁ h₁ => reads_peek ?_)
  cases hs : Json.skipWs s with
  | nil =>
      rw [hs] at h₁
      rw [h₁.none, if_neg (by simp)]
      exact reads_loop h₁ fun n hn => members_reads hagree hsound n 0 [] pos₁ [] hn
        (Nat.le_refl 0) h₁
  | cons c rest =>
      rw [hs] at h₁
      have hclose : (some (firstByte c) = some (0x7D : UInt8)) ↔ c = '}' := by
        rw [Option.some_inj]
        exact firstByte_iff (k := '}') (by decide)
      rw [h₁.byte]
      dsimp only
      by_cases hc : c = '}'
      · rw [if_pos (hclose.mpr hc), if_pos hc]
        exact reads_advance (reads_pure (h₁.ascii (by rw [hc]; decide)))
      · rw [if_neg (mt hclose.mp hc), if_neg hc]
        exact reads_loop h₁ fun n hn => members_reads hagree hsound n _ _ pos₁ [] hn
          (Nat.le_refl _) h₁

end Containers

/-- A literal and the value it stands for. -/
theorem word_reads {w : List Char} (hw : (w.all fun c => decide (c.toNat < 128)) = true)
    (v : Json.Value F) (h : At cs pos s) :
    Reads cs pos (lit (asBytes w) >>= fun _ => pure v)
      ((Json.lit w s).map fun rest => (v, rest)) := by
  have hlit := lit_reads (fun c hc => of_decide_eq_true (List.all_eq_true.mp hw c hc)) h
  cases hword : Json.lit w s with
  | none =>
      rw [hword] at hlit
      exact hlit.bind_none
  | some rest =>
      rw [hword] at hlit
      exact hlit.bind fun pos' hat => reads_pure hat

theorem value_reads (f : Json.F64 F) (spare calls : Nat) :
    ∀ (depth room : Nat), depth + room = 65 → room < calls →
      Agree cs (value f spare calls depth) (Json.value f room) := by
  induction calls with
  | zero => exact fun depth room _ hcalls => absurd hcalls (Nat.not_lt_zero _)
  | succ calls ih =>
      intro depth room hdepth hcalls pos s h
      have hmax : Json.maxDepth = 64 := rfl
      unfold value
      refine reads_enter ?_
      cases room with
      | zero =>
          rw [if_pos (by omega)]
          exact reads_refuse
      | succ room =>
          rw [if_neg (by omega)]
          refine reads_peek ?_
          cases s with
          | nil =>
              rw [h.none]
              exact reads_none
          | cons c s =>
              have hagree : Agree cs (value f spare calls (depth + 1)) (Json.value f room) :=
                ih (depth + 1) room (by omega) (by omega)
              have hsound := Json.value_sound f room
              rw [h.byte, Json.value]
              refine reads_some ?_
              have hbrace : firstByte c = 0x7B ↔ c = '{' := firstByte_iff (k := '{') (by decide)
              by_cases hc : c = '{'
              · rw [if_pos (hbrace.mpr hc), if_pos hc]
                exact object_reads hagree hsound (hc ▸ h)
              rw [if_neg (mt hbrace.mp hc), if_neg hc]
              have hbracket : firstByte c = 0x5B ↔ c = '[' := firstByte_iff (k := '[') (by decide)
              by_cases hc : c = '['
              · rw [if_pos (hbracket.mpr hc), if_pos hc]
                exact array_reads hagree hsound (by cases room <;> rfl) (hc ▸ h)
              rw [if_neg (mt hbracket.mp hc), if_neg hc]
              have hquote : firstByte c = 0x22 ↔ c = '"' := firstByte_iff (k := '"') (by decide)
              by_cases hc : c = '"'
              · rw [if_pos (hquote.mpr hc), if_pos hc]
                have hstring := string_reads (hc ▸ h) spare
                cases htext : Json.string s with
                | none =>
                    rw [htext] at hstring
                    exact hstring.bind_none
                | some out =>
                    rw [htext] at hstring
                    exact hstring.bind fun pos' hat => reads_pure hat
              rw [if_neg (mt hquote.mp hc), if_neg hc]
              have htrue : firstByte c = 0x74 ↔ c = 't' := firstByte_iff (k := 't') (by decide)
              by_cases hc : c = 't'
              · rw [if_pos (htrue.mpr hc), if_pos hc]
                exact word_reads (w := ['t', 'r', 'u', 'e']) (by decide) _ h
              rw [if_neg (mt htrue.mp hc), if_neg hc]
              have hfalse : firstByte c = 0x66 ↔ c = 'f' := firstByte_iff (k := 'f') (by decide)
              by_cases hc : c = 'f'
              · rw [if_pos (hfalse.mpr hc), if_pos hc]
                exact word_reads (w := ['f', 'a', 'l', 's', 'e']) (by decide) _ h
              rw [if_neg (mt hfalse.mp hc), if_neg hc]
              have hnull : firstByte c = 0x6E ↔ c = 'n' := firstByte_iff (k := 'n') (by decide)
              by_cases hc : c = 'n'
              · rw [if_pos (hnull.mpr hc), if_pos hc]
                exact word_reads (w := ['n', 'u', 'l', 'l']) (by decide) _ h
              rw [if_neg (mt hnull.mp hc), if_neg hc]
              have hminus : firstByte c = 0x2D ↔ c = '-' := firstByte_iff (k := '-') (by decide)
              have hnumber : (firstByte c = 0x2D ∨ isDigit (firstByte c) = true) ↔
                  (c = '-' ∨ c.isDigit = true) := by
                rw [hminus, isDigit_firstByte]
              by_cases hc : c = '-' ∨ c.isDigit = true
              · rw [if_pos (hnumber.mpr hc), if_pos hc]
                exact number_reads f hc h spare
              · rw [if_neg (mt hnumber.mp hc), if_neg hc]
                exact reads_refuse

/-- **Both parsers agree**: the one over bytes ends with the value that the one over
characters gives, at the end of the text, and is refused where that one fails. -/
theorem parse_reads (f : Json.F64 F) (spare : Nat) (text : String) :
    (parse f spare text).2 =
      (Json.parse f text).elim .refused fun v => .done v (asBytes text.toList).length := by
  have hstart : At text.toList 0 text.toList := ⟨[], rfl, rfl⟩
  have hdocument : Reads text.toList 0 (document f spare)
      ((Json.parse f text).map fun v => (v, [])) := by
    unfold document Json.parse
    refine (skipWs_reads hstart spare).bind fun pos₁ h₁ => ?_
    have hvalue := value_reads f spare (Json.maxDepth + 2 + spare) 0 (Json.maxDepth + 1) rfl
      (by omega) pos₁ _ h₁
    cases hread : Json.value f (Json.maxDepth + 1) (Json.skipWs text.toList) with
    | none =>
        rw [hread] at hvalue
        exact hvalue.bind_none
    | some found =>
        obtain ⟨v, rest⟩ := found
        rw [hread] at hvalue
        refine hvalue.bind fun pos₂ h₂ => ?_
        refine (skipWs_reads h₂ spare).bind fun pos₃ h₃ => ?_
        refine reads_position (reads_length ?_)
        dsimp only
        by_cases hrest : Json.skipWs rest = []
        · rw [if_neg (mt h₃.atEnd.mp (not_not_intro hrest)), if_pos hrest]
          rw [hrest] at h₃
          exact reads_pure h₃
        · rw [if_pos (h₃.atEnd.mpr hrest), if_neg hrest]
          exact reads_refuse
  unfold parse
  cases hparse : Json.parse f text with
  | none =>
      rw [hparse] at hdocument
      exact hdocument
  | some v =>
      rw [hparse] at hdocument
      obtain ⟨pos', hat, hend⟩ := hdocument
      have hpos : pos' = (asBytes text.toList).length := hat.place
      rw [hend, hpos]
      rfl

end Calcar.Agent.JsonBytes
