import Mathlib.Data.List.Infix
import Calcar.Text

/-!
# UTF-8

The bytes of a text, and the positions in them that lie between two characters.  A byte
below 128 is a character of its own, so moving over such bytes leads from one boundary
to the next.

## Main results

* `fromUtf8_asBytes`, `asBytes_fromUtf8` — decoding undoes encoding, and the other way round.
* `Boundary.ascii` — moving over ASCII bytes.
* `firstByte_test` — a test of a byte stands for a test of the character.
* `ascii_start` — a text that starts with ASCII bytes starts with the characters.
-/

namespace Calcar.Lib.Utf8

variable {cs s : List Char} {pos : Nat}

/-- `as_bytes`. -/
def asBytes (cs : List Char) : Bytes := cs.flatMap String.utf8EncodeChar

/-- `from_utf8`. -/
def fromUtf8 (bs : Bytes) : Option (List Char) := bs.toByteArray.utf8Decode?.map Array.toList

/-! ## Encoding and decoding -/

theorem asBytes_cons (c : Char) (cs : List Char) :
    asBytes (c :: cs) = String.utf8EncodeChar c ++ asBytes cs := List.flatMap_cons

theorem asBytes_append (a b : List Char) : asBytes (a ++ b) = asBytes a ++ asBytes b :=
  List.flatMap_append

theorem toNat_ofNat_ascii {n : Nat} (h : n < 128) : (Char.ofNat n).toNat = n := by
  have hvalid : n.isValidChar := .inl (by omega)
  rw [Char.ofNat, dif_pos hvalid]
  rfl

theorem utf8_ascii {c : Char} (h : c.toNat < 128) :
    String.utf8EncodeChar c = [UInt8.ofNat c.toNat] := by
  have hle : c.val.toNat ≤ 127 := Nat.le_of_lt_succ h
  unfold String.utf8EncodeChar
  exact if_pos hle

theorem utf8Size_ascii {c : Char} (h : c.toNat < 128) : c.utf8Size = 1 := by
  rw [← String.length_utf8EncodeChar, utf8_ascii h, List.length_singleton]

/-- A character whose first byte is below 128 is that byte. -/
theorem utf8Size_low {c : Char} {b : UInt8} {more : Bytes}
    (h : String.utf8EncodeChar c = b :: more) (hlow : b.toNat < 128) : c.utf8Size = 1 := by
  have hlength : (String.utf8EncodeChar c).length = c.utf8Size := String.length_utf8EncodeChar c
  unfold String.utf8EncodeChar at h hlength
  generalize c.val.toNat = n at h hlength
  simp only at h hlength
  by_cases h₁ : n ≤ 0x7f
  · rw [if_pos h₁] at hlength
    exact hlength.symm
  exfalso
  rw [if_neg h₁] at h
  have hhigh : ∀ m k : Nat, 128 ≤ k → k + m < 256 → ¬(UInt8.ofNat (m + k)).toNat < 128 := by
    intro m k hk hmk
    rw [UInt8.toNat_ofNat', Nat.mod_eq_of_lt (by omega)]
    omega
  by_cases h₂ : n ≤ 0x7ff
  · rw [if_pos h₂] at h
    cases h
    exact hhigh _ _ (by omega) (by omega) hlow
  rw [if_neg h₂] at h
  by_cases h₃ : n ≤ 0xffff
  · rw [if_pos h₃] at h
    cases h
    exact hhigh _ _ (by omega) (by omega) hlow
  · rw [if_neg h₃] at h
    cases h
    exact hhigh _ _ (by omega) (by omega) hlow

/-- A character takes a byte at least. -/
theorem length_asBytes (s : List Char) : s.length ≤ (asBytes s).length := by
  induction s with
  | nil => exact Nat.le_refl _
  | cons c s ih =>
      have hsize : 0 < c.utf8Size := c.utf8Size_pos
      rw [asBytes_cons, List.length_append, String.length_utf8EncodeChar, List.length_cons]
      omega

/-- The bytes of ASCII characters. -/
theorem asBytes_low {ds : List Char} (h : ∀ c ∈ ds, c.toNat < 128) :
    ∀ b ∈ asBytes ds, b.toNat < 128 := by
  intro b hb
  obtain ⟨c, hc, hbc⟩ := List.mem_flatMap.mp hb
  have hlow : c.toNat < 128 := h c hc
  rw [utf8_ascii hlow, List.mem_singleton] at hbc
  rw [hbc, UInt8.toNat_ofNat', Nat.mod_eq_of_lt (by omega)]
  exact hlow

theorem fromUtf8_asBytes (cs : List Char) : fromUtf8 (asBytes cs) = some cs := by
  have h : (asBytes cs).toByteArray = cs.utf8Encode := rfl
  rw [fromUtf8, h, List.utf8Decode?_utf8Encode]
  rfl

/-- What is decoded was encoded. -/
theorem asBytes_fromUtf8 {bs : Bytes} {ds : List Char} (h : fromUtf8 bs = some ds) :
    asBytes ds = bs := by
  unfold fromUtf8 at h
  cases hdecode : bs.toByteArray.utf8Decode? with
  | none =>
      rw [hdecode] at h
      cases h
  | some a =>
      rw [hdecode] at h
      cases h
      have hsome : bs.toByteArray.utf8Decode?.isSome = true := by rw [hdecode]; rfl
      have hback := ByteArray.utf8Encode_get_utf8Decode? (b := bs.toByteArray) (h := hsome)
      simp only [hdecode, Option.get_some] at hback
      have hlists := congrArg (fun bytes : ByteArray => bytes.data.toList) hback
      simpa [asBytes, List.utf8Encode] using hlists

/-! ## Boundaries -/

/-- The position lies between two characters of the text, or at an end of it. -/
def Boundary (cs : List Char) (pos : Nat) : Prop :=
  ∃ before after, cs = before ++ after ∧ pos = (asBytes before).length

theorem boundary_zero : Boundary cs 0 := ⟨[], cs, rfl, rfl⟩

/-- What is left of the text behind a boundary, and the boundary behind its first
character. -/
theorem Boundary.rest (h : Boundary cs pos) :
    ∃ after, (asBytes cs).drop pos = asBytes after ∧
      ∀ c more, after = c :: more → Boundary cs (pos + c.utf8Size) := by
  obtain ⟨before, after, rfl, rfl⟩ := h
  refine ⟨after, by rw [asBytes_append, List.drop_left], ?_⟩
  rintro c more rfl
  refine ⟨before ++ [c], more, by rw [List.append_assoc, List.singleton_append], ?_⟩
  rw [asBytes_append, List.length_append, asBytes_cons, List.length_append,
    String.length_utf8EncodeChar]
  rfl

theorem Boundary.le (h : Boundary cs pos) : pos ≤ (asBytes cs).length := by
  obtain ⟨before, after, rfl, rfl⟩ := h
  rw [asBytes_append, List.length_append]
  exact Nat.le_add_right _ _

theorem Boundary.byte {b : UInt8} (h : Boundary cs pos) (hb : (asBytes cs)[pos]? = some b)
    (hlow : b.toNat < 128) : Boundary cs (pos + 1) := by
  obtain ⟨after, hdrop, hnext⟩ := h.rest
  have hhead : (asBytes after).head? = some b := by rw [← hdrop, List.head?_drop, hb]
  cases after with
  | nil => cases hhead
  | cons c more =>
      obtain ⟨b', bs, henc⟩ := List.exists_cons_of_ne_nil (String.utf8EncodeChar_ne_nil (c := c))
      rw [asBytes_cons, henc] at hhead
      cases hhead
      rw [← utf8Size_low henc hlow]
      exact hnext c more rfl

/-- **To move over ASCII bytes** leads to a boundary. -/
theorem Boundary.ascii {word : Bytes} (h : Boundary cs pos)
    (hword : word <+: (asBytes cs).drop pos) (hlow : ∀ b ∈ word, b.toNat < 128) :
    Boundary cs (pos + word.length) := by
  induction word generalizing pos with
  | nil => exact h
  | cons b word ih =>
      obtain ⟨bs, hbs⟩ := hword
      have hb : (asBytes cs)[pos]? = some b := by
        rw [← List.head?_drop, ← hbs]
        rfl
      have hrest : word <+: (asBytes cs).drop (pos + 1) := by
        rw [← List.drop_drop, ← hbs]
        exact ⟨bs, rfl⟩
      have hnext := ih (h.byte hb (hlow b (List.mem_cons_self ..))) hrest
        fun b' hb' => hlow b' (List.mem_cons_of_mem b hb')
      rw [List.length_cons, Nat.add_comm word.length 1, ← Nat.add_assoc]
      exact hnext

/-! ## Positions in front of a text -/

/-- The position in front of some of the characters. -/
def At (cs : List Char) (pos : Nat) (after : List Char) : Prop :=
  ∃ before, cs = before ++ after ∧ pos = (asBytes before).length

theorem At.boundary {s : List Char} (h : At cs pos s) : Boundary cs pos := by
  obtain ⟨before, hcs, hpos⟩ := h
  exact ⟨before, s, hcs, hpos⟩

theorem At.drop {s : List Char} (h : At cs pos s) : (asBytes cs).drop pos = asBytes s := by
  obtain ⟨before, rfl, rfl⟩ := h
  rw [asBytes_append, List.drop_left]

theorem At.step {c : Char} {s : List Char} (h : At cs pos (c :: s)) :
    At cs (pos + c.utf8Size) s := by
  obtain ⟨before, rfl, rfl⟩ := h
  refine ⟨before ++ [c], by rw [List.append_assoc, List.singleton_append], ?_⟩
  rw [asBytes_append, List.length_append, asBytes_cons, List.length_append,
    String.length_utf8EncodeChar]
  rfl

theorem At.ascii {c : Char} {s : List Char} (h : At cs pos (c :: s)) (hc : c.toNat < 128) :
    At cs (pos + 1) s := by
  have hstep := h.step
  rwa [utf8Size_ascii hc] at hstep

theorem At.append {w : List Char} (h : At cs pos (w ++ s)) :
    At cs (pos + (asBytes w).length) s := by
  obtain ⟨before, rfl, rfl⟩ := h
  refine ⟨before ++ w, by rw [List.append_assoc], ?_⟩
  rw [asBytes_append, List.length_append]

theorem At.none (h : At cs pos []) : (asBytes cs)[pos]? = none := by
  rw [← List.head?_drop, h.drop]
  rfl

theorem At.place {s : List Char} (h : At cs pos s) :
    pos + (asBytes s).length = (asBytes cs).length := by
  obtain ⟨before, rfl, rfl⟩ := h
  rw [asBytes_append, List.length_append]

/-- The end of the text is where nothing is left. -/
theorem At.atEnd (h : At cs pos s) : pos ≠ (asBytes cs).length ↔ s ≠ [] := by
  have hplace := h.place
  have hlength := length_asBytes s
  rw [not_iff_not]
  constructor
  · intro hpos
    exact List.length_eq_zero_iff.mp (by omega)
  · rintro rfl
    exact hplace

/-- Outside ASCII every byte of a character is above 127. -/
theorem utf8_high {c : Char} (h : 128 ≤ c.toNat) :
    ∀ b ∈ String.utf8EncodeChar c, 128 ≤ b.toNat := by
  have hv : c.val.toNat = c.toNat := rfl
  have hfar : ¬c.val.toNat ≤ 127 := by omega
  unfold String.utf8EncodeChar
  simp only [hfar, if_false]
  intro b hb
  split at hb
  · simp only [List.mem_cons, List.not_mem_nil, or_false] at hb
    rcases hb with rfl | rfl <;> simp <;> omega
  · split at hb
    · simp only [List.mem_cons, List.not_mem_nil, or_false] at hb
      rcases hb with rfl | rfl | rfl <;> simp <;> omega
    · simp only [List.mem_cons, List.not_mem_nil, or_false] at hb
      rcases hb with rfl | rfl | rfl | rfl <;> simp <;> omega

/-- Only U+0000 has a zero byte. -/
theorem zero_mem_asBytes {cs : List Char} : 0 ∈ asBytes cs ↔ '\x00' ∈ cs := by
  have hchar (c : Char) : 0 ∈ String.utf8EncodeChar c ↔ '\x00' = c := by
    constructor
    · intro h
      by_cases hc : c.toNat < 128
      · rw [utf8_ascii hc, List.mem_singleton] at h
        have hzero : c.toNat = 0 := by
          have hnat := congrArg UInt8.toNat h
          rw [UInt8.toNat_ofNat', Nat.mod_eq_of_lt (by omega)] at hnat
          exact hnat.symm
        exact Char.toNat_inj.mp hzero.symm
      · exact absurd (utf8_high (Nat.not_lt.mp hc) 0 h) (by decide)
    · rintro rfl
      decide
  unfold asBytes
  rw [List.mem_flatMap]
  simp only [hchar, exists_eq_right']

/-! ## First bytes -/

/-- The byte a character starts with. -/
def firstByte (c : Char) : UInt8 := (String.utf8EncodeChar c).headD 0

theorem At.byte {c : Char} {s : List Char} (h : At cs pos (c :: s)) :
    (asBytes cs)[pos]? = some (firstByte c) := by
  rw [← List.head?_drop, h.drop, asBytes_cons, firstByte]
  obtain ⟨b, bs, henc⟩ := List.exists_cons_of_ne_nil (String.utf8EncodeChar_ne_nil (c := c))
  rw [henc]
  rfl

theorem firstByte_ascii {c : Char} (h : c.toNat < 128) : firstByte c = UInt8.ofNat c.toNat := by
  rw [firstByte, utf8_ascii h, List.headD_cons]

theorem firstByte_high {c : Char} (h : 128 ≤ c.toNat) : 128 ≤ (firstByte c).toNat := by
  obtain ⟨b, bs, henc⟩ := List.exists_cons_of_ne_nil (String.utf8EncodeChar_ne_nil (c := c))
  refine Nat.not_lt.mp fun hlow => ?_
  rw [firstByte, henc, List.headD_cons] at hlow
  have hone := utf8Size_low henc hlow
  rw [Char.utf8Size_eq_one_iff, UInt32.le_iff_toNat_le] at hone
  exact absurd (Nat.lt_succ_of_le hone) (Nat.not_lt.mpr h)

/-- A test of the first byte is a test of the character, where both fail outside
ASCII. -/
theorem firstByte_test {p : UInt8 → Bool} {q : Char → Bool}
    (hlow : ∀ n < 128, p (UInt8.ofNat n) = q (Char.ofNat n))
    (hp : ∀ b, p b = true → b.toNat < 128) (hq : ∀ c, q c = true → c.toNat < 128) (c : Char) :
    p (firstByte c) = q c := by
  by_cases hc : c.toNat < 128
  · rw [firstByte_ascii hc, hlow c.toNat hc, Char.ofNat_toNat]
  · have hpc : p (firstByte c) = false :=
      Bool.eq_false_iff.mpr fun h => absurd (hp _ h)
        (Nat.not_lt.mpr (firstByte_high (Nat.not_lt.mp hc)))
    have hqc : q c = false := Bool.eq_false_iff.mpr fun h => hc (hq c h)
    rw [hpc, hqc]

/-- The byte of an ASCII character starts that character only. -/
theorem firstByte_iff {c k : Char} (hk : k.toNat < 128) :
    firstByte c = UInt8.ofNat k.toNat ↔ c = k := by
  constructor
  · intro h
    by_cases hc : c.toNat < 128
    · rw [firstByte_ascii hc] at h
      have hnat := congrArg UInt8.toNat h
      rw [UInt8.toNat_ofNat', UInt8.toNat_ofNat', Nat.mod_eq_of_lt (by omega),
        Nat.mod_eq_of_lt (by omega)] at hnat
      exact Char.toNat_inj.mp hnat
    · have hhigh := firstByte_high (Nat.not_lt.mp hc)
      rw [h, UInt8.toNat_ofNat', Nat.mod_eq_of_lt (by omega)] at hhigh
      omega
  · rintro rfl
    exact firstByte_ascii hk

/-! ## ASCII text -/

theorem asBytes_ascii {c : Char} (h : c.toNat < 128) (w : List Char) :
    asBytes (c :: w) = firstByte c :: asBytes w := by
  rw [asBytes_cons, utf8_ascii h, firstByte_ascii h, List.singleton_append]

/-- Text that starts with the bytes of ASCII characters starts with the characters. -/
theorem ascii_start {w : List Char} (hw : ∀ c ∈ w, c.toNat < 128) :
    asBytes w <+: asBytes s → w <+: s := by
  induction w generalizing s with
  | nil => exact fun _ => List.nil_prefix
  | cons c w ih =>
      have hc : c.toNat < 128 := hw c (List.mem_cons_self ..)
      rw [asBytes_ascii hc]
      intro hpre
      cases s with
      | nil => exact absurd hpre (by simp [asBytes])
      | cons c' s =>
          have hfirst : firstByte c' = firstByte c := by
            obtain ⟨b, bs, henc⟩ :=
              List.exists_cons_of_ne_nil (String.utf8EncodeChar_ne_nil (c := c'))
            rw [asBytes_cons, henc, List.cons_append] at hpre
            rw [firstByte, henc, List.headD_cons]
            exact (List.cons_prefix_cons.mp hpre).1.symm
          rw [firstByte_ascii hc, firstByte_iff hc] at hfirst
          subst hfirst
          rw [asBytes_ascii hc] at hpre
          have hrest := ih (fun d hd => hw d (List.mem_cons_of_mem _ hd))
            (List.cons_prefix_cons.mp hpre).2
          exact List.cons_prefix_cons.mpr ⟨rfl, hrest⟩

end Calcar.Lib.Utf8
