import Calcar.Agent.Adapters

/-!
# Text from bytes that may not be UTF-8

`from_utf8_lossy` reads the bytes character by character and puts U+FFFD where a
sequence breaks off.  A byte below 128 is always a character of its own, whatever
is around it, and what is UTF-8 is read back as it was.

## Main results

* `lossyText_append` — a byte below 128 is decoded apart from what is around it.
* `lossyText_split` — the lines of the decoded text are the decoded lines.
* `asciiCount_lossyText` — the ASCII characters are the bytes below 128.
* `lossyText_encoded` — encoded text is read back.
-/

namespace Calcar.Agent

open Lib

/-! ## ASCII bytes and decoding -/

/-- The code points that a first byte leaves over. -/
theorem secondOf_tops {b c : UInt8} (h : secondOf b c = true) :
    128 ≤ c.toNat ∧ (b.toNat = 0xED → lowSix c < 32) ∧ (b.toNat = 0xF4 → lowSix c < 16) := by
  unfold secondOf at h
  unfold lowSix
  refine ⟨?_, ?_, ?_⟩
  · split at h
    all_goals
      simp [isContinuation] at h
      omega
  · intro hb
    rw [hb] at h
    simp at h
    omega
  · intro hb
    rw [hb] at h
    simp at h
    omega

theorem isContinuation_high {c : UInt8} (h : isContinuation c = true) : 128 ≤ c.toNat := by
  simp [isContinuation] at h
  omega

theorem secondOf_low (b : UInt8) {c : UInt8} (hc : c.toNat < 128) : secondOf b c = false :=
  Bool.eq_false_iff.mpr fun h => Nat.not_lt.mpr (secondOf_tops h).1 hc

theorem isContinuation_low {c : UInt8} (hc : c.toNat < 128) : isContinuation c = false :=
  Bool.eq_false_iff.mpr fun h => Nat.not_lt.mpr (isContinuation_high h) hc

/-- A byte below 128 belongs to no other character. -/
theorem lossyChar_append (x : UInt8) (a : Bytes) {c : UInt8} (hc : c.toNat < 128) (b : Bytes) :
    lossyChar x (a ++ c :: b) = ((lossyChar x a).1, (lossyChar x a).2 ++ c :: b) := by
  have hsecond := secondOf_low x hc
  have hcont := isContinuation_low hc
  unfold lossyChar
  rcases a with _ | ⟨c, _ | ⟨d, _ | ⟨e, more⟩⟩⟩ <;>
    simp only [List.nil_append, List.cons_append] <;>
    grind

theorem lossyChar_suffix (x : UInt8) (a : Bytes) : (lossyChar x a).2 <:+ a := by
  unfold lossyChar
  rcases a with _ | ⟨c, _ | ⟨d, _ | ⟨e, more⟩⟩⟩ <;> grind [List.suffix_cons]

theorem ofNat_ne_newline {n : Nat} (h : n ≠ 10) : Char.ofNat n ≠ '\n' := by
  intro heq
  have hten : (Char.ofNat n).toNat = 10 := by rw [heq]; rfl
  unfold Char.ofNat at hten
  by_cases hvalid : n.isValidChar
  · rw [dif_pos hvalid] at hten
    exact h hten
  · rw [dif_neg hvalid] at hten
    exact absurd hten (by decide)

/-- No character is written with more bytes than it needs. -/
theorem secondOf_bounds {b c : UInt8} (h : secondOf b c = true) :
    (b.toNat = 0xE0 → 32 ≤ lowSix c) ∧ (b.toNat = 0xF0 → 16 ≤ lowSix c) := by
  unfold secondOf at h
  unfold lowSix
  constructor
  · intro hb
    rw [hb] at h
    simp at h
    omega
  · intro hb
    rw [hb] at h
    simp at h
    omega

/-- Only the byte of a newline is decoded to one. -/
theorem lossyChar_ne (x : UInt8) (a : Bytes) (hx : x ≠ newline) : (lossyChar x a).1 ≠ '\n' := by
  have hx10 : x.toNat ≠ 10 := fun h => hx (UInt8.toNat_inj.mp h)
  have hrep : replacement ≠ '\n' := by decide
  unfold lossyChar
  rcases a with _ | ⟨c, _ | ⟨d, _ | ⟨e, more⟩⟩⟩ <;> simp only <;> (repeat' split) <;>
    first
    | exact hrep
    | apply ofNat_ne_newline
      grind [secondOf_bounds, lowSix]

/-- The characters of some bytes. -/
def lossyText (a : Bytes) : List Char := lossyChars a.length a

theorem lossyChars_enough (n : Nat) : ∀ (m : Nat) (a : Bytes), a.length ≤ n → a.length ≤ m →
    lossyChars n a = lossyChars m a := by
  induction n with
  | zero =>
      intro m a hn _
      rw [List.length_eq_zero_iff.mp (Nat.le_zero.mp hn)]
      cases m with
      | zero => rfl
      | succ m => rfl
  | succ n ih =>
      intro m a hn hm
      cases a with
      | nil =>
          cases m with
          | zero => rfl
          | succ m => rfl
      | cons x a =>
          have hlength := (lossyChar_suffix x a).length_le
          rw [List.length_cons] at hn hm
          cases m with
          | zero => omega
          | succ m => rw [lossyChars, lossyChars, ih m _ (by omega) (by omega)]

theorem lossyText_cons (x : UInt8) (a : Bytes) :
    lossyText (x :: a) = (lossyChar x a).1 :: lossyText (lossyChar x a).2 := by
  have hlength := (lossyChar_suffix x a).length_le
  rw [lossyText, lossyText, List.length_cons, lossyChars,
    lossyChars_enough _ _ _ hlength (Nat.le_refl _)]

theorem lossyText_eq_nil {a : Bytes} : lossyText a = [] ↔ a = [] := by
  cases a with
  | nil => exact ⟨fun _ => rfl, fun _ => rfl⟩
  | cons x a => simp [lossyText_cons]

theorem lossyChar_low (x : UInt8) (a : Bytes) (hx : x.toNat < 128) :
    lossyChar x a = (Char.ofNat x.toNat, a) := by
  unfold lossyChar
  exact if_pos hx

/-- **A byte below 128 is decoded apart from what is around it.** -/
theorem lossyText_append (n : Nat) {c : UInt8} (hc : c.toNat < 128) (b : Bytes) :
    ∀ a : Bytes, a.length ≤ n →
      lossyText (a ++ c :: b) = lossyText a ++ Char.ofNat c.toNat :: lossyText b := by
  induction n with
  | zero =>
      intro a ha
      rw [List.length_eq_zero_iff.mp (Nat.le_zero.mp ha), List.nil_append, lossyText_cons,
        lossyChar_low c b hc]
      rfl
  | succ n ih =>
      intro a ha
      cases a with
      | nil =>
          rw [List.nil_append, lossyText_cons, lossyChar_low c b hc]
          rfl
      | cons x a =>
          have hlength := (lossyChar_suffix x a).length_le
          rw [List.length_cons] at ha
          rw [List.cons_append, lossyText_cons, lossyChar_append x a hc, lossyText_cons,
            ih (lossyChar x a).2 (by omega), List.cons_append]

theorem lossyText_noNewline (n : Nat) : ∀ a : Bytes, a.length ≤ n → newline ∉ a →
    '\n' ∉ lossyText a := by
  induction n with
  | zero =>
      intro a ha _
      rw [List.length_eq_zero_iff.mp (Nat.le_zero.mp ha)]
      exact List.not_mem_nil
  | succ n ih =>
      intro a ha hmem
      cases a with
      | nil => exact List.not_mem_nil
      | cons x a =>
          have hsuffix := lossyChar_suffix x a
          have hrest : newline ∉ (lossyChar x a).2 := fun h =>
            hmem (List.mem_cons_of_mem x (hsuffix.subset h))
          have hfirst := lossyChar_ne x a fun h => hmem (h ▸ List.mem_cons_self)
          have hlength := hsuffix.length_le
          rw [List.length_cons] at ha
          rw [lossyText_cons, List.mem_cons]
          rintro (heq | hlater)
          · exact hfirst heq.symm
          · exact ih _ (by omega) hrest hlater

/-- **The lines of the decoded text are the decoded lines.** -/
theorem lossyText_split (n : Nat) : ∀ bytes : Bytes, bytes.length ≤ n →
    Lines.split '\n' (lossyText bytes) =
      ((Lines.split newline bytes).1.map lossyText, lossyText (Lines.split newline bytes).2) := by
  induction n with
  | zero =>
      intro bytes hn
      rw [List.length_eq_zero_iff.mp (Nat.le_zero.mp hn)]
      rfl
  | succ n ih =>
      intro bytes hn
      by_cases hmem : newline ∈ bytes
      · obtain ⟨line, rest, rfl, hline⟩ := List.eq_append_cons_of_mem hmem
        have hlength : rest.length ≤ n := by
          simp at hn
          omega
        have happend : lossyText (line ++ newline :: rest) =
            lossyText line ++ '\n' :: lossyText rest :=
          lossyText_append line.length (by decide) rest line (Nat.le_refl _)
        rw [happend, Lines.split_line (lossyText_noNewline _ line (Nat.le_refl _) hline),
          Lines.split_line hline, ih rest hlength]
        rfl
      · rw [Lines.split_none hmem,
          Lines.split_none (lossyText_noNewline _ bytes (Nat.le_refl _) hmem)]
        rfl

/-! ## ASCII -/

/-- The bytes below 128. -/
def lowCount (bs : Bytes) : Nat := bs.countP fun b => decide (b.toNat < 128)

/-- The ASCII characters. -/
def asciiCount (cs : List Char) : Nat := cs.countP fun c => decide (c.toNat < 128)

theorem ofNat_high {n : Nat} (h : 128 ≤ n) (hv : n < 0xD800 ∨ 0xDFFF < n ∧ n < 0x110000) :
    128 ≤ (Char.ofNat n).toNat := by
  have hvalid : n.isValidChar := hv
  rw [Char.ofNat, dif_pos hvalid]
  exact h

theorem lowCount_cons_high {x : UInt8} {a : Bytes} (hx : 128 ≤ x.toNat) :
    lowCount (x :: a) = lowCount a := by
  unfold lowCount
  rw [List.countP_cons_of_neg]
  simp
  omega

/-- A byte from 128 on begins no ASCII character and takes none with it. -/
theorem lossyChar_high (x : UInt8) (a : Bytes) (hx : 128 ≤ x.toNat) :
    128 ≤ (lossyChar x a).1.toNat ∧ lowCount (lossyChar x a).2 = lowCount a := by
  have hrep : 128 ≤ replacement.toNat := by decide
  unfold lossyChar
  constructor
  · rcases a with _ | ⟨c, _ | ⟨d, _ | ⟨e, more⟩⟩⟩ <;> simp only <;> (repeat' split) <;>
      first
      | exact hrep
      | omega
      | apply ofNat_high
        · grind [secondOf_bounds, lowSix]
        · grind [secondOf_bounds, secondOf_tops, lowSix]
  · rcases a with _ | ⟨c, _ | ⟨d, _ | ⟨e, more⟩⟩⟩ <;>
      grind [secondOf_tops, isContinuation_high, lowCount_cons_high]

/-- **The ASCII characters are the bytes below 128.** -/
theorem asciiCount_lossyText (n : Nat) :
    ∀ a : Bytes, a.length ≤ n → asciiCount (lossyText a) = lowCount a := by
  induction n with
  | zero =>
      intro a ha
      rw [List.length_eq_zero_iff.mp (Nat.le_zero.mp ha)]
      rfl
  | succ n ih =>
      intro a ha
      cases a with
      | nil => rfl
      | cons x a =>
          have hlength := (lossyChar_suffix x a).length_le
          rw [List.length_cons] at ha
          have hrest := ih (lossyChar x a).2 (by omega)
          rw [lossyText_cons]
          by_cases hx : x.toNat < 128
          · have hvalid : x.toNat.isValidChar := .inl (by omega)
            have hfirst : (Char.ofNat x.toNat).toNat = x.toNat := by
              rw [Char.ofNat, dif_pos hvalid]
              rfl
            rw [lossyChar_low x a hx] at hrest ⊢
            unfold asciiCount lowCount at hrest ⊢
            rw [List.countP_cons_of_pos (by simpa [hfirst] using hx),
              List.countP_cons_of_pos (by simpa using hx), hrest]
          · have hhigh := lossyChar_high x a (by omega)
            rw [lowCount_cons_high (by omega), ← hhigh.2, ← hrest]
            unfold asciiCount
            rw [List.countP_cons_of_neg]
            simp
            omega

/-! ## Encoded text -/

theorem toNat_byte {n : Nat} (h : n < 256) : (UInt8.ofNat n).toNat = n := by
  rw [UInt8.toNat_ofNat', Nat.mod_eq_of_lt h]

theorem lossyChar_two {x y : UInt8} (more : Bytes) (hx : 0xC2 ≤ x.toNat ∧ x.toNat ≤ 0xDF)
    (hy : isContinuation y = true) :
    lossyChar x (y :: more) = (Char.ofNat (x.toNat % 32 * 64 + lowSix y), more) := by
  unfold lossyChar
  rw [if_neg (by omega), if_pos hx]
  simp [hy]

theorem lossyChar_three {x y z : UInt8} (more : Bytes) (hx : 0xE0 ≤ x.toNat ∧ x.toNat ≤ 0xEF)
    (hy : secondOf x y = true) (hz : isContinuation z = true) :
    lossyChar x (y :: z :: more) =
      (Char.ofNat ((x.toNat % 16 * 64 + lowSix y) * 64 + lowSix z), more) := by
  unfold lossyChar
  rw [if_neg (by omega), if_neg (by omega), if_pos hx]
  simp [hy, hz]

theorem lossyChar_four {x y z t : UInt8} (more : Bytes) (hx : 0xF0 ≤ x.toNat ∧ x.toNat ≤ 0xF4)
    (hy : secondOf x y = true) (hz : isContinuation z = true) (ht : isContinuation t = true) :
    lossyChar x (y :: z :: t :: more) =
      (Char.ofNat (((x.toNat % 8 * 64 + lowSix y) * 64 + lowSix z) * 64 + lowSix t), more) := by
  unfold lossyChar
  rw [if_neg (by omega), if_neg (by omega), if_neg (by omega), if_pos hx]
  simp [hy, hz, ht]

theorem isContinuation_byte {n : Nat} (h : n < 64) :
    isContinuation (UInt8.ofNat (n + 128)) = true ∧ lowSix (UInt8.ofNat (n + 128)) = n := by
  unfold isContinuation lowSix
  rw [toNat_byte (by omega), beq_iff_eq]
  constructor <;> omega

/-- The second byte of a longer sequence, where it is in range. -/
theorem secondOf_byte {b : UInt8} {n : Nat} (h : n < 64) (h₁ : b.toNat = 0xE0 → 32 ≤ n)
    (h₂ : b.toNat = 0xED → n < 32) (h₃ : b.toNat = 0xF0 → 16 ≤ n) (h₄ : b.toNat = 0xF4 → n < 16) :
    secondOf b (UInt8.ofNat (n + 128)) = true := by
  unfold secondOf
  simp only [toNat_byte (show n + 128 < 256 by omega)]
  split
  · rename_i hb
    have := h₁ hb
    simp
    omega
  · rename_i hb
    have := h₂ hb
    simp
    omega
  · rename_i hb
    have := h₃ hb
    simp
    omega
  · rename_i hb
    have := h₄ hb
    simp
    omega
  · exact (isContinuation_byte h).1

/-- An encoded character is read back, whatever follows it. -/
theorem lossyText_encode (c : Char) (rest : Bytes) :
    lossyText (String.utf8EncodeChar c ++ rest) = c :: lossyText rest := by
  have hvalid : c.val.toNat < 0xD800 ∨ 0xDFFF < c.val.toNat ∧ c.val.toNat < 0x110000 := c.valid
  have hback : Char.ofNat c.val.toNat = c := Char.ofNat_toNat c
  unfold String.utf8EncodeChar
  generalize hn : c.val.toNat = n at *
  simp only
  by_cases h₁ : n ≤ 0x7f
  · rw [if_pos h₁, List.singleton_append, lossyText_cons,
      lossyChar_low _ _ (by rw [toNat_byte (by omega)]; omega), toNat_byte (by omega), hback]
  rw [if_neg h₁]
  by_cases h₂ : n ≤ 0x7ff
  · obtain ⟨hy, hlow⟩ := isContinuation_byte (n := n % 64) (by omega)
    have hx : (UInt8.ofNat (n / 64 % 32 + 192)).toNat = n / 64 % 32 + 192 := toNat_byte (by omega)
    rw [if_pos h₂]
    simp only [List.cons_append, List.nil_append]
    rw [lossyText_cons, lossyChar_two rest (by rw [hx]; omega) hy, hx, hlow]
    have hsum : (n / 64 % 32 + 192) % 32 * 64 + n % 64 = n := by omega
    rw [hsum, hback]
  rw [if_neg h₂]
  by_cases h₃ : n ≤ 0xffff
  · obtain ⟨hz, hlowz⟩ := isContinuation_byte (n := n % 64) (by omega)
    obtain ⟨-, hlowy⟩ := isContinuation_byte (n := n / 64 % 64) (by omega)
    have hx : (UInt8.ofNat (n / 4096 % 16 + 224)).toNat = n / 4096 % 16 + 224 :=
      toNat_byte (by omega)
    have hy : secondOf (UInt8.ofNat (n / 4096 % 16 + 224)) (UInt8.ofNat (n / 64 % 64 + 128)) =
        true := by
      apply secondOf_byte (by omega) <;> rw [hx] <;> omega
    rw [if_pos h₃]
    simp only [List.cons_append, List.nil_append]
    rw [lossyText_cons, lossyChar_three rest (by rw [hx]; omega) hy hz, hx, hlowy, hlowz]
    have hsum : ((n / 4096 % 16 + 224) % 16 * 64 + n / 64 % 64) * 64 + n % 64 = n := by omega
    rw [hsum, hback]
  · obtain ⟨ht, hlowt⟩ := isContinuation_byte (n := n % 64) (by omega)
    obtain ⟨hz, hlowz⟩ := isContinuation_byte (n := n / 64 % 64) (by omega)
    obtain ⟨-, hlowy⟩ := isContinuation_byte (n := n / 4096 % 64) (by omega)
    have hx : (UInt8.ofNat (n / 262144 % 8 + 240)).toNat = n / 262144 % 8 + 240 :=
      toNat_byte (by omega)
    have hy : secondOf (UInt8.ofNat (n / 262144 % 8 + 240)) (UInt8.ofNat (n / 4096 % 64 + 128)) =
        true := by
      apply secondOf_byte (by omega) <;> rw [hx] <;> omega
    rw [if_neg h₃]
    simp only [List.cons_append, List.nil_append]
    rw [lossyText_cons, lossyChar_four rest (by rw [hx]; omega) hy hz ht, hx, hlowy, hlowz, hlowt]
    have hsum : (((n / 262144 % 8 + 240) % 8 * 64 + n / 4096 % 64) * 64 + n / 64 % 64) * 64 +
        n % 64 = n := by omega
    rw [hsum, hback]

/-- **Encoded text is read back.** -/
theorem lossyText_encoded (cs : List Char) :
    lossyText (cs.flatMap String.utf8EncodeChar) = cs := by
  induction cs with
  | nil => rfl
  | cons c cs ih => rw [List.flatMap_cons, lossyText_encode, ih]

end Calcar.Agent
