import Calcar.Lib.Utf8

/-!
# The newest characters that fit

A text is cut to its newest bytes, and the cut is moved on to where a character starts.  What
is left is the longest end of the text that fits.

## Main results

* `encode_shape` — the bytes of a character that do not start it are told by themselves.
* `newest_cut` — what is left is the newest that fits.
-/

namespace Calcar.Lib.Utf8

/-- A byte that does not start a character. -/
def continues (b : UInt8) : Bool := b.toNat / 64 == 2

theorem continues_byte {n k : Nat} (h : n + k < 256) :
    continues (UInt8.ofNat (n + k)) = ((n + k) / 64 == 2) := by
  rw [continues, UInt8.toNat_ofNat', Nat.mod_eq_of_lt h]

/-- **Only the first byte of a character starts one.** -/
theorem encode_shape (c : Char) : ∃ b more, String.utf8EncodeChar c = b :: more ∧
    continues b = false ∧ ∀ x ∈ more, continues x = true := by
  unfold String.utf8EncodeChar
  generalize c.val.toNat = n
  simp only
  have hcont (m : Nat) (h : m < 64) : continues (UInt8.ofNat (m + 128)) = true := by
    rw [continues_byte (by omega), beq_iff_eq]
    omega
  have hstart (m k : Nat) (hk : 192 ≤ k) (h : m + k < 256) :
      continues (UInt8.ofNat (m + k)) = false := by
    rw [continues_byte h, beq_eq_false_iff_ne]
    omega
  by_cases h₁ : n ≤ 0x7f
  · refine ⟨_, [], if_pos h₁, ?_, fun x hx => nomatch hx⟩
    rw [continues, UInt8.toNat_ofNat', Nat.mod_eq_of_lt (by omega), beq_eq_false_iff_ne]
    omega
  rw [if_neg h₁]
  by_cases h₂ : n ≤ 0x7ff
  · refine ⟨_, _, if_pos h₂, hstart _ _ (by omega) (by omega), fun x hx => ?_⟩
    rw [List.mem_singleton.mp hx]
    exact hcont _ (by omega)
  rw [if_neg h₂]
  by_cases h₃ : n ≤ 0xffff
  · refine ⟨_, _, if_pos h₃, hstart _ _ (by omega) (by omega), fun x hx => ?_⟩
    simp only [List.mem_cons, List.not_mem_nil, or_false] at hx
    rcases hx with rfl | rfl
    · exact hcont _ (by omega)
    · exact hcont _ (by omega)
  · refine ⟨_, _, if_neg h₃, hstart _ _ (by omega) (by omega), fun x hx => ?_⟩
    simp only [List.mem_cons, List.not_mem_nil, or_false] at hx
    rcases hx with rfl | rfl | rfl
    · exact hcont _ (by omega)
    · exact hcont _ (by omega)
    · exact hcont _ (by omega)

/-- An encoded text does not begin within a character. -/
theorem dropWhile_encoded (cs : List Char) : (asBytes cs).dropWhile continues = asBytes cs := by
  cases cs with
  | nil => rfl
  | cons c cs =>
      rcases encode_shape c with ⟨b, more, henc, hstart, -⟩
      rw [asBytes_cons, henc, List.cons_append, List.dropWhile_cons_of_neg (by simp [hstart])]

/-- The newest characters of a text that fit. -/
structure Newest (max : Nat) (text kept : List Char) : Prop where
  suffix : kept <:+ text
  fits : (asBytes kept).length ≤ max
  longest : ∀ more, more <:+ text → (asBytes more).length ≤ max → more <:+ kept

theorem Newest.whole {max : Nat} {text : List Char} (h : (asBytes text).length ≤ max) :
    Newest max text text :=
  ⟨List.suffix_rfl, h, fun _ hmore _ => hmore⟩

/-- What is not the whole text misses the limit by less than a character. -/
theorem Newest.nearly {max : Nat} {text kept : List Char} (h : Newest max text kept)
    (hcut : kept ≠ text) : max ≤ (asBytes kept).length + 3 := by
  rcases h.suffix with ⟨front, hfront⟩
  have hne : front ≠ [] := by
    intro he
    rw [he] at hfront
    exact hcut hfront
  have hsplit : front.dropLast ++ front.getLast hne :: kept = text := by
    rw [← hfront]
    conv_rhs => rw [← List.dropLast_append_getLast hne]
    rw [List.append_assoc, List.singleton_append]
  by_contra hfar
  have hsize : (asBytes (front.getLast hne :: kept)).length ≤ (asBytes kept).length + 4 := by
    have hchar := Char.utf8Size_le_four (front.getLast hne)
    rw [asBytes_cons, List.length_append, String.length_utf8EncodeChar]
    omega
  have hlonger := h.longest _ ⟨_, hsplit⟩ (by omega)
  have hlen := hlonger.length_le
  rw [List.length_cons] at hlen
  omega

/-- **The cut.**  Without the first `n` bytes, and without what is left of a character then,
a text ends in its newest characters that fit in the rest. -/
theorem newest_cut (text : List Char) (n : Nat) (hn : n ≤ (asBytes text).length) :
    ∃ kept, ((asBytes text).drop n).dropWhile continues = asBytes kept ∧
      Newest ((asBytes text).length - n) text kept := by
  induction text generalizing n with
  | nil => exact ⟨[], by simp [asBytes], .whole (by simp [asBytes])⟩
  | cons c cs ih =>
      rcases Nat.eq_zero_or_pos n with rfl | hpos
      · exact ⟨c :: cs, by rw [List.drop_zero, dropWhile_encoded], .whole (by omega)⟩
      rcases encode_shape c with ⟨b, more, henc, -, hmore⟩
      have hbytes : asBytes (c :: cs) = (b :: more) ++ asBytes cs := by rw [asBytes_cons, henc]
      have hlength : (asBytes (c :: cs)).length = more.length + 1 + (asBytes cs).length := by
        rw [hbytes, List.length_append, List.length_cons]
      -- an end with the first character in it is the whole text
      have hend {more' : List Char} (h : more' <:+ c :: cs) (hne : more' ≠ c :: cs) :
          more' <:+ cs := (List.suffix_cons_iff.mp h).resolve_left hne
      by_cases hwithin : n ≤ more.length + 1
      · have hdropped : ((asBytes (c :: cs)).drop n).dropWhile continues = asBytes cs := by
          rw [hbytes, List.drop_append_of_le_length (by simpa using hwithin)]
          have htail : ∀ x ∈ (b :: more).drop n, continues x = true := by
            intro x hx
            rcases Nat.exists_eq_succ_of_ne_zero (Nat.pos_iff_ne_zero.mp hpos) with ⟨k, rfl⟩
            exact hmore x (List.mem_of_mem_drop hx)
          rw [List.dropWhile_append_of_pos htail, dropWhile_encoded]
        refine ⟨cs, hdropped, List.suffix_cons _ _, by omega, fun more' h hfits => ?_⟩
        apply hend h
        intro he
        rw [he] at hfits
        omega
      · have hrest : n - (more.length + 1) ≤ (asBytes cs).length := by omega
        rcases ih _ hrest with ⟨kept, hkept, hnewest⟩
        have hsize : (asBytes (c :: cs)).length - n =
            (asBytes cs).length - (n - (more.length + 1)) := by omega
        have hdrop : (asBytes (c :: cs)).drop n = (asBytes cs).drop (n - (more.length + 1)) := by
          rw [hbytes, List.drop_append, List.drop_eq_nil_of_le (by simp; omega), List.nil_append,
            List.length_cons]
        refine ⟨kept, by rw [hdrop, hkept], hnewest.suffix.trans (List.suffix_cons _ _),
          hsize ▸ hnewest.fits, fun more' h hfits => ?_⟩
        rw [hsize] at hfits
        apply hnewest.longest more' (hend h fun he => ?_) hfits
        rw [he] at hfits
        omega

end Calcar.Lib.Utf8
