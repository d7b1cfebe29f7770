import Mathlib.Data.Nat.Digits.Defs

/-!
# Numbers in decimal

A number is written as its digits, behind a sign when it is negative.

## Main results

* `toDigits_inj`, `sign_digits_inj` — the digits and the sign determine the number.
* `int_text_inj` — so does the text.
* `int_text_chars` — the text has digits and a sign and nothing else.
-/

namespace Calcar.Lib

theorem nat_text (n : Nat) : (toString n).toList = Nat.toDigits 10 n := by
  simp [Nat.toString_eq_repr, Nat.repr]

/-- The sign of a number. -/
def signText (n : Int) : List Char := if n < 0 then ['-'] else []

theorem int_text (n : Int) : (toString n).toList = signText n ++ Nat.toDigits 10 n.natAbs := by
  cases n with
  | ofNat m => exact nat_text m
  | negSucc m =>
      have hneg : signText (Int.negSucc m) = "-".toList := if_pos (Int.negSucc_lt_zero m)
      show ("-" ++ toString (m + 1)).toList = _
      rw [String.toList_append, nat_text, hneg, Int.natAbs_negSucc]

theorem toDigits_isDigit {n : Nat} {c : Char} (h : c ∈ Nat.toDigits 10 n) : c.isDigit = true :=
  Nat.isDigit_of_mem_toDigits (by decide) (by decide) h

theorem toDigits_inj {m n : Nat} (h : Nat.toDigits 10 m = Nat.toDigits 10 n) : m = n := by
  have hback := congrArg (fun l => Nat.ofDigitChars 10 l 0) h
  simpa only [Nat.ofDigitChars_ten_toDigits] using hback

theorem int_text_chars {n : Int} {c : Char} (h : c ∈ (toString n).toList) :
    c = '-' ∨ c.isDigit = true := by
  rw [int_text, List.mem_append] at h
  obtain hsign | hdigit := h
  · unfold signText at hsign
    split at hsign
    · exact .inl (List.mem_singleton.mp hsign)
    · cases hsign
  · exact .inr (toDigits_isDigit hdigit)

/-- A sign and the digits behind it determine the number. -/
theorem sign_digits_inj {m n : Int} (hsign : signText m = signText n)
    (hdigits : Nat.toDigits 10 m.natAbs = Nat.toDigits 10 n.natAbs) : m = n := by
  have habs := toDigits_inj hdigits
  have hneg : m < 0 ↔ n < 0 := by
    unfold signText at hsign
    by_cases hm : m < 0
    · by_cases hn : n < 0
      · simp [hm, hn]
      · simp [hm, hn] at hsign
    · by_cases hn : n < 0
      · simp [hm, hn] at hsign
      · simp [hm, hn]
  omega

theorem int_text_inj {n n' : Int} (h : toString n = toString n') : n = n' := by
  have htext : (toString n).toList = (toString n').toList := congrArg String.toList h
  rw [int_text, int_text] at htext
  have hplain : ∀ m : Nat, '-' ∉ Nat.toDigits 10 m := fun m hmem =>
    absurd (toDigits_isDigit hmem) (by decide)
  unfold signText at htext
  by_cases hn : n < 0
  · by_cases hn' : n' < 0
    · rw [if_pos hn, if_pos hn'] at htext
      exact sign_digits_inj (by simp [signText, hn, hn']) (List.append_cancel_left htext)
    · rw [if_pos hn, if_neg hn', List.nil_append] at htext
      exact absurd (htext ▸ List.mem_cons_self) (hplain n'.natAbs)
  · by_cases hn' : n' < 0
    · rw [if_neg hn, if_pos hn', List.nil_append] at htext
      exact absurd (htext ▸ List.mem_cons_self) (hplain n.natAbs)
    · rw [if_neg hn, if_neg hn'] at htext
      exact sign_digits_inj (by simp [signText, hn, hn']) htext

end Calcar.Lib
