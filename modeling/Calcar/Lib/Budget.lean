import Mathlib.Algebra.Ring.Nat
import Mathlib.Data.List.Basic

/-!
# Spending a budget

Things are taken one after another as long as their sizes fit a budget.  The first that
does not is cut to what is left of it, and nothing behind that one is taken.

## Main results

* `spend_fits` — where everything fits, everything is taken.
* `spend_cut` — what is taken where something does not fit.
* `exists_cut` — the place where the budget runs out.
* `within_total`, `prefix_within` — what is taken whole is the longest prefix that fits.
-/

namespace Calcar.Lib

variable {α : Type} (size : α → Nat) (cut : Nat → α → α) (budget : Nat)

/-- What all of them take together. -/
def total (xs : List α) : Nat := (xs.map size).sum

/-- What is taken when so much is used already. -/
def spend : Nat → List α → List α
  | _, [] => []
  | used, x :: xs =>
      if budget < used + size x then [cut (budget - used) x]
      else x :: spend (used + size x) xs

attribute [grind =] spend

@[simp] theorem total_nil : total size [] = 0 := rfl

@[simp] theorem total_cons (x : α) (xs : List α) :
    total size (x :: xs) = size x + total size xs := by
  simp [total]

@[simp] theorem total_append (xs ys : List α) :
    total size (xs ++ ys) = total size xs + total size ys := by
  simp [total]

variable {size cut budget}

/-- **Everything fits.** -/
theorem spend_fits {xs : List α} {used : Nat} (h : used + total size xs ≤ budget) :
    spend size cut budget used xs = xs := by
  induction xs generalizing used with
  | nil => rfl
  | cons x xs ih =>
      rw [total_cons] at h
      rw [spend, if_neg (by omega), ih (by omega)]

/-- **The budget runs out** at `x`. -/
theorem spend_cut {front : List α} {x : α} {used : Nat} (rest : List α)
    (hfit : used + total size front ≤ budget)
    (hover : budget < used + total size front + size x) :
    spend size cut budget used (front ++ x :: rest) =
      front ++ [cut (budget - (used + total size front)) x] := by
  induction front generalizing used with
  | nil =>
      rw [total_nil, Nat.add_zero] at hover ⊢
      rw [List.nil_append, spend, if_pos hover, List.nil_append]
  | cons y front ih =>
      rw [total_cons, ← Nat.add_assoc] at hfit hover ⊢
      rw [List.cons_append, spend, if_neg (by omega), ih hfit hover, List.cons_append]

/-- Where not everything fits, the budget runs out somewhere. -/
theorem exists_cut {xs : List α} {used : Nat} (hused : used ≤ budget)
    (h : budget < used + total size xs) :
    ∃ front x rest, xs = front ++ x :: rest ∧ used + total size front ≤ budget ∧
      budget < used + total size front + size x := by
  induction xs generalizing used with
  | nil => simp at h; omega
  | cons y xs ih =>
      by_cases hover : budget < used + size y
      · exact ⟨[], y, xs, rfl, by simpa using hused, by simpa using hover⟩
      · rw [total_cons] at h
        obtain ⟨front, x, rest, rfl, hfit, hcut⟩ := ih (by omega) (Nat.add_assoc .. ▸ h)
        exact ⟨y :: front, x, rest, rfl, by rw [total_cons]; omega, by rw [total_cons]; omega⟩

variable (size cut budget) in
theorem spend_length_le (xs : List α) (used : Nat) :
    (spend size cut budget used xs).length ≤ xs.length := by
  induction xs generalizing used with
  | nil => exact Nat.le_refl 0
  | cons x xs ih =>
      rw [spend]
      have hrest := ih (used + size x)
      split
      · simp
      · simpa using hrest

/-! ## What is taken whole -/

variable (size budget) in
/-- What is taken of them whole, when so much is used already. -/
def within : Nat → List α → List α
  | _, [] => []
  | used, x :: xs => if budget < used + size x then [] else x :: within (used + size x) xs

attribute [grind =] within

variable (size budget) in
theorem within_front (xs : List α) (used : Nat) : within size budget used xs <+: xs := by
  induction xs generalizing used with
  | nil => exact List.prefix_refl []
  | cons x xs ih =>
      rw [within]
      split
      · exact List.nil_prefix
      · exact List.prefix_cons_inj x |>.mpr (ih _)

variable (size) in
theorem within_total {used : Nat} (h : used ≤ budget) (xs : List α) :
    used + total size (within size budget used xs) ≤ budget := by
  induction xs generalizing used with
  | nil => exact h
  | cons x xs ih =>
      rw [within]
      split
      · exact h
      · have hrest := @ih (used + size x) (by omega)
        rw [total_cons]
        omega

theorem within_map {β : Type} {size' : β → Nat} {f : α → β} (h : ∀ x, size' (f x) = size x)
    (xs : List α) (used : Nat) :
    within size' budget used (xs.map f) = (within size budget used xs).map f := by
  induction xs generalizing used with
  | nil => rfl
  | cons x xs ih =>
      rw [List.map_cons, within, within, h, ih]
      split <;> rfl

/-- **No longer prefix fits.** -/
theorem prefix_within {front xs : List α} {used : Nat} (hfront : front <+: xs)
    (hfit : used + total size front ≤ budget) : front <+: within size budget used xs := by
  induction xs generalizing front used with
  | nil => exact hfront
  | cons x xs ih =>
      cases front with
      | nil => exact List.nil_prefix
      | cons y front =>
          rw [List.cons_prefix_cons] at hfront
          rcases hfront with ⟨rfl, hfront⟩
          rw [total_cons] at hfit
          rw [within, if_neg (by omega), List.cons_prefix_cons]
          exact ⟨rfl, ih hfront (by omega)⟩

/-- What does not fit whole is cut behind the last one that does. -/
theorem within_next {xs : List α} {used : Nat} (h : budget < used + total size xs)
    (hused : used ≤ budget) :
    ∃ x rest, xs = within size budget used xs ++ x :: rest ∧
      budget < used + total size (within size budget used xs) + size x := by
  induction xs generalizing used with
  | nil => simp at h; omega
  | cons x xs ih =>
      rw [within]
      split
      · exact ⟨x, xs, rfl, by simpa⟩
      · rw [total_cons] at h
        obtain ⟨y, rest, hxs, hover⟩ := ih (Nat.add_assoc .. ▸ h) (by omega)
        exact ⟨y, rest, congrArg (x :: ·) hxs, by rw [total_cons]; omega⟩

end Calcar.Lib
