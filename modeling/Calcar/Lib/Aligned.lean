import Mathlib.Data.List.Forall2

/-!
# Lists side by side

Two lists of the same length, related place by place.

## Main results

* `beside` — what stands beside an entry.
* `set`, `set_left` — entries are replaced by related ones.
-/

namespace Calcar.Lib.Aligned

variable {α β : Type} {R : α → β → Prop} {l : List α} {m : List β} {i : Nat} {a : α} {b : β}

theorem beside (h : List.Forall₂ R l m) (ha : l[i]? = some a) :
    ∃ b, m[i]? = some b ∧ R a b := by
  induction h generalizing i with
  | nil => simp at ha
  | @cons x y l m hxy _ ih =>
      cases i with
      | zero =>
          cases ha
          exact ⟨y, rfl, hxy⟩
      | succ i => exact ih ha

theorem set (h : List.Forall₂ R l m) (hab : R a b) : List.Forall₂ R (l.set i a) (m.set i b) := by
  induction h generalizing i with
  | nil => exact .nil
  | cons hxy hrest ih =>
      cases i with
      | zero => exact .cons hab hrest
      | succ i => exact .cons hxy ih

/-- One of the lists keeps the entry it has. -/
theorem set_left (h : List.Forall₂ R l m) (hb : m[i]? = some b) (hab : R a b) :
    List.Forall₂ R (l.set i a) m := by
  induction h generalizing i with
  | nil => exact .nil
  | cons hxy hrest ih =>
      cases i with
      | zero =>
          cases hb
          exact .cons hab hrest
      | succ i => exact .cons hxy (ih hb)

theorem concat (h : List.Forall₂ R l m) (hab : R a b) : List.Forall₂ R (l ++ [a]) (m ++ [b]) :=
  List.rel_append h (.cons hab .nil)

end Calcar.Lib.Aligned
