import Mathlib.Data.List.Basic

/-!
# Lines of a stream

A stream is cut at a separator into the lines that have ended and a rest that
has not.  A reader that gets the stream in pieces keeps the rest and goes on
from it; what it has read then does not depend on the pieces.

## Main results

* `split_append` — a piece is read from where the last one ended.
* `split_rest_nil` — where nothing is left over.
* `all_append` — the same for a stream that has ended.
* `split_line`, `split_none` — the first line, and a stream without one.
-/

namespace Calcar.Lib.Lines

variable {α : Type} [DecidableEq α]

/-- The lines that have ended, and the rest. -/
def split (sep : α) : List α → List (List α) × List α
  | [] => ([], [])
  | x :: xs =>
      if x = sep then ([] :: (split sep xs).1, (split sep xs).2)
      else
        match (split sep xs).1 with
        | [] => ([], x :: (split sep xs).2)
        | l :: ls => ((x :: l) :: ls, (split sep xs).2)

/-- What is left over is a line if it is not empty. -/
def closing (rest : List α) : List (List α) := if rest = [] then [] else [rest]

/-- The lines of a stream that has ended. -/
def all (sep : α) (xs : List α) : List (List α) := (split sep xs).1 ++ closing (split sep xs).2

section

variable {sep : α}

theorem split_sep (xs : List α) :
    split sep (sep :: xs) = ([] :: (split sep xs).1, (split sep xs).2) := by
  rw [split, if_pos rfl]

/-- A rest that has no line yet goes on. -/
theorem split_open {x : α} {xs : List α} (hx : x ≠ sep) (h : (split sep xs).1 = []) :
    split sep (x :: xs) = ([], x :: (split sep xs).2) := by
  rw [split, if_neg hx, h]

theorem split_more {x : α} {xs l : List α} {ls : List (List α)} (hx : x ≠ sep)
    (h : (split sep xs).1 = l :: ls) :
    split sep (x :: xs) = ((x :: l) :: ls, (split sep xs).2) := by
  rw [split, if_neg hx, h]

/-- **A piece is read from where the last one ended.** -/
theorem split_append (xs ys : List α) :
    split sep (xs ++ ys) =
      ((split sep xs).1 ++ (split sep ((split sep xs).2 ++ ys)).1,
        (split sep ((split sep xs).2 ++ ys)).2) := by
  induction xs with
  | nil => rfl
  | cons x xs ih =>
      rw [List.cons_append]
      by_cases hx : x = sep
      · subst hx
        rw [split_sep, split_sep, ih]
        rfl
      · cases hxs : (split sep xs).1 with
        | nil =>
            rw [split_open hx hxs]
            have hlines : (split sep (xs ++ ys)).1 = (split sep ((split sep xs).2 ++ ys)).1 := by
              rw [ih, hxs]
              rfl
            have hrest : (split sep (xs ++ ys)).2 = (split sep ((split sep xs).2 ++ ys)).2 := by
              rw [ih]
            show split sep (x :: (xs ++ ys)) =
              ((split sep (x :: ((split sep xs).2 ++ ys))).1,
                (split sep (x :: ((split sep xs).2 ++ ys))).2)
            cases hl : (split sep ((split sep xs).2 ++ ys)).1 with
            | nil =>
                rw [split_open hx hl, split_open hx (hlines.trans hl), hrest]
            | cons l ls =>
                rw [split_more hx hl, split_more hx (hlines.trans hl), hrest]
        | cons l ls =>
            have hlines : (split sep (xs ++ ys)).1 =
                l :: (ls ++ (split sep ((split sep xs).2 ++ ys)).1) := by
              rw [ih, hxs]
              rfl
            rw [split_more hx hxs, split_more hx hlines, ih]
            rfl

/-- A stream that is read on to its end has the lines read before and those of
the rest. -/
theorem all_append (xs ys : List α) :
    all sep (xs ++ ys) = (split sep xs).1 ++ all sep ((split sep xs).2 ++ ys) := by
  unfold all
  rw [split_append, List.append_assoc]

/-- A stream without separator has no line. -/
theorem split_none {xs : List α} (h : sep ∉ xs) : split sep xs = ([], xs) := by
  induction xs with
  | nil => rfl
  | cons x xs ih =>
      have hx : x ≠ sep := fun heq => h (heq ▸ List.mem_cons_self)
      have hxs := ih fun hmem => h (List.mem_cons_of_mem x hmem)
      rw [split_open hx (congrArg Prod.fst hxs), hxs]

/-- **The first line goes up to the first separator.** -/
theorem split_line {xs : List α} (h : sep ∉ xs) (ys : List α) :
    split sep (xs ++ sep :: ys) = (xs :: (split sep ys).1, (split sep ys).2) := by
  induction xs with
  | nil => exact split_sep ys
  | cons x xs ih =>
      have hx : x ≠ sep := fun heq => h (heq ▸ List.mem_cons_self)
      have hxs := ih fun hmem => h (List.mem_cons_of_mem x hmem)
      rw [List.cons_append, split_more hx (congrArg Prod.fst hxs), hxs]

theorem sep_notMem_rest (xs : List α) : sep ∉ (split sep xs).2 := by
  induction xs with
  | nil => simp [split]
  | cons x xs ih =>
      by_cases hx : x = sep
      · subst hx
        rw [split_sep]
        exact ih
      · cases hxs : (split sep xs).1 with
        | nil =>
            rw [split_open hx hxs]
            simp [ih, Ne.symm hx]
        | cons l ls =>
            rw [split_more hx hxs]
            exact ih

/-- Nothing is left over just behind a separator. -/
theorem split_rest_nil (xs : List α) :
    (split sep xs).2 = [] ↔ xs = [] ∨ xs.getLast? = some sep := by
  cases List.eq_nil_or_concat xs with
  | inl hnil => simp [hnil, split]
  | inr hlast =>
      obtain ⟨before, x, rfl⟩ := hlast
      have hrest : sep ∉ (split sep before).2 := sep_notMem_rest before
      rw [List.concat_eq_append, split_append]
      by_cases hx : x = sep
      · subst hx
        rw [split_line hrest]
        simp [split]
      · have hopen : sep ∉ (split sep before).2 ++ [x] := by simp [hrest, Ne.symm hx]
        rw [split_none hopen]
        simp [hx]

end

end Calcar.Lib.Lines
