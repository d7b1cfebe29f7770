import Mathlib.Data.List.Basic

/-!
# Segments of a text

A text is cut at every separator; the segments are what stands between the separators,
empty or not.

## Main results

* `segments_join` — joining texts without separators and cutting is the identity.
* `flatten_segments` — the segments hold everything but the separators.
* `append_cons_cancel` — a text is cut at its last separator in one way.
* `segments_flatMap` — cutting after a rewriting of the text that keeps separators.
-/

namespace Calcar.Lib

variable {α β : Type}

/-- The segments between the separators. -/
def segments (sep : α → Bool) : List α → List (List α)
  | [] => [[]]
  | x :: xs =>
      if sep x = true then [] :: segments sep xs
      else (segments sep xs).modifyHead (x :: ·)

variable {sep : α → Bool}

theorem segments_sep {x : α} (hx : sep x = true) (xs : List α) :
    segments sep (x :: xs) = [] :: segments sep xs := by
  rw [segments, if_pos hx]

theorem segments_other {x : α} (hx : sep x = false) (xs : List α) :
    segments sep (x :: xs) = (segments sep xs).modifyHead (x :: ·) := by
  rw [segments, if_neg (by simp [hx])]

theorem segments_cons (sep : α → Bool) (xs : List α) :
    ∃ s ss, segments sep xs = s :: ss := by
  induction xs with
  | nil => exact ⟨[], [], rfl⟩
  | cons x xs ih =>
      obtain ⟨s, ss, h⟩ := ih
      by_cases hx : sep x = true
      · exact ⟨[], _, segments_sep hx xs⟩
      · refine ⟨x :: s, ss, ?_⟩
        rw [segments_other (by simpa using hx), h, List.modifyHead_cons]

theorem segments_starts {xs s : List α} {ss : List (List α)} (h : segments sep xs = s :: ss) :
    s <+: xs := by
  induction xs generalizing s ss with
  | nil =>
      cases h
      exact List.nil_prefix
  | cons x xs ih =>
      by_cases hx : sep x = true
      · rw [segments_sep hx] at h
        cases h
        exact List.nil_prefix
      · obtain ⟨t, ts, ht⟩ := segments_cons sep xs
        rw [segments_other (by simpa using hx), ht, List.modifyHead_cons] at h
        cases h
        exact (List.prefix_cons_inj x).mpr (ih ht)

/-- A stretch without separators goes in front of the first segment. -/
theorem segments_append {xs : List α} (hxs : ∀ x ∈ xs, sep x = false) (ys : List α) :
    segments sep (xs ++ ys) = (segments sep ys).modifyHead (xs ++ ·) := by
  obtain ⟨s, ss, h⟩ := segments_cons sep ys
  induction xs with
  | nil => simp [h]
  | cons x xs ih =>
      have hrest := ih fun y hy => hxs y (List.mem_cons_of_mem _ hy)
      rw [List.cons_append, segments_other (hxs x List.mem_cons_self), hrest, h]
      simp

theorem segments_plain {xs : List α} (hxs : ∀ x ∈ xs, sep x = false) :
    segments sep xs = [xs] := by
  have h := segments_append hxs []
  simpa [segments] using h

theorem segments_before {x : α} (hx : sep x = true) {xs : List α}
    (hxs : ∀ y ∈ xs, sep y = false) (ys : List α) :
    segments sep (xs ++ x :: ys) = xs :: segments sep ys := by
  rw [segments_append hxs, segments_sep hx]
  simp

/-- The segments hold no separator. -/
theorem mem_segments {xs s : List α} (hs : s ∈ segments sep xs) : ∀ x ∈ s, sep x = false := by
  induction xs generalizing s with
  | nil =>
      simp only [segments, List.mem_singleton] at hs
      simp [hs]
  | cons x xs ih =>
      by_cases hx : sep x = true
      · rw [segments_sep hx, List.mem_cons] at hs
        cases hs with
        | inl h => simp [h]
        | inr h => exact ih h
      · have hx' : sep x = false := by simpa using hx
        obtain ⟨t, ts, h⟩ := segments_cons sep xs
        rw [segments_other hx', h, List.modifyHead_cons, List.mem_cons] at hs
        intro y hy
        cases hs with
        | inl heq =>
            rw [heq, List.mem_cons] at hy
            cases hy with
            | inl hyx => rw [hyx, hx']
            | inr hyt => exact ih (h ▸ List.mem_cons_self) y hyt
        | inr hmem => exact ih (h ▸ List.mem_cons_of_mem _ hmem) y hy

/-- **Nothing but the separators is lost.** -/
theorem flatten_segments (xs : List α) :
    (segments sep xs).flatten = xs.filter fun x => !sep x := by
  induction xs with
  | nil => rfl
  | cons x xs ih =>
      by_cases hx : sep x = true
      · rw [segments_sep hx, List.flatten_cons, ih]
        simp [hx]
      · have hx' : sep x = false := by simpa using hx
        obtain ⟨s, ss, h⟩ := segments_cons sep xs
        rw [h] at ih
        rw [segments_other hx', h]
        simp_all

/-- **A text made of segments** is cut into them again. -/
theorem segments_join {x : α} (hx : sep x = true) : ∀ {ss : List (List α)}, ss ≠ [] →
    (∀ s ∈ ss, ∀ y ∈ s, sep y = false) → segments sep ([x].intercalate ss) = ss
  | [s], _, h => by
      simpa using segments_plain (h s List.mem_cons_self)
  | s :: t :: ss, _, h => by
      have hrest := segments_join hx (List.cons_ne_nil t ss)
        fun u hu => h u (List.mem_cons_of_mem _ hu)
      have hjoin : [x].intercalate (s :: t :: ss) = s ++ x :: [x].intercalate (t :: ss) := by
        simp
      rw [hjoin, segments_before hx (h s List.mem_cons_self), hrest]

/-- A text that begins each part with a separator. -/
theorem segments_parts {x : α} (hx : sep x = true) {ss : List (List α)}
    (h : ∀ s ∈ ss, ∀ y ∈ s, sep y = false) :
    segments sep (ss.flatMap fun s => x :: s) = [] :: ss := by
  cases ss with
  | nil => rfl
  | cons s ss =>
      rw [List.flatMap_cons, List.cons_append, segments_sep hx]
      congr 1
      induction ss generalizing s with
      | nil => simpa using segments_plain (h s List.mem_cons_self)
      | cons t ss ih =>
          have hrest := ih t fun u hu => h u (List.mem_cons_of_mem _ hu)
          rw [List.flatMap_cons, List.cons_append,
            segments_before hx (h s List.mem_cons_self), hrest]

/-- The text behind the last separator, and what stands before it. -/
theorem append_cons_cancel {c : α} {l l' s s' : List α} (hs : c ∉ s) (hs' : c ∉ s')
    (h : l ++ c :: s = l' ++ c :: s') : l = l' ∧ s = s' := by
  rcases List.append_eq_append_iff.mp h with ⟨as, hl, htail⟩ | ⟨as, hl, htail⟩
  · cases as with
    | nil =>
        rw [List.append_nil] at hl
        rw [List.nil_append, List.cons.injEq] at htail
        exact ⟨hl.symm, htail.2⟩
    | cons a as =>
        rw [List.cons_append, List.cons.injEq] at htail
        have hmem : c ∈ s := by
          rw [htail.2]
          exact List.mem_append_right as List.mem_cons_self
        exact absurd hmem hs
  · cases as with
    | nil =>
        rw [List.append_nil] at hl
        rw [List.nil_append, List.cons.injEq] at htail
        exact ⟨hl, htail.2.symm⟩
    | cons a as =>
        rw [List.cons_append, List.cons.injEq] at htail
        have hmem : c ∈ s' := by
          rw [htail.2]
          exact List.mem_append_right as List.mem_cons_self
        exact absurd hmem hs'

/-- **A rewriting piece by piece** that makes separators of separators only commutes with
cutting. -/
theorem segments_flatMap {sep' : β → Bool} {f : α → List β}
    (hsep : ∀ x, sep x = true → ∃ y, f x = [y] ∧ sep' y = true)
    (hother : ∀ x, sep x = false → ∀ y ∈ f x, sep' y = false) (xs : List α) :
    segments sep' (xs.flatMap f) = (segments sep xs).map fun s => s.flatMap f := by
  induction xs with
  | nil => rfl
  | cons x xs ih =>
      by_cases hx : sep x = true
      · obtain ⟨y, hy, hysep⟩ := hsep x hx
        rw [List.flatMap_cons, hy, segments_sep hx]
        simp [segments_sep hysep, ih]
      · have hx' : sep x = false := by simpa using hx
        obtain ⟨s, ss, h⟩ := segments_cons sep xs
        rw [List.flatMap_cons, segments_append (hother x hx'), ih, segments_other hx', h]
        simp

end Calcar.Lib
