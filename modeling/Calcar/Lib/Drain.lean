/-!
# Draining a queue in sorted order

A queue keeps its entries in the order they arrived and hands them out
sorted, at most so many at a time.  For one group of entries the drain
follows the arrival order exactly when the sorting relation does.

## Main results

* `filter_mergeSort` — a part of a list that is in order already is not
  rearranged by sorting the whole.
* `drain_prefix` — a limited drain takes a prefix of such a part.
-/

namespace Calcar.Lib

variable {α : Type} {le : α → α → Bool}

/-- Two members of a list stand in its order one way or the other. -/
theorem pairwise_mem {R : α → α → Prop} {l : List α} (h : l.Pairwise R) {a b : α}
    (ha : a ∈ l) (hb : b ∈ l) : a = b ∨ R a b ∨ R b a := by
  induction h with
  | nil => cases ha
  | @cons c l hc _ ih =>
      cases ha with
      | head =>
          cases hb with
          | head => exact .inl rfl
          | tail _ hb => exact .inr (.inl (hc b hb))
      | tail _ ha =>
          cases hb with
          | head => exact .inr (.inr (hc a ha))
          | tail _ hb => exact ih ha hb

section Sorted

variable (htrans : ∀ a b c, le a b → le b c → le a c) (htotal : ∀ a b, le a b || le b a)
include htrans htotal

/-- A part in order is not rearranged. -/
theorem filter_mergeSort {l : List α} {p : α → Bool}
    (hord : (l.filter p).Pairwise fun a b => le a b)
    (hanti : ∀ a b, a ∈ l.filter p → b ∈ l.filter p → le a b → le b a → a = b) :
    (l.mergeSort le).filter p = l.filter p := by
  have hperm : ((l.mergeSort le).filter p).Perm (l.filter p) :=
    (List.mergeSort_perm l le).filter p
  have hsorted : ((l.mergeSort le).filter p).Pairwise fun a b => le a b :=
    (List.pairwise_mergeSort htrans htotal l).filter p
  refine List.Perm.eq_of_pairwise ?_ hsorted hord hperm
  intro a b ha hb
  exact hanti a b (hperm.mem_iff.mp ha) hb

/-- At most `n` entries handed out: of a part in order, a prefix. -/
theorem drain_prefix {l : List α} {p : α → Bool} (n : Nat)
    (hord : (l.filter p).Pairwise fun a b => le a b)
    (hanti : ∀ a b, a ∈ l.filter p → b ∈ l.filter p → le a b → le b a → a = b) :
    ((l.mergeSort le).take n).filter p <+: l.filter p := by
  rw [← filter_mergeSort htrans htotal hord hanti]
  exact (List.take_prefix n _).filter p

end Sorted

end Calcar.Lib
