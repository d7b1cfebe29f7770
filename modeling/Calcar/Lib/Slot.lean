import Mathlib.Data.List.Nodup

/-!
# Slots that a log fills and empties

Each entry of a log may put a value into a slot or take the one there out of
it; what the slot holds is a fold over the log.  If a value can only get there
by an entry that gives out `g`, and the log gives out nothing twice, then the
slot is emptied at most once.

## Main results

* `slot_given` — what a slot holds has been given out.
* `emptied_once` — of two entries that each find the slot filled and leave it
  empty, one is the other.
-/

namespace Calcar.Lib

variable {α β γ : Type} (after : Option β → α → Option β) (gives : α → Option γ) (g : γ)

/-- What the slot holds after the log. -/
def slot (log : List α) : Option β := log.foldl after none

variable {after gives g}

theorem slot_concat (log : List α) (a : α) :
    slot after (log ++ [a]) = after (slot after log) a := by
  simp [slot]

/-- Only an entry that gives out `g` fills the slot. -/
def FilledBy (after : Option β → α → Option β) (gives : α → Option γ) (g : γ) : Prop :=
  ∀ s a b, after s a = some b → s = some b ∨ gives a = some g

theorem fold_given (h : FilledBy after gives g) {s : Option β} {log : List α} {b : β}
    (hb : log.foldl after s = some b) : s = some b ∨ g ∈ log.filterMap gives := by
  induction log generalizing s with
  | nil => exact .inl hb
  | cons a log ih =>
      obtain hs | hmem := ih hb
      · obtain hold | hgives := h s a b hs
        · exact .inl hold
        · exact .inr (List.mem_filterMap.mpr ⟨a, List.mem_cons_self, hgives⟩)
      · obtain ⟨x, hx, hgives⟩ := List.mem_filterMap.mp hmem
        exact .inr (List.mem_filterMap.mpr ⟨x, List.mem_cons_of_mem a hx, hgives⟩)

/-- What a slot holds has been given out. -/
theorem slot_given (h : FilledBy after gives g) {log : List α} {b : β}
    (hb : slot after log = some b) : g ∈ log.filterMap gives := by
  obtain hnone | hmem := fold_given h hb
  · cases hnone
  · exact hmem

/-- A slot that was emptied is not filled again. -/
theorem not_refilled (h : FilledBy after gives g) {pre mid post : List α} {a : α} {b b' : β}
    (hd : ((pre ++ a :: mid ++ post).filterMap gives).Nodup)
    (hpre : slot after pre = some b) (htake : after (some b) a = none)
    (hagain : slot after (pre ++ a :: mid) = some b') : False := by
  have hmid : g ∈ mid.filterMap gives := by
    have hfold : mid.foldl after none = some b' := by
      rw [slot, List.foldl_append, List.foldl_cons] at hagain
      rw [slot] at hpre
      rw [hpre, htake] at hagain
      exact hagain
    exact slot_given h hfold
  rw [List.append_assoc, List.filterMap_append, List.cons_append] at hd
  have hrest : g ∈ (a :: (mid ++ post)).filterMap gives := by
    obtain ⟨x, hx, hgives⟩ := List.mem_filterMap.mp hmid
    exact List.mem_filterMap.mpr
      ⟨x, List.mem_cons_of_mem a (List.mem_append_left post hx), hgives⟩
  exact (List.nodup_append.mp hd).2.2 g (slot_given h hpre) g hrest rfl

/-- **Emptied once.**  Two entries that each find the slot filled and empty it
stand at one place. -/
theorem emptied_once (h : FilledBy after gives g) {log pre pre' post post' : List α}
    {a a' : α} {b b' : β} (hd : (log.filterMap gives).Nodup)
    (hlog : log = pre ++ a :: post) (hlog' : log = pre' ++ a' :: post')
    (hpre : slot after pre = some b) (htake : after (some b) a = none)
    (hpre' : slot after pre' = some b') (htake' : after (some b') a' = none) : a = a' := by
  have heq : pre ++ a :: post = pre' ++ a' :: post' := hlog.symm.trans hlog'
  obtain ⟨mid, h₁, h₂⟩ | ⟨mid, h₁, h₂⟩ := List.append_eq_append_iff.mp heq
  · cases mid with
    | nil => exact (List.cons.inj h₂).1
    | cons x mid =>
        obtain ⟨hx, _⟩ := List.cons.inj h₂
        rw [← hx] at h₁
        rw [hlog', h₁] at hd
        rw [h₁] at hpre'
        exact (not_refilled h hd hpre htake hpre').elim
  · cases mid with
    | nil => exact (List.cons.inj h₂).1.symm
    | cons x mid =>
        obtain ⟨hx, _⟩ := List.cons.inj h₂
        rw [← hx] at h₁
        rw [hlog, h₁] at hd
        rw [h₁] at hpre
        exact (not_refilled h hd hpre' htake' hpre).elim

end Calcar.Lib
