/-!
# Windows onto a numbered log

A log numbers its entries `1, 2, 3, …` and keeps only the newest of them.
What is kept is a *window*: a list whose keys are `cut + 1, cut + 2, …` in
this order, `cut` being the number of entries already evicted.  A window is
shortened from the front until it fits its limits (`evict`), and it is read
in pages that each start after the last key received (`Pages`).

## Main results

* `evict_eq_drop`, `evict_shortest` — eviction drops the shortest prefix
  after which the rest fits.
* `evict_longest`, `evict_append` — what is left is the longest suffix that fits, and
  evicting before more comes changes nothing.
* `Consecutive.filter_gt` — the entries after a key are what is left when a
  prefix is dropped.
* `pages_flatten`, `pages_exist` — pages of any positive sizes, put together,
  are the entries after the first key, and reading them comes to an end.
-/

namespace Calcar.Lib

variable {α : Type}

/-! ## Eviction -/

/-- Drop entries from the front until the rest fits. -/
def evict (fits : List α → Prop) [DecidablePred fits] : List α → List α
  | [] => []
  | a :: l => if fits (a :: l) then a :: l else evict fits l

section Evict

variable (fits : List α → Prop) [DecidablePred fits]

/-- How many entries eviction drops. -/
def evicted : List α → Nat
  | [] => 0
  | a :: l => if fits (a :: l) then 0 else evicted l + 1

theorem evict_eq_drop (l : List α) : evict fits l = l.drop (evicted fits l) := by
  induction l with
  | nil => rfl
  | cons a l ih =>
      unfold evict evicted
      split
      · rfl
      · simpa using ih

/-- Every shorter prefix leaves too much. -/
theorem evict_shortest (l : List α) {j : Nat} (hj : j < evicted fits l) :
    ¬fits (l.drop j) := by
  induction l generalizing j with
  | nil => simp [evicted] at hj
  | cons a l ih =>
      unfold evicted at hj
      split at hj
      · omega
      · rename_i hnot
        cases j with
        | zero => exact hnot
        | succ j =>
            have hlt : j < evicted fits l := by omega
            simpa using ih hlt

/-- If single entries fit, something is kept, and what is kept fits. -/
theorem evict_fits (hone : ∀ a, fits [a]) {l : List α} (hl : l ≠ []) :
    evict fits l ≠ [] ∧ fits (evict fits l) := by
  induction l with
  | nil => exact absurd rfl hl
  | cons a l ih =>
      unfold evict
      split
      · rename_i hfit
        exact ⟨by simp, hfit⟩
      · rename_i hnot
        have hne : l ≠ [] := by
          intro hnil
          subst hnil
          exact hnot (hone a)
        exact ih hne

theorem evicted_lt (hone : ∀ a, fits [a]) {l : List α} (hl : l ≠ []) :
    evicted fits l < l.length := by
  have hkept := (evict_fits fits hone hl).1
  rw [evict_eq_drop] at hkept
  have hle : ¬l.length ≤ evicted fits l := fun h => hkept (List.drop_eq_nil_of_le h)
  omega

/-- The newest entry survives. -/
theorem evict_concat (hone : ∀ a, fits [a]) (l : List α) (a : α) :
    ∃ l', evict fits (l ++ [a]) = l' ++ [a] := by
  have hlt := evicted_lt fits hone (l := l ++ [a]) (by simp)
  rw [List.length_append, List.length_singleton] at hlt
  refine ⟨l.drop (evicted fits (l ++ [a])), ?_⟩
  rw [evict_eq_drop, List.drop_append_of_le_length (by omega)]

theorem evict_suffix (l : List α) : evict fits l <:+ l := by
  rw [evict_eq_drop]
  exact List.drop_suffix _ l

theorem evict_holds (hnil : fits []) (l : List α) : fits (evict fits l) := by
  induction l with
  | nil => exact hnil
  | cons a l ih =>
      unfold evict
      split
      · assumption
      · exact ih

/-- **Nothing longer fits.** -/
theorem evict_longest {l s : List α} (hs : s <:+ l) (hfits : fits s) : s <:+ evict fits l := by
  induction l with
  | nil => exact hs
  | cons a l ih =>
      unfold evict
      split
      · exact hs
      · rename_i hnot
        rcases List.suffix_cons_iff.mp hs with rfl | hs
        · exact absurd hfits hnot
        · exact ih hs

/-- Only one suffix is the longest that fits. -/
theorem evict_unique (hnil : fits []) {l s : List α} (hs : s <:+ l) (hfits : fits s)
    (hlongest : ∀ t, t <:+ l → fits t → t.length ≤ s.length) : evict fits l = s := by
  have hsuffix := evict_longest fits hs hfits
  have hlength := hlongest _ (evict_suffix fits l) (evict_holds fits hnil l)
  exact (hsuffix.eq_of_length_le hlength).symm

/-- **Evicting in between** changes nothing. -/
theorem evict_append (hfront : ∀ a b, fits (a ++ b) → fits a) (l m : List α) :
    evict fits (evict fits l ++ m) = evict fits (l ++ m) := by
  induction l with
  | nil => rfl
  | cons a l ih =>
      rw [evict]
      split
      · rfl
      · rename_i hnot
        have hlong : ¬fits (a :: (l ++ m)) := fun h => hnot (hfront (a :: l) m h)
        rw [ih, List.cons_append, evict, if_neg hlong]

end Evict

/-! ## Consecutive keys -/

/-- The keys of the list are `lo + 1`, `lo + 2` and so on. -/
def Consecutive (key : α → Int) : Int → List α → Prop
  | _, [] => True
  | lo, a :: l => key a = lo + 1 ∧ Consecutive key (lo + 1) l

namespace Consecutive

variable {key : α → Int} {lo : Int}

theorem append {l l' : List α} :
    Consecutive key lo (l ++ l') ↔
      Consecutive key lo l ∧ Consecutive key (lo + l.length) l' := by
  induction l generalizing lo with
  | nil => simp [Consecutive]
  | cons a l ih =>
      rw [List.cons_append, Consecutive, Consecutive, ih, and_assoc, List.length_cons,
        Int.natCast_add, Int.add_assoc, Int.add_comm (l.length : Int)]
      rfl

theorem concat {l : List α} {a : α} (h : Consecutive key lo l)
    (ha : key a = lo + l.length + 1) : Consecutive key lo (l ++ [a]) :=
  append.mpr ⟨h, ha, trivial⟩

theorem drop {l : List α} {n : Nat} (h : Consecutive key lo l) (hn : n ≤ l.length) :
    Consecutive key (lo + n) (l.drop n) := by
  have hsplit : Consecutive key lo (l.take n ++ l.drop n) := by
    rw [List.take_append_drop]
    exact h
  have hright := (append.mp hsplit).2
  rw [List.length_take, Nat.min_eq_left hn] at hright
  exact hright

/-- The keys lie in the window. -/
theorem bounds {l : List α} (h : Consecutive key lo l) {a : α} (ha : a ∈ l) :
    lo < key a ∧ key a ≤ lo + l.length := by
  induction l generalizing lo with
  | nil => cases ha
  | cons b l ih =>
      obtain ⟨hb, hl⟩ := h
      rw [List.length_cons]
      cases ha with
      | head => omega
      | tail _ ha =>
          have := ih hl ha
          omega

/-- Every number in the window is a key. -/
theorem exists_key {l : List α} (h : Consecutive key lo l) {s : Int} (h₁ : lo < s)
    (h₂ : s ≤ lo + l.length) : ∃ a ∈ l, key a = s := by
  induction l generalizing lo with
  | nil =>
      rw [List.length_nil] at h₂
      omega
  | cons b l ih =>
      obtain ⟨hb, hl⟩ := h
      rw [List.length_cons] at h₂
      by_cases hs : s = lo + 1
      · exact ⟨b, List.mem_cons_self, by omega⟩
      · obtain ⟨a, ha, hk⟩ := ih hl (by omega) (by omega)
        exact ⟨a, List.mem_cons_of_mem _ ha, hk⟩

theorem map {β : Type} {key : β → Int} {lo : Int} (f : α → β) {l : List α} :
    Consecutive key lo (l.map f) ↔ Consecutive (fun a => key (f a)) lo l := by
  induction l generalizing lo with
  | nil => rfl
  | cons a l ih => rw [List.map_cons, Consecutive, Consecutive, ih]

theorem ascending {l : List α} (h : Consecutive key lo l) :
    l.Pairwise fun a b => key a < key b := by
  induction l generalizing lo with
  | nil => exact .nil
  | cons a l ih =>
      obtain ⟨ha, hl⟩ := h
      refine .cons (fun b hb => ?_) (ih hl)
      have := hl.bounds hb
      omega

/-- The last key is the end of the window. -/
theorem last_key {l : List α} (h : Consecutive key lo l) {a : α}
    (ha : l.getLast? = some a) : key a = lo + l.length := by
  obtain ⟨l', rfl⟩ := List.getLast?_eq_some_iff.mp ha
  have hright := (append.mp h).2.1
  rw [List.length_append, List.length_singleton]
  omega

/-- The entries after a key: a prefix is dropped. -/
theorem filter_gt {l : List α} (h : Consecutive key lo l) (k : Int) :
    (l.filter fun a => k < key a) = l.drop (k - lo).toNat := by
  induction l generalizing lo with
  | nil => simp
  | cons a l ih =>
      obtain ⟨ha, hl⟩ := h
      rw [List.filter_cons, ih hl]
      by_cases hk : k < key a
      · have h₀ : (k - lo).toNat = 0 := by omega
        have h₁ : (k - (lo + 1)).toNat = 0 := by omega
        simp [hk, h₀, h₁]
      · have h₁ : (k - lo).toNat = (k - (lo + 1)).toNat + 1 := by omega
        simp [hk, h₁]

/-- What is dropped up to a key of the window. -/
theorem filter_le {l : List α} (h : Consecutive key lo l) (n : Nat) :
    (l.filter fun a => ¬key a ≤ lo + n) = l.drop n := by
  have hgt := h.filter_gt (lo + n)
  have hn : (lo + n - lo).toNat = n := by omega
  rw [hn] at hgt
  rw [← hgt]
  congr 1
  funext a
  simp [Int.not_le]

/-- How many keys lie below a bound of the window. -/
theorem countP_le {l : List α} (h : Consecutive key lo l) {n : Nat} (hn : n ≤ l.length) :
    l.countP (fun a => key a ≤ lo + n) = n := by
  have hsplit := List.length_eq_countP_add_countP (fun a => decide (key a ≤ lo + n)) (l := l)
  have hrest : l.countP (fun a => ¬key a ≤ lo + n) = l.length - n := by
    rw [List.countP_eq_length_filter, h.filter_le, List.length_drop]
  simp only [decide_eq_true_eq] at hsplit
  omega

/-- The largest key is the last one. -/
theorem max?_keys {l : List α} (h : Consecutive key lo l) (hl : l ≠ []) :
    (l.map key).max? = some (lo + l.length) := by
  have hlen : 0 < l.length := List.length_pos_iff.mpr hl
  rw [List.max?_eq_some_iff]
  constructor
  · obtain ⟨a, ha, hk⟩ := h.exists_key (s := lo + l.length) (by omega) (by omega)
    exact List.mem_map.mpr ⟨a, ha, hk⟩
  · intro s hs
    obtain ⟨a, ha, rfl⟩ := List.mem_map.mp hs
    exact (h.bounds ha).2

/-- The rows before the last one. -/
theorem filter_lt_last {l : List α} {a : α} (h : Consecutive key lo (l ++ [a])) :
    (l ++ [a]).filter (fun b => key b < key a) = l := by
  have hpair := h.ascending
  rw [List.pairwise_append] at hpair
  have hkeep : l.filter (fun b => key b < key a) = l := by
    rw [List.filter_eq_self]
    intro b hb
    exact decide_eq_true (hpair.2.2 b hb a (by simp))
  rw [List.filter_append, hkeep]
  simp

theorem keys {l : List α} (h : Consecutive key lo l) :
    l.map key = (List.range l.length).map fun (i : Nat) => lo + 1 + i := by
  induction l generalizing lo with
  | nil => rfl
  | cons a l ih =>
      obtain ⟨ha, hl⟩ := h
      rw [List.map_cons, ih hl, List.length_cons, List.range_succ_eq_map, List.map_cons,
        List.map_map, ha]
      congr 1
      · simp
      · apply List.map_congr_left
        intro i _
        simp only [Function.comp_apply, Nat.succ_eq_add_one]
        omega

end Consecutive

/-! ## Reading in pages -/

/-- `Pages read k ps`: reading pages of any positive sizes, each after the
last key received, starting after `k`, gave the pages `ps` and then an empty
one. -/
inductive Pages (key : α → Int) (read : Int → Nat → List α) : Int → List (List α) → Prop where
  | done {k : Int} {limit : Nat} (hlimit : 0 < limit) (h : read k limit = []) :
      Pages key read k []
  | page {k : Int} {limit : Nat} {p : List α} {a : α} {ps : List (List α)}
      (hlimit : 0 < limit) (h : read k limit = p) (ha : p.getLast? = some a)
      (hps : Pages key read (key a) ps) : Pages key read k (p :: ps)

section Pages

variable {key : α → Int} {lo : Int} {l : List α}

/-- The rows after a key, at most `limit` of them. -/
def pageAfter (key : α → Int) (l : List α) (k : Int) (limit : Nat) : List α :=
  (l.filter fun a => k < key a).take limit

/-- After the last key of a page comes what the page left. -/
theorem filter_after_page (h : Consecutive key lo l) {k : Int} {limit : Nat} {a : α}
    (ha : (pageAfter key l k limit).getLast? = some a) :
    (l.filter fun b => key a < key b) = (l.filter fun b => k < key b).drop limit := by
  obtain ⟨init, hinit⟩ := List.getLast?_eq_some_iff.mp ha
  unfold pageAfter at hinit
  rw [h.filter_gt] at hinit ⊢
  rw [h.filter_gt, List.drop_drop]
  let n := (k - lo).toNat
  have hn : n < l.length := by
    have hlen := congrArg List.length hinit
    rw [List.length_take, List.length_drop, List.length_append, List.length_singleton] at hlen
    omega
  have hcons : Consecutive key (lo + n) (init ++ [a] ++ (l.drop n).drop limit) := by
    rw [← hinit, List.take_append_drop]
    exact h.drop (by omega)
  have hkey := (Consecutive.append.mp (Consecutive.append.mp hcons).1).2.1
  have hlen := congrArg List.length hinit
  rw [List.length_take, List.length_drop, List.length_append, List.length_singleton] at hlen
  by_cases hshort : l.length ≤ n + limit
  · have hlast : (key a - lo).toNat = l.length := by omega
    rw [hlast, List.drop_length, List.drop_eq_nil_of_le (by omega)]
  · congr 1
    omega

/-- **Pages put together** are the entries after the first key. -/
theorem pages_flatten (h : Consecutive key lo l) {k : Int} {ps : List (List α)}
    (hps : Pages key (pageAfter key l) k ps) :
    ps.flatten = l.filter fun a => k < key a := by
  induction hps with
  | @done k limit hlimit hp =>
      unfold pageAfter at hp
      rw [List.flatten_nil]
      cases hrows : l.filter fun a => k < key a with
      | nil => rfl
      | cons b rest =>
          rw [hrows] at hp
          have hlen := congrArg List.length hp
          simp only [List.length_take, List.length_cons, List.length_nil] at hlen
          omega
  | @page k limit p a ps hlimit hp ha _ ih =>
      subst hp
      rw [List.flatten_cons, ih, filter_after_page h ha]
      exact List.take_append_drop _ _

/-- Reading in pages of one size comes to an end. -/
theorem pages_exist (h : Consecutive key lo l) {limit : Nat} (hlimit : 0 < limit) (k : Int) :
    ∃ ps, Pages key (pageAfter key l) k ps := by
  -- every page that is not empty moves the key forward
  generalize hn : (l.filter fun a => k < key a).length = n
  induction n using Nat.strongRecOn generalizing k with
  | _ n ih =>
      cases hlast : (pageAfter key l k limit).getLast? with
      | none => exact ⟨[], .done hlimit (List.getLast?_eq_none_iff.mp hlast)⟩
      | some a =>
          have hrest := filter_after_page h hlast
          have hpos : 0 < (l.filter fun a => k < key a).length := by
            obtain ⟨init, hinit⟩ := List.getLast?_eq_some_iff.mp hlast
            have hlen := congrArg List.length hinit
            unfold pageAfter at hlen
            rw [List.length_take, List.length_append, List.length_singleton] at hlen
            omega
          have hlt : (l.filter fun b => key a < key b).length < n := by
            rw [hrest, List.length_drop]
            omega
          obtain ⟨ps, hps⟩ := ih _ hlt (key a) rfl
          exact ⟨_ :: ps, .page hlimit rfl hlast hps⟩

end Pages

end Calcar.Lib
