/-!
# Keyed storage with expiry

A `TtlMap` stores values under keys, each with an optional instant at which
it expires.  Reading takes the current instant: an expired key reads as
absent, and writing to it starts a new entry.  When the storage itself drops
expired keys is not observable, so no operation here does.

## Main results

* `get_set_self`, `get_set_ne`, `get_update_self`, `get_update_ne`,
  `get_expire_self`, `get_expire_ne`, `get_del_self`, `get_del_ne` — what a
  read sees after a write.
* `get_later` — what is readable now was readable at every earlier instant
  since the last write.
* `update_all`, `expire_all` — what a write keeps of every entry.
-/

namespace Calcar.Lib

/-- A stored value and the instant from which it is gone. -/
structure Entry (V : Type) where
  val : V
  exp : Option Int := none

/-- The entry is still there at `now`. -/
def Entry.live {V : Type} (now : Int) (e : Entry V) : Bool :=
  match e.exp with
  | none => true
  | some t => decide (now < t)

/-- Values under keys, each with its expiry. -/
abbrev TtlMap (K V : Type) : Type := K → Option (Entry V)

namespace TtlMap

variable {K V : Type}

/-- No keys. -/
def empty : TtlMap K V := fun _ => none

/-- The entry under `k`, unless it has expired. -/
def entry (m : TtlMap K V) (now : Int) (k : K) : Option (Entry V) :=
  match m k with
  | some e => if e.live now then some e else none
  | none => none

/-- The value under `k`, unless it has expired. -/
def get (m : TtlMap K V) (now : Int) (k : K) : Option V :=
  (m.entry now k).map Entry.val

/-! ## Reading -/

theorem get_eq_some {m : TtlMap K V} {now : Int} {k : K} {v : V} :
    m.get now k = some v ↔ ∃ e, m.entry now k = some e ∧ e.val = v := by
  simp [get]

/-- A readable entry is a stored one that has not expired. -/
theorem entry_eq_some {m : TtlMap K V} {now : Int} {k : K} {e : Entry V} :
    m.entry now k = some e ↔ m k = some e ∧ e.live now = true := by
  unfold entry
  cases h : m k with
  | none => simp
  | some e' =>
      simp only [Option.some.injEq]
      by_cases hl : e'.live now = true
      · rw [if_pos hl]
        constructor
        · intro he
          obtain rfl := Option.some.inj he
          exact ⟨rfl, hl⟩
        · rintro ⟨rfl, _⟩
          rfl
      · rw [if_neg hl]
        constructor
        · intro he
          cases he
        · rintro ⟨rfl, hl'⟩
          exact absurd hl' hl

theorem entry_congr {m m' : TtlMap K V} {k : K} (h : m' k = m k) (now : Int) :
    m'.entry now k = m.entry now k := by
  unfold entry
  rw [h]

theorem get_congr {m m' : TtlMap K V} {k : K} (h : m' k = m k) (now : Int) :
    m'.get now k = m.get now k := by
  unfold get
  rw [entry_congr h]

/-- Time only takes keys away. -/
theorem get_later {m : TtlMap K V} {now now' : Int} (h : now ≤ now') {k : K}
    {v : V} (hg : m.get now' k = some v) : m.get now k = some v := by
  obtain ⟨e, he, rfl⟩ := get_eq_some.mp hg
  obtain ⟨hm, hl⟩ := entry_eq_some.mp he
  refine get_eq_some.mpr ⟨e, entry_eq_some.mpr ⟨hm, ?_⟩, rfl⟩
  unfold Entry.live at hl ⊢
  split
  · rfl
  · rename_i t ht
    rw [ht] at hl
    simp only [decide_eq_true_eq] at hl ⊢
    omega

/-! ## Writing -/

variable [DecidableEq K]

/-- Replace whatever is under `k`. -/
def set (m : TtlMap K V) (k : K) (v : V) (exp : Option Int) : TtlMap K V :=
  fun k' => if k' = k then some ⟨v, exp⟩ else m k'

/-- Change the value under `k` and keep its expiry; an absent or expired key
starts from `none` and gets no expiry. -/
def update (m : TtlMap K V) (now : Int) (k : K) (f : Option V → V) : TtlMap K V :=
  match m.entry now k with
  | some e => m.set k (f (some e.val)) e.exp
  | none => m.set k (f none) none

/-- Give a present key a new expiry; nothing happens to an absent one. -/
def expire (m : TtlMap K V) (now : Int) (k : K) (t : Int) : TtlMap K V :=
  match m.entry now k with
  | some e => m.set k e.val (some t)
  | none => m

/-- Drop a key. -/
def del (m : TtlMap K V) (k : K) : TtlMap K V :=
  fun k' => if k' = k then none else m k'

/-! ## Reads after writes -/

@[simp] theorem set_self (m : TtlMap K V) (k : K) (v : V) (exp : Option Int) :
    m.set k v exp k = some ⟨v, exp⟩ := by
  simp [set]

theorem set_ne (m : TtlMap K V) {k k' : K} (v : V) (exp : Option Int)
    (h : k' ≠ k) : m.set k v exp k' = m k' := by
  simp [set, h]

theorem get_set_ne (m : TtlMap K V) {k k' : K} (v : V) (exp : Option Int)
    (h : k' ≠ k) (now : Int) : (m.set k v exp).get now k' = m.get now k' :=
  get_congr (m.set_ne v exp h) now

theorem entry_set_self (m : TtlMap K V) (k : K) (v : V) (exp : Option Int)
    (now : Int) :
    (m.set k v exp).entry now k =
      if (⟨v, exp⟩ : Entry V).live now then some ⟨v, exp⟩ else none := by
  simp [entry]

/-- A value with an expiry is readable until then. -/
theorem get_set_self (m : TtlMap K V) (k : K) (v : V) (t now : Int) :
    (m.set k v (some t)).get now k = if now < t then some v else none := by
  unfold get
  rw [entry_set_self]
  by_cases h : now < t
  · simp [Entry.live, h]
  · simp [Entry.live, h]

theorem update_ne (m : TtlMap K V) {k k' : K} (now : Int) (f : Option V → V)
    (h : k' ≠ k) : m.update now k f k' = m k' := by
  unfold update
  cases m.entry now k with
  | none => exact m.set_ne _ _ h
  | some e => exact m.set_ne _ _ h

theorem get_update_ne (m : TtlMap K V) {k k' : K} (now : Int) (f : Option V → V)
    (h : k' ≠ k) (now' : Int) : (m.update now k f).get now' k' = m.get now' k' :=
  get_congr (m.update_ne now f h) now'

/-- An update is read back at the instant it was made. -/
theorem get_update_self (m : TtlMap K V) (now : Int) (k : K) (f : Option V → V) :
    (m.update now k f).get now k = some (f (m.get now k)) := by
  unfold update get
  cases h : m.entry now k with
  | none => simp [entry_set_self, Entry.live]
  | some e =>
      have hl := (entry_eq_some.mp h).2
      simp only [Entry.live] at hl
      simp [entry_set_self, Entry.live, hl]

theorem expire_ne (m : TtlMap K V) {k k' : K} (now t : Int) (h : k' ≠ k) :
    m.expire now k t k' = m k' := by
  unfold expire
  cases m.entry now k with
  | none => rfl
  | some e => exact m.set_ne _ _ h

theorem get_expire_ne (m : TtlMap K V) {k k' : K} (now t : Int) (h : k' ≠ k)
    (now' : Int) : (m.expire now k t).get now' k' = m.get now' k' :=
  get_congr (m.expire_ne now t h) now'

/-- A new expiry in the future leaves the value readable. -/
theorem get_expire_self (m : TtlMap K V) {now t : Int} (k : K) (h : now < t) :
    (m.expire now k t).get now k = m.get now k := by
  unfold expire get
  cases he : m.entry now k with
  | none => simp [he]
  | some e => simp [entry_set_self, Entry.live, h]

/-- What a new expiry leaves readable was readable. -/
theorem get_of_expire {m : TtlMap K V} {now t : Int} {k k' : K} {v : V}
    (h : (m.expire now k t).get now k' = some v) : m.get now k' = some v := by
  by_cases hk : k' = k
  · subst hk
    unfold expire at h
    cases he : m.entry now k' with
    | none =>
        rw [he] at h
        exact h
    | some e =>
        rw [he] at h
        obtain ⟨e', he', hval⟩ := get_eq_some.mp h
        have hset : m.set k' e.val (some t) k' = some e' := (entry_eq_some.mp he').1
        rw [set_self] at hset
        obtain rfl := Option.some.inj hset
        exact get_eq_some.mpr ⟨e, he, hval⟩
  · rw [get_expire_ne m now t hk] at h
    exact h

/-- Changing a key and then giving it an expiry sets both. -/
theorem expire_update_self (m : TtlMap K V) (now : Int) (k : K) (f : Option V → V)
    (t : Int) :
    (m.update now k f).expire now k t =
      (m.update now k f).set k (f (m.get now k)) (some t) := by
  obtain ⟨e, he, hv⟩ := get_eq_some.mp (get_update_self m now k f)
  unfold expire
  rw [he, ← hv]

/-- Reading a key changed and given an expiry at `now`. -/
theorem get_expire_update_self (m : TtlMap K V) (now : Int) (k : K)
    (f : Option V → V) (t now' : Int) :
    ((m.update now k f).expire now k t).get now' k =
      if now' < t then some (f (m.get now k)) else none := by
  rw [expire_update_self, get_set_self]

theorem get_expire_update_ne (m : TtlMap K V) (now : Int) {k k' : K}
    (f : Option V → V) (t now' : Int) (h : k' ≠ k) :
    ((m.update now k f).expire now k t).get now' k' = m.get now' k' := by
  rw [get_expire_ne _ _ _ h, get_update_ne _ _ _ h]

@[simp] theorem del_self (m : TtlMap K V) (k : K) : m.del k k = none := by
  simp [del]

theorem del_ne (m : TtlMap K V) {k k' : K} (h : k' ≠ k) : m.del k k' = m k' := by
  simp [del, h]

@[simp] theorem get_del_self (m : TtlMap K V) (k : K) (now : Int) :
    (m.del k).get now k = none := by
  simp [get, entry]

theorem get_del_ne (m : TtlMap K V) {k k' : K} (h : k' ≠ k) (now : Int) :
    (m.del k).get now k' = m.get now k' :=
  get_congr (m.del_ne h) now

/-! ## What holds of every entry -/

/-- An update keeps what it keeps of the old value and gives a new entry. -/
theorem update_all {J : K → V → Prop} {m : TtlMap K V} {now : Int} {k : K}
    {f : Option V → V} (h : ∀ k e, m k = some e → J k e.val)
    (hold : ∀ v, J k v → J k (f (some v))) (hnew : J k (f none)) :
    ∀ k' e, m.update now k f k' = some e → J k' e.val := by
  intro k' e he
  by_cases hk : k' = k
  · subst hk
    unfold update at he
    cases hentry : m.entry now k' with
    | none =>
        rw [hentry] at he
        have hset := he.symm.trans (set_self m k' (f none) none)
        rw [Option.some.inj hset]
        exact hnew
    | some e₀ =>
        rw [hentry] at he
        have hset := he.symm.trans (set_self m k' (f (some e₀.val)) e₀.exp)
        rw [Option.some.inj hset]
        exact hold e₀.val (h k' e₀ (entry_eq_some.mp hentry).1)
  · rw [update_ne m now f hk] at he
    exact h k' e he

/-- A new expiry changes no value. -/
theorem expire_all {J : K → V → Prop} {m : TtlMap K V} {now t : Int} {k : K}
    (h : ∀ k e, m k = some e → J k e.val) :
    ∀ k' e, m.expire now k t k' = some e → J k' e.val := by
  intro k' e he
  by_cases hk : k' = k
  · subst hk
    unfold expire at he
    cases hentry : m.entry now k' with
    | none =>
        rw [hentry] at he
        exact h k' e he
    | some e₀ =>
        rw [hentry] at he
        have hset := he.symm.trans (set_self m k' e₀.val (some t))
        rw [Option.some.inj hset]
        exact h k' e₀ (entry_eq_some.mp hentry).1
  · rw [expire_ne m now t hk] at he
    exact h k' e he

end TtlMap

end Calcar.Lib
