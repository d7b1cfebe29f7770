/-!
# Machines that take events

A machine is a partial function from a state and an event to the next state;
an event it gives no state for cannot happen there.  A run is a list of events
taken one after another.  `Every` says of a run that each of its steps meets a
predicate on the state before, the event and the state after.

## Main results

* `every_congr` — predicates that agree on the steps of the machine agree on
  its runs.
* `every_iff` — the same from an invariant.
* `Every.carry` — from one predicate on steps to another one, with an invariant.
* `every_of_inv` — an invariant whose steps all meet a predicate.
* `Every.keeps` — what each step keeps, the run keeps.
* `Along.carry` — from a predicate on states and events to another one, with an
  invariant.
-/

namespace Calcar.Lib

variable {State Event : Type} (next : State → Event → Option State)

/-- The state after a list of events, if each of them can happen. -/
def follow : State → List Event → Option State
  | s, [] => some s
  | s, e :: es => (next s e).bind fun s' => follow s' es

/-- Each step of the run meets `P`. -/
def Every (P : State → Event → State → Prop) : State → List Event → Prop
  | _, [] => True
  | s, e :: es => ∀ s', next s e = some s' → P s e s' ∧ Every P s' es

variable {next}

theorem follow_cons {s s' : State} {e : Event} {es : List Event}
    (h : follow next s (e :: es) = some s') :
    ∃ s₁, next s e = some s₁ ∧ follow next s₁ es = some s' := by
  simpa [follow, Option.bind_eq_some_iff] using h

theorem follow_append (s : State) (es es' : List Event) :
    follow next s (es ++ es') = (follow next s es).bind fun s' => follow next s' es' := by
  induction es generalizing s with
  | nil => rfl
  | cons e es ih =>
      rw [List.cons_append, follow, follow, Option.bind_assoc]
      exact congrArg _ (funext fun s' => ih s')

theorem every_mono {P Q : State → Event → State → Prop}
    (hstep : ∀ s e s', next s e = some s' → P s e s' → Q s e s') {s : State}
    {es : List Event} (h : Every next P s es) : Every next Q s es := by
  induction es generalizing s with
  | nil => exact h
  | cons e es ih =>
      intro s' hs
      have hhere := h s' hs
      exact ⟨hstep s e s' hs hhere.1, ih hhere.2⟩

theorem every_congr {P Q : State → Event → State → Prop}
    (hstep : ∀ s e s', next s e = some s' → (P s e s' ↔ Q s e s')) (s : State)
    (es : List Event) : Every next P s es ↔ Every next Q s es := by
  constructor
  · exact every_mono fun s e s' hs => (hstep s e s' hs).1
  · exact every_mono fun s e s' hs => (hstep s e s' hs).2

theorem Every.cons {P : State → Event → State → Prop} {s s₁ : State} {e : Event}
    {es : List Event} (hnext : next s e = some s₁) (hP : P s e s₁) (hes : Every next P s₁ es) :
    Every next P s (e :: es) := by
  intro s' hs
  cases hnext.symm.trans hs
  exact ⟨hP, hes⟩

/-- Predicates that agree on the steps from states that meet an invariant agree
on the runs, if the steps that meet one of them keep it. -/
theorem every_iff {P Q : State → Event → State → Prop} (Inv : State → Prop)
    (hstep : ∀ s e s', Inv s → next s e = some s' →
      (P s e s' ↔ Q s e s') ∧ (P s e s' → Inv s'))
    {s : State} (hs : Inv s) (es : List Event) : Every next P s es ↔ Every next Q s es := by
  induction es generalizing s with
  | nil => exact Iff.rfl
  | cons e es ih =>
      constructor
      · intro h s' hnext
        obtain ⟨hiff, hinv⟩ := hstep s e s' hs hnext
        have hhere := h s' hnext
        exact ⟨hiff.1 hhere.1, (ih (hinv hhere.1)).1 hhere.2⟩
      · intro h s' hnext
        obtain ⟨hiff, hinv⟩ := hstep s e s' hs hnext
        have hhere := h s' hnext
        have hP := hiff.2 hhere.1
        exact ⟨hP, (ih (hinv hP)).2 hhere.2⟩

/-- An invariant that the steps with one predicate keep carries it over to another. -/
theorem Every.carry {P Q : State → Event → State → Prop} (Inv : State → Prop)
    (hstep : ∀ s e s', Inv s → next s e = some s' → P s e s' → Q s e s' ∧ Inv s')
    {s : State} {es : List Event} (hs : Inv s) (h : Every next P s es) : Every next Q s es := by
  induction es generalizing s with
  | nil => exact h
  | cons e es ih =>
      intro s' hnext
      have hhere := h s' hnext
      obtain ⟨hQ, hinv⟩ := hstep s e s' hs hnext hhere.1
      exact ⟨hQ, ih hinv hhere.2⟩

/-- An invariant whose steps all meet a predicate. -/
theorem every_of_inv {P : State → Event → State → Prop} (Inv : State → Prop)
    (hstep : ∀ s e s', Inv s → next s e = some s' → P s e s' ∧ Inv s')
    {s : State} (hs : Inv s) (es : List Event) : Every next P s es := by
  induction es generalizing s with
  | nil => trivial
  | cons e es ih =>
      intro s' hnext
      have hhere := hstep s e s' hs hnext
      exact ⟨hhere.1, ih hhere.2⟩

/-- The last step of a run is one of its steps. -/
theorem Every.last {P : State → Event → State → Prop} {s s₁ s₂ : State} {es : List Event}
    {e : Event} (h : Every next P s (es ++ [e])) (hrun : follow next s es = some s₁)
    (hnext : next s₁ e = some s₂) : P s₁ e s₂ := by
  induction es generalizing s with
  | nil =>
      rw [follow, Option.some.injEq] at hrun
      subst hrun
      exact (h s₂ hnext).1
  | cons d es ih =>
      obtain ⟨s', hfirst, hrest⟩ := follow_cons hrun
      exact ih (h s' hfirst).2 hrest

/-- What a step that meets `P` keeps is kept by a run whose steps do. -/
theorem Every.keeps {P : State → Event → State → Prop} (Inv : State → Prop)
    (allowed : Event → Prop)
    (hstep : ∀ s e s', Inv s → allowed e → next s e = some s' → P s e s' → Inv s')
    {s s' : State} {es : List Event} (h : Every next P s es) (hall : ∀ e ∈ es, allowed e)
    (hs : Inv s) (hrun : follow next s es = some s') : Inv s' := by
  induction es generalizing s with
  | nil =>
      rw [follow, Option.some.injEq] at hrun
      rwa [hrun] at hs
  | cons e es ih =>
      obtain ⟨s₁, hnext, hrest⟩ := follow_cons hrun
      have hhere := h s₁ hnext
      have hinv := hstep s e s₁ hs (hall e List.mem_cons_self) hnext hhere.1
      exact ih hhere.2 (fun e' he' => hall e' (List.mem_cons_of_mem e he')) hinv hrest

/-! ## Runs that are computed -/

variable (next) in
/-- `p` holds of each event in the state it meets. -/
def passes (p : State → Event → Bool) : State → List Event → Bool
  | _, [] => true
  | s, e :: es => p s e && (next s e).all fun s' => passes p s' es

theorem every_of_passes {P : State → Event → State → Prop} {p : State → Event → Bool}
    (hp : ∀ s e s', p s e = true → P s e s') {s : State} {es : List Event}
    (h : passes next p s es = true) : Every next P s es := by
  induction es generalizing s with
  | nil => trivial
  | cons e es ih =>
      intro s' hnext
      rw [passes, hnext, Bool.and_eq_true] at h
      exact ⟨hp s e s' h.1, ih h.2⟩

/-! ## Before each event -/

variable (next) in
/-- `P` holds of each event in the state it meets, whether or not it can happen
there. -/
def Along (P : State → Event → Prop) : State → List Event → Prop
  | _, [] => True
  | s, e :: es => P s e ∧ ∀ s', next s e = some s' → Along P s' es

theorem Along.cons {P : State → Event → Prop} {s s₁ : State} {e : Event} {es : List Event}
    (hP : P s e) (hnext : next s e = some s₁) (hes : Along next P s₁ es) :
    Along next P s (e :: es) := by
  refine ⟨hP, fun s' hs => ?_⟩
  cases hnext.symm.trans hs
  exact hes

/-- The last event meets the state the others lead to. -/
theorem Along.last {P : State → Event → Prop} {s s₁ : State} {es : List Event} {e : Event}
    (h : Along next P s (es ++ [e])) (hrun : follow next s es = some s₁) : P s₁ e := by
  induction es generalizing s with
  | nil =>
      rw [follow, Option.some.injEq] at hrun
      subst hrun
      exact h.1
  | cons d es ih =>
      obtain ⟨s', hfirst, hrest⟩ := follow_cons hrun
      exact ih (h.2 s' hfirst) hrest

/-- An invariant carries one predicate over to another. -/
theorem Along.carry {P Q : State → Event → Prop} (Inv : State → Prop)
    (hstep : ∀ s e, Inv s → P s e → Q s e ∧ ∀ s', next s e = some s' → Inv s')
    {s : State} {es : List Event} (hs : Inv s) (h : Along next P s es) : Along next Q s es := by
  induction es generalizing s with
  | nil => trivial
  | cons e es ih =>
      obtain ⟨hQ, hnext⟩ := hstep s e hs h.1
      exact ⟨hQ, fun s' hs' => ih (hnext s' hs') (h.2 s' hs')⟩

end Calcar.Lib
