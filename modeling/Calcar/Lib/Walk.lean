import Mathlib.Data.List.Basic
import Calcar.Text

/-!
# Walks over bytes

A *walk* reads bytes from a position that it moves.  It may refuse what it reads, and
it panics where it indexes or slices out of range.  Its accesses are recorded, and the
depths of its recursive calls.  A loop without a bound is given some rounds, more than
there are bytes; a loop, or a recursion, that wants more than it is given is `spent`.

What a walk meets (`Meets`) is said of all its accesses and of the value and position it
ends with; a walk that panics or is spent meets nothing.

## Main results

* `Meets.bind`, `Meets.mono`, `meets_slice`, `meets_index` — the rules of walks.
* `meets_loop` — a loop whose rounds all advance ends.
* `Willing.bind`, `Meets.ends` — walks that refuse nothing, and how they end.
-/

namespace Calcar.Lib

/-- What a walk does that can go wrong. -/
inductive Access where
  | index (pos : Nat)
  | slice (pos start stop : Nat)
  | enter (depth : Nat)
  deriving DecidableEq, Repr

/-- How a walk ends. -/
inductive Ended (α : Type) where
  | done (a : α) (pos : Nat)
  | refused
  | panicked
  | spent
  deriving DecidableEq, Repr

/-- From some bytes and a position: the accesses, and how it ends. -/
def Walk (α : Type) : Type := Bytes → Nat → List Access × Ended α

namespace Walk

variable {α β σ : Type}

/-! ## Steps -/

protected def pure (a : α) : Walk α := fun _ pos => ([], .done a pos)

protected def bind (p : Walk α) (f : α → Walk β) : Walk β := fun bytes pos =>
  match p bytes pos with
  | (as, .done a pos) => (as ++ (f a bytes pos).1, (f a bytes pos).2)
  | (as, .refused) => (as, .refused)
  | (as, .panicked) => (as, .panicked)
  | (as, .spent) => (as, .spent)

instance : Monad Walk where
  pure := Walk.pure
  bind := Walk.bind

def refuse : Walk α := fun _ _ => ([], .refused)

def spent : Walk α := fun _ _ => ([], .spent)

/-- A missing value is refused. -/
def ofOption : Option α → Walk α
  | some a => pure a
  | none => refuse

/-- The position. -/
def position : Walk Nat := fun _ pos => ([], .done pos pos)

/-- How many bytes there are. -/
def length : Walk Nat := fun bytes pos => ([], .done bytes.length pos)

def advance (n : Nat) : Walk Unit := fun _ pos => ([], .done () (pos + n))

/-- The byte at the position, where there is one. -/
def peek : Walk (Option UInt8) := fun bytes pos => ([], .done bytes[pos]? pos)

/-- The byte at the position. -/
def index : Walk UInt8 := fun bytes pos =>
  ([.index pos], match bytes[pos]? with
    | some b => .done b pos
    | none => .panicked)

/-- The bytes from `start` up to `stop`. -/
def slice (start stop : Nat) : Walk Bytes := fun bytes pos =>
  ([.slice pos start stop],
    if start ≤ stop ∧ stop ≤ bytes.length then .done ((bytes.drop start).take (stop - start)) pos
    else .panicked)

/-- The bytes from `start` up to `stop`, where they are in range. -/
def get (start stop : Nat) : Walk (Option Bytes) := fun bytes pos =>
  ([], .done (if start ≤ stop ∧ stop ≤ bytes.length
    then some ((bytes.drop start).take (stop - start)) else none) pos)

/-- An index into something else, out of range. -/
def outOfRange : Walk α := fun _ _ => ([], .panicked)

/-- A call at some depth. -/
def enter (depth : Nat) : Walk Unit := fun _ pos => ([.enter depth], .done () pos)

/-- At most so many rounds, each of which goes on with a state or leaves. -/
def rounds (body : σ → Walk (σ ⊕ α)) : Nat → σ → Walk α
  | 0, _ => spent
  | n + 1, s => do
      match ← body s with
      | .inl s => rounds body n s
      | .inr a => pure a

/-- A loop, with more rounds than there are bytes. -/
def loop (spare : Nat) (body : σ → Walk (σ ⊕ α)) (s : σ) : Walk α := fun bytes pos =>
  rounds body (bytes.length + 1 + spare) s bytes pos

/-! ## What a walk meets -/

/-- What holds of a walk that ended well. -/
def Ends (Q : α → Nat → Prop) : Ended α → Prop
  | .done a pos => Q a pos
  | .refused => True
  | .panicked => False
  | .spent => False

/-- Every access of the walk is good, and it ends well. -/
def Meets (good : Access → Prop) (bytes : Bytes) (pos : Nat) (p : Walk α)
    (Q : α → Nat → Prop) : Prop :=
  (∀ a ∈ (p bytes pos).1, good a) ∧ Ends Q (p bytes pos).2

variable {good : Access → Prop} {bytes : Bytes} {pos : Nat} {p : Walk α} {f : α → Walk β}
  {Q Q' : α → Nat → Prop} {R : β → Nat → Prop}

theorem Ends.mono {e : Ended α} (h : Ends Q e) (hq : ∀ a pos, Q a pos → Q' a pos) : Ends Q' e := by
  cases e with
  | done a pos => exact hq a pos h
  | refused => trivial
  | panicked => exact h
  | spent => exact h

theorem Meets.mono (h : Meets good bytes pos p Q) (hq : ∀ a pos, Q a pos → Q' a pos) :
    Meets good bytes pos p Q' := ⟨h.1, h.2.mono hq⟩

/-- A walk that accesses nothing. -/
theorem meets_silent {e : Ended α} (hp : p bytes pos = ([], e)) (h : Ends Q e) :
    Meets good bytes pos p Q := by
  unfold Meets
  rw [hp]
  exact ⟨List.forall_mem_nil _, h⟩

/-- A walk with one access. -/
theorem meets_access {a : Access} {e : Ended α} (hp : p bytes pos = ([a], e)) (hgood : good a)
    (h : Ends Q e) : Meets good bytes pos p Q := by
  unfold Meets
  rw [hp]
  exact ⟨List.forall_mem_singleton.mpr hgood, h⟩

theorem meets_pure {a : α} (h : Q a pos) : Meets good bytes pos (pure a) Q :=
  meets_silent rfl h

/-- A sequence. -/
theorem Meets.bind (h : Meets good bytes pos p fun a pos => Meets good bytes pos (f a) R) :
    Meets good bytes pos (p >>= f) R := by
  obtain ⟨hp, hends⟩ := h
  show Meets good bytes pos (Walk.bind p f) R
  unfold Meets Walk.bind
  generalize hrun : p bytes pos = r at hp hends
  obtain ⟨as, e⟩ := r
  cases e with
  | done a pos' =>
      obtain ⟨hf, hr⟩ := hends
      refine ⟨fun a' ha => ?_, hr⟩
      obtain ha | ha := List.mem_append.mp ha
      · exact hp a' ha
      · exact hf a' ha
  | refused => exact ⟨hp, trivial⟩
  | panicked => exact hends.elim
  | spent => exact hends.elim

theorem meets_refuse : Meets good bytes pos (refuse : Walk α) Q :=
  meets_silent rfl trivial

theorem meets_ofOption {o : Option α} (h : ∀ a, o = some a → Q a pos) :
    Meets good bytes pos (ofOption o) Q := by
  cases o with
  | none => exact meets_refuse
  | some a => exact meets_pure (h a rfl)

theorem meets_position {Q : Nat → Nat → Prop} (h : Q pos pos) :
    Meets good bytes pos position Q :=
  meets_silent rfl h

theorem meets_length {Q : Nat → Nat → Prop} (h : Q bytes.length pos) :
    Meets good bytes pos length Q :=
  meets_silent rfl h

theorem meets_advance {n : Nat} {Q : Unit → Nat → Prop} (h : Q () (pos + n)) :
    Meets good bytes pos (advance n) Q :=
  meets_silent rfl h

theorem meets_peek {Q : Option UInt8 → Nat → Prop} (h : Q bytes[pos]? pos) :
    Meets good bytes pos peek Q :=
  meets_silent rfl h

theorem meets_index {b : UInt8} {Q : UInt8 → Nat → Prop} (hgood : good (.index pos))
    (hb : bytes[pos]? = some b) (h : Q b pos) : Meets good bytes pos index Q := by
  refine meets_access (e := .done b pos) ?_ hgood h
  unfold index
  rw [hb]

theorem meets_slice {start stop : Nat} {Q : Bytes → Nat → Prop}
    (hgood : good (.slice pos start stop)) (hin : start ≤ stop ∧ stop ≤ bytes.length)
    (h : Q ((bytes.drop start).take (stop - start)) pos) :
    Meets good bytes pos (slice start stop) Q := by
  refine meets_access (e := .done _ pos) ?_ hgood h
  unfold slice
  rw [if_pos hin]

theorem meets_get {start stop : Nat} {Q : Option Bytes → Nat → Prop}
    (h : Q (if start ≤ stop ∧ stop ≤ bytes.length
      then some ((bytes.drop start).take (stop - start)) else none) pos) :
    Meets good bytes pos (get start stop) Q :=
  meets_silent rfl h

theorem meets_enter {depth : Nat} {Q : Unit → Nat → Prop} (hgood : good (.enter depth))
    (h : Q () pos) : Meets good bytes pos (enter depth) Q :=
  meets_access rfl hgood h

/-! ## Loops -/

/-- One round: it goes on further right, or it leaves. -/
def Round (inv : σ → Nat → Prop) (Q : α → Nat → Prop) (pos : Nat) : σ ⊕ α → Nat → Prop
  | .inl s, pos' => inv s pos' ∧ pos < pos'
  | .inr a, pos' => Q a pos'

theorem meets_rounds {inv : σ → Nat → Prop} {body : σ → Walk (σ ⊕ α)}
    (hin : ∀ s pos, inv s pos → pos ≤ bytes.length)
    (hbody : ∀ s pos, inv s pos → Meets good bytes pos (body s) (Round inv Q pos)) (n : Nat) :
    ∀ (s : σ) (pos : Nat), inv s pos → bytes.length < pos + n →
      Meets good bytes pos (rounds body n s) Q := by
  induction n with
  | zero =>
      intro s pos hinv hroom
      exact absurd (hin s pos hinv) (by omega)
  | succ n ih =>
      intro s pos hinv hroom
      refine ((hbody s pos hinv).mono fun r pos' hr => ?_).bind
      cases r with
      | inl s' => exact ih s' pos' hr.1 (by have := hr.2; omega)
      | inr a => exact meets_pure hr

/-- **A loop whose rounds all advance** leaves, and what its rounds keep holds until
then. -/
theorem meets_loop (inv : σ → Nat → Prop) {body : σ → Walk (σ ⊕ α)} {spare : Nat} {s : σ}
    (hin : ∀ s pos, inv s pos → pos ≤ bytes.length)
    (hbody : ∀ s pos, inv s pos → Meets good bytes pos (body s) (Round inv Q pos))
    (hinv : inv s pos) : Meets good bytes pos (loop spare body s) Q :=
  meets_rounds hin hbody _ s pos hinv (by omega)

/-! ## Walks that refuse nothing -/

/-- The walk is not refused, from any position in any bytes. -/
def Willing (p : Walk α) : Prop := ∀ bytes pos, (p bytes pos).2 ≠ .refused

theorem willing_pure (a : α) : Willing (pure a) := fun _ _ h => nomatch h

theorem willing_position : Willing position := fun _ _ h => nomatch h

theorem willing_length : Willing length := fun _ _ h => nomatch h

theorem willing_advance (n : Nat) : Willing (advance n) := fun _ _ h => nomatch h

theorem willing_get (start stop : Nat) : Willing (get start stop) := fun _ _ h => nomatch h

theorem willing_outOfRange : Willing (outOfRange : Walk α) := fun _ _ h => nomatch h

theorem willing_index : Willing index := by
  intro bytes pos h
  unfold index at h
  cases hb : bytes[pos]? <;> simp [hb] at h

theorem Willing.bind (hp : Willing p) (hf : ∀ a, Willing (f a)) : Willing (p >>= f) := by
  intro bytes pos
  show (Walk.bind p f bytes pos).2 ≠ .refused
  have hfirst := hp bytes pos
  unfold Walk.bind
  generalize p bytes pos = r at hfirst
  obtain ⟨as, e⟩ := r
  cases e with
  | done a pos' => exact hf a bytes pos'
  | refused => exact absurd rfl hfirst
  | panicked => simp
  | spent => simp

theorem willing_rounds {body : σ → Walk (σ ⊕ α)} (hbody : ∀ s, Willing (body s)) (n : Nat) :
    ∀ s, Willing (rounds body n s) := by
  induction n with
  | zero => exact fun _ _ _ h => nomatch h
  | succ n ih =>
      refine fun s => (hbody s).bind fun r => ?_
      cases r with
      | inl s' => exact ih s'
      | inr a => exact willing_pure a

theorem willing_loop {body : σ → Walk (σ ⊕ α)} (hbody : ∀ s, Willing (body s)) (spare : Nat)
    (s : σ) : Willing (loop spare body s) :=
  fun bytes pos => willing_rounds hbody (bytes.length + 1 + spare) s bytes pos

/-- A walk that refuses nothing ends where it meets something. -/
theorem Meets.ends (h : Meets good bytes pos p Q) (hp : Willing p) :
    ∃ a pos', (p bytes pos).2 = .done a pos' ∧ Q a pos' := by
  have hends := h.2
  have hnot := hp bytes pos
  generalize (p bytes pos).2 = e at hends hnot
  cases e with
  | done a pos' => exact ⟨a, pos', rfl, hends⟩
  | refused => exact absurd rfl hnot
  | panicked => exact hends.elim
  | spent => exact hends.elim

end Walk

end Calcar.Lib
