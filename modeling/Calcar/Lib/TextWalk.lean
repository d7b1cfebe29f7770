import Calcar.Lib.Utf8
import Calcar.Lib.Walk

/-!
# Walks that read characters

A walk over the bytes of a text, started in front of some of its characters, may end in
front of a part of them: it has read the characters between (`Reads`), whatever moves and
loops it is made of.

## Main results

* `reads_run`, `Reads.bind`, `Reads.bind_none` — sequences.
* `reads_loop`, `reads_again`, `reads_leave`, `reads_refused` — loops, round by round.
-/

namespace Calcar.Lib.Walk

open Utf8

variable {cs s t : List Char} {pos : Nat} {α β σ : Type}

/-- From the position, the walk ends in front of what is left, with its value, or it is
refused. -/
def Reads (cs : List Char) (pos : Nat) (p : Walk α) : Option (α × List Char) → Prop
  | none => (p (asBytes cs) pos).2 = .refused
  | some (a, rest) => ∃ pos', At cs pos' rest ∧ (p (asBytes cs) pos).2 = .done a pos'

variable {p : Walk α} {f : α → Walk β} {r : Option (β × List Char)}

theorem reads_pure {a : α} (h : At cs pos s) : Reads cs pos (pure a) (some (a, s)) :=
  ⟨pos, h, rfl⟩

theorem reads_refuse : Reads cs pos (refuse : Walk α) none := rfl

/-- A sequence whose first part is refused. -/
theorem Reads.bind_none (h : Reads cs pos p none) : Reads cs pos (p >>= f) none := by
  show (Walk.bind p f (asBytes cs) pos).2 = _
  unfold Walk.bind
  have hrun : (p (asBytes cs) pos).2 = .refused := h
  generalize p (asBytes cs) pos = e at hrun
  obtain ⟨as, e⟩ := e
  cases hrun
  rfl

/-- A sequence whose first part ends with a value. -/
theorem reads_run {as : List Access} {a : α} {pos' : Nat}
    (hrun : p (asBytes cs) pos = (as, .done a pos')) (h : Reads cs pos' (f a) r) :
    Reads cs pos (p >>= f) r := by
  have hsecond : ((p >>= f) (asBytes cs) pos).2 = (f a (asBytes cs) pos').2 := by
    show (Walk.bind p f (asBytes cs) pos).2 = _
    unfold Walk.bind
    rw [hrun]
  cases r with
  | none => exact hsecond.trans h
  | some out =>
      obtain ⟨pos'', hat, hend⟩ := h
      exact ⟨pos'', hat, hsecond.trans hend⟩

/-- A sequence whose first part reads. -/
theorem Reads.bind {a : α} (h : Reads cs pos p (some (a, t)))
    (hf : ∀ pos', At cs pos' t → Reads cs pos' (f a) r) : Reads cs pos (p >>= f) r := by
  obtain ⟨pos', hat, hrun⟩ := h
  exact reads_run (Prod.ext rfl hrun) (hf pos' hat)

theorem reads_position {f : Nat → Walk β} (h : Reads cs pos (f pos) r) :
    Reads cs pos (position >>= f) r := reads_run rfl h

theorem reads_length {f : Nat → Walk β} (h : Reads cs pos (f (asBytes cs).length) r) :
    Reads cs pos (length >>= f) r := reads_run rfl h

theorem reads_peek {f : Option UInt8 → Walk β} (h : Reads cs pos (f (asBytes cs)[pos]?) r) :
    Reads cs pos (peek >>= f) r := reads_run rfl h

theorem reads_advance {n : Nat} {f : Unit → Walk β} (h : Reads cs (pos + n) (f ()) r) :
    Reads cs pos (advance n >>= f) r := reads_run rfl h

theorem reads_enter {depth : Nat} {f : Unit → Walk β} (h : Reads cs pos (f ()) r) :
    Reads cs pos (enter depth >>= f) r := reads_run rfl h

theorem reads_some {a : α} (h : Reads cs pos (f a) r) :
    Reads cs pos (ofOption (some a) >>= f) r := reads_run rfl h

theorem reads_none : Reads cs pos (ofOption none >>= f) none := rfl

theorem reads_index {b : UInt8} {f : UInt8 → Walk β} (hb : (asBytes cs)[pos]? = some b)
    (h : Reads cs pos (f b) r) : Reads cs pos (index >>= f) r :=
  reads_run (by rw [index, hb]) h

theorem reads_slice {start stop : Nat} {f : Bytes → Walk β}
    (hin : start ≤ stop ∧ stop ≤ (asBytes cs).length)
    (h : Reads cs pos (f (((asBytes cs).drop start).take (stop - start))) r) :
    Reads cs pos (slice start stop >>= f) r :=
  reads_run (by rw [slice, if_pos hin]) h

/-! ## Loops -/

section Rounds

variable {body : σ → Walk (σ ⊕ β)} {st : σ} {n spare : Nat}

theorem reads_again (st' : σ) (t : List Char)
    (h : Reads cs pos (body st) (some (.inl st', t)))
    (hrest : ∀ pos', At cs pos' t → Reads cs pos' (rounds body n st') r) :
    Reads cs pos (rounds body (n + 1) st) r := Reads.bind h hrest

theorem reads_leave {b : β} (h : Reads cs pos (body st) (some (.inr b, t))) :
    Reads cs pos (rounds body (n + 1) st) (some (b, t)) :=
  Reads.bind h fun _ hat => reads_pure hat

theorem reads_refused (h : Reads cs pos (body st) none) :
    Reads cs pos (rounds body (n + 1) st) none := Reads.bind_none h

/-- A loop has more rounds than there are characters left. -/
theorem reads_loop (hat : At cs pos s)
    (h : ∀ n, s.length < n → Reads cs pos (rounds body n st) r) :
    Reads cs pos (loop spare body st) r := by
  have hplace := hat.place
  have hlength := length_asBytes s
  have hrounds := h ((asBytes cs).length + 1 + spare) (by omega)
  cases r <;> exact hrounds

end Rounds

end Calcar.Lib.Walk
