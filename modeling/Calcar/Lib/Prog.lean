/-!
# Programs over a command signature

A service that talks to databases, clocks and sockets is a program that
issues *commands* and continues with their answers.  `Prog Cmd Ans α` is
that program as a tree: a leaf returns a value, a node issues one command
and has one subtree for each possible answer.  Nothing about the outside
world is fixed here; a world is an `Exec`, a partial function that carries
out one command.  `none` means the command cannot be carried out yet (it
waits for a lock), so a program in front of it simply does not move.

Two readings of a program are given.  `Runs` is the run of one program
alone, from a first to a last world; `Only` says which commands a program
can issue at all, whatever the answers are.

## Main results

* `runs_bind` — a run of `p >>= f` is a run of `p` followed by one of `f`.
* `Only.bind`, `Only.runs` — the commands of a program bound what any run
  of it does to the world.
* `Only.expand` — a program over an interface keeps to what every
  implementation of the interface keeps to.
* `eval_runs` — the executable evaluator only produces runs.
-/

namespace Calcar.Lib

/-- A program that issues commands `c : Cmd` and is answered by `Ans c`. -/
inductive Prog (Cmd : Type) (Ans : Cmd → Type) (α : Type) : Type where
  | ret (a : α)
  | call (c : Cmd) (k : Ans c → Prog Cmd Ans α)

/-- One command carried out for thread `i`.  The oracle settles what the
program does not: whether the command fails, which bytes are drawn. -/
abbrev Exec (Cmd : Type) (Ans : Cmd → Type) (World Oracle : Type) : Type :=
  Nat → (c : Cmd) → Oracle → World → Option (World × Ans c)

namespace Prog

variable {Cmd : Type} {Ans : Cmd → Type} {α β γ : Type}

/-- Sequential composition. -/
def bind : Prog Cmd Ans α → (α → Prog Cmd Ans β) → Prog Cmd Ans β
  | .ret a, f => f a
  | .call c k, f => .call c fun r => (k r).bind f

instance : Monad (Prog Cmd Ans) where
  pure := .ret
  bind := bind

/-- The program that issues one command and returns its answer. -/
def perform (c : Cmd) : Prog Cmd Ans (Ans c) := .call c .ret

@[simp] theorem pure_eq (a : α) : (pure a : Prog Cmd Ans α) = .ret a := rfl

@[simp] theorem ret_bind (a : α) (f : α → Prog Cmd Ans β) :
    (Prog.ret a >>= f) = f a := rfl

@[simp] theorem call_bind (c : Cmd) (k : Ans c → Prog Cmd Ans α)
    (f : α → Prog Cmd Ans β) :
    (Prog.call c k >>= f) = .call c fun r => k r >>= f := rfl

@[simp] theorem perform_bind (c : Cmd) (f : Ans c → Prog Cmd Ans β) :
    (perform c >>= f) = .call c f := rfl

theorem bind_assoc (p : Prog Cmd Ans α) (f : α → Prog Cmd Ans β)
    (g : β → Prog Cmd Ans γ) :
    ((p >>= f) >>= g) = (p >>= fun a => f a >>= g) := by
  induction p with
  | ret a => rfl
  | call c k ih =>
      simp only [call_bind]
      congr 1
      funext r
      exact ih r

theorem bind_ret (p : Prog Cmd Ans α) : (p >>= fun a => .ret a) = p := by
  induction p with
  | ret a => rfl
  | call c k ih =>
      simp only [call_bind]
      congr 1
      funext r
      exact ih r

/-- Every command of an interface carried out by a program over another
signature. -/
def expand {Cmd' : Type} {Ans' : Cmd' → Type}
    (impl : (c : Cmd) → Prog Cmd' Ans' (Ans c)) : Prog Cmd Ans α → Prog Cmd' Ans' α
  | .ret a => .ret a
  | .call c k => impl c >>= fun r => (k r).expand impl

section Expand

variable {Cmd' : Type} {Ans' : Cmd' → Type} (impl : (c : Cmd) → Prog Cmd' Ans' (Ans c))

@[simp] theorem expand_ret (a : α) :
    (Prog.ret a : Prog Cmd Ans α).expand impl = .ret a := rfl

@[simp] theorem expand_call (c : Cmd) (k : Ans c → Prog Cmd Ans α) :
    (Prog.call c k).expand impl = (impl c >>= fun r => (k r).expand impl) := rfl

@[simp] theorem expand_bind (p : Prog Cmd Ans α) (f : α → Prog Cmd Ans β) :
    (p >>= f).expand impl = (p.expand impl >>= fun a => (f a).expand impl) := by
  induction p with
  | ret a => rfl
  | call c k ih =>
      rw [call_bind, expand_call, expand_call, bind_assoc]
      congr 1
      funext r
      exact ih r

/-- Expanding twice is expanding by the expanded implementation. -/
theorem expand_expand {Cmd'' : Type} {Ans'' : Cmd'' → Type}
    (impl' : (c : Cmd') → Prog Cmd'' Ans'' (Ans' c)) (p : Prog Cmd Ans α) :
    (p.expand impl).expand impl' = p.expand fun c => (impl c).expand impl' := by
  induction p with
  | ret a => rfl
  | call c k ih =>
      rw [expand_call, expand_bind, expand_call]
      congr 1
      funext r
      exact ih r

end Expand

/-! ## The commands a program can issue -/

/-- Every command the program can issue, whatever it is answered,
satisfies `P`. -/
def Only (P : Cmd → Prop) : Prog Cmd Ans α → Prop
  | .ret _ => True
  | .call c k => P c ∧ ∀ r, (k r).Only P

@[simp] theorem only_ret (P : Cmd → Prop) (a : α) :
    (Prog.ret a : Prog Cmd Ans α).Only P := trivial

@[simp] theorem only_call (P : Cmd → Prop) (c : Cmd)
    (k : Ans c → Prog Cmd Ans α) :
    (Prog.call c k).Only P ↔ P c ∧ ∀ r, (k r).Only P := Iff.rfl

theorem only_perform {P : Cmd → Prop} {c : Cmd} (h : P c) :
    (perform c : Prog Cmd Ans (Ans c)).Only P := ⟨h, fun _ => trivial⟩

theorem Only.bind {P : Cmd → Prop} {p : Prog Cmd Ans α}
    {f : α → Prog Cmd Ans β} (hp : p.Only P) (hf : ∀ a, (f a).Only P) :
    (p >>= f).Only P := by
  induction p with
  | ret a => exact hf a
  | call c k ih => exact ⟨hp.1, fun r => ih r (hp.2 r)⟩

theorem Only.mono {P Q : Cmd → Prop} {p : Prog Cmd Ans α}
    (hp : p.Only P) (h : ∀ c, P c → Q c) : p.Only Q := by
  induction p with
  | ret a => trivial
  | call c k ih => exact ⟨h c hp.1, fun r => ih r (hp.2 r)⟩

/-- What every implementation keeps to, every program over the interface
keeps to. -/
theorem Only.expand {Cmd' : Type} {Ans' : Cmd' → Type}
    {impl : (c : Cmd) → Prog Cmd' Ans' (Ans c)} {P : Cmd → Prop} {Q : Cmd' → Prop}
    (himpl : ∀ c, P c → (impl c).Only Q) {p : Prog Cmd Ans α} (hp : p.Only P) :
    (p.expand impl).Only Q := by
  induction p with
  | ret a => trivial
  | call c k ih => exact (himpl c hp.1).bind fun r => ih r (hp.2 r)

/-- Every program keeps to what holds of every command. -/
theorem only_of_all {P : Cmd → Prop} (h : ∀ c, P c) (p : Prog Cmd Ans α) : p.Only P := by
  induction p with
  | ret a => trivial
  | call c k ih => exact ⟨h c, ih⟩

/-! ## Runs of one program -/

section Runs

variable {World Oracle : Type}

/-- `Runs exec ok i p w a w'`: alone, as thread `i` and with oracles that
satisfy `ok`, the program `p` leads from `w` to `w'` and returns `a`. -/
inductive Runs (exec : Exec Cmd Ans World Oracle) (ok : Oracle → Prop) (i : Nat) :
    Prog Cmd Ans α → World → α → World → Prop where
  | ret (a : α) (w : World) : Runs exec ok i (.ret a) w a w
  | call {c : Cmd} {k : Ans c → Prog Cmd Ans α} {w w₁ w₂ : World}
      {o : Oracle} {r : Ans c} {a : α} (ho : ok o)
      (hc : exec i c o w = some (w₁, r)) (hk : Runs exec ok i (k r) w₁ a w₂) :
      Runs exec ok i (.call c k) w a w₂

variable {exec : Exec Cmd Ans World Oracle} {ok : Oracle → Prop} {i : Nat}

@[simp] theorem runs_ret {a b : α} {w w' : World} :
    Runs exec ok i (.ret a : Prog Cmd Ans α) w b w' ↔ b = a ∧ w' = w := by
  constructor
  · intro h
    cases h with
    | ret => exact ⟨rfl, rfl⟩
  · rintro ⟨rfl, rfl⟩
    exact .ret _ _

theorem runs_call {c : Cmd} {k : Ans c → Prog Cmd Ans α} {a : α} {w w' : World} :
    Runs exec ok i (.call c k) w a w' ↔
      ∃ o w₁ r, ok o ∧ exec i c o w = some (w₁, r) ∧
        Runs exec ok i (k r) w₁ a w' := by
  constructor
  · intro h
    cases h with
    | call ho hc hk => exact ⟨_, _, _, ho, hc, hk⟩
  · rintro ⟨o, w₁, r, ho, hc, hk⟩
    exact .call ho hc hk

@[simp] theorem runs_perform {c : Cmd} {r : Ans c} {w w' : World} :
    Runs exec ok i (perform c : Prog Cmd Ans (Ans c)) w r w' ↔
      ∃ o, ok o ∧ exec i c o w = some (w', r) := by
  rw [perform, runs_call]
  constructor
  · rintro ⟨o, w₁, r', ho, hc, hk⟩
    obtain ⟨rfl, rfl⟩ := runs_ret.mp hk
    exact ⟨o, ho, hc⟩
  · rintro ⟨o, ho, hc⟩
    exact ⟨o, w', r, ho, hc, runs_ret.mpr ⟨rfl, rfl⟩⟩

/-- A run of a sequence splits where the first program returns. -/
theorem runs_bind {p : Prog Cmd Ans α} {f : α → Prog Cmd Ans β} {b : β}
    {w w' : World} :
    Runs exec ok i (p >>= f) w b w' ↔
      ∃ a w₁, Runs exec ok i p w a w₁ ∧ Runs exec ok i (f a) w₁ b w' := by
  constructor
  · intro h
    induction p generalizing w with
    | ret a => exact ⟨a, w, .ret a w, h⟩
    | call c k ih =>
        rw [call_bind, runs_call] at h
        obtain ⟨o, w₁, r, ho, hc, hk⟩ := h
        obtain ⟨a, w₂, hp, hf⟩ := ih r hk
        exact ⟨a, w₂, .call ho hc hp, hf⟩
  · rintro ⟨a, w₁, hp, hf⟩
    induction hp with
    | ret a w => exact hf
    | call ho hc _ ih => exact .call ho hc (ih hf)

theorem Runs.mono {ok' : Oracle → Prop} (hok : ∀ o, ok o → ok' o)
    {p : Prog Cmd Ans α} {a : α} {w w' : World} (h : Runs exec ok i p w a w') :
    Runs exec ok' i p w a w' := by
  induction h with
  | ret a w => exact .ret a w
  | call ho hc _ ih => exact .call (hok _ ho) hc ih

/-- What each command of a program preserves, every run of it preserves. -/
theorem Only.runs {P : Cmd → Prop} {I : World → Prop}
    (hstep : ∀ c o w w' r, P c → exec i c o w = some (w', r) → I w → I w')
    {p : Prog Cmd Ans α} (hp : p.Only P) {a : α} {w w' : World}
    (h : Runs exec ok i p w a w') (hw : I w) : I w' := by
  induction h with
  | ret a w => exact hw
  | call _ hc _ ih => exact ih (hp.2 _) (hstep _ _ _ _ _ hp.1 hc hw)

/-- The evaluator: the `n`th command is settled by the oracle `os n`. -/
def eval (exec : Exec Cmd Ans World Oracle) (i : Nat) :
    Prog Cmd Ans α → (Nat → Oracle) → World → Option (α × World)
  | .ret a, _, w => some (a, w)
  | .call c k, os, w =>
      match exec i c (os 0) w with
      | none => none
      | some (w₁, r) => (k r).eval exec i (fun n => os (n + 1)) w₁

theorem eval_runs {p : Prog Cmd Ans α} {os : Nat → Oracle} (hos : ∀ n, ok (os n))
    {w w' : World} {a : α} (h : p.eval exec i os w = some (a, w')) :
    Runs exec ok i p w a w' := by
  induction p generalizing os w with
  | ret b =>
      simp only [eval, Option.some.injEq, Prod.mk.injEq] at h
      exact runs_ret.mpr ⟨h.1.symm, h.2.symm⟩
  | call c k ih =>
      simp only [eval] at h
      cases hc : exec i c (os 0) w with
      | none => rw [hc] at h; cases h
      | some p =>
          obtain ⟨w₁, r⟩ := p
          rw [hc] at h
          exact .call (hos 0) hc (ih r (fun n => hos (n + 1)) h)

/-- What the evaluator returns, and where it leaves the world. -/
def result (exec : Exec Cmd Ans World Oracle) (i : Nat) (p : Prog Cmd Ans α)
    (os : Nat → Oracle) (w : World) : Option α := (p.eval exec i os w).map Prod.fst

def after (exec : Exec Cmd Ans World Oracle) (i : Nat) (p : Prog Cmd Ans α)
    (os : Nat → Oracle) (w : World) : World :=
  match p.eval exec i os w with
  | some (_, w') => w'
  | none => w

theorem result_runs {p : Prog Cmd Ans α} (os : Nat → Oracle) (hos : ∀ n, ok (os n))
    {w : World} {a : α} (h : p.result exec i os w = some a) :
    Runs exec ok i p w a (p.after exec i os w) := by
  unfold result at h
  unfold after
  cases he : p.eval exec i os w with
  | none => rw [he] at h; cases h
  | some x =>
      obtain ⟨b, w'⟩ := x
      rw [he] at h
      have hb : b = a := by simpa using h
      subst hb
      exact eval_runs hos he

end Runs

end Prog

end Calcar.Lib
