import Calcar.Lib.Prog

/-!
# Concurrent programs and rely-guarantee reasoning

A `System` runs any number of programs over one shared world.  A step lets
one thread carry out its next command, lets the environment move, or starts
a new thread; nothing bounds the number of threads or orders their steps.
`System.next` is executable, so a run that goes wrong can be exhibited and
replayed.

Properties of all runs are proved thread by thread.  A `Discipline` fixes a
world invariant and says which commands a thread may issue in which world.
`Safe` reads a program against that discipline: wherever the other threads
have moved the world in the meantime, the next command is allowed, and
whatever it is answered the rest is safe again.  Under a discipline the
interference of the others is no longer arbitrary code but the allowed
commands only, which is what `Stable` assertions survive.

## Main results

* `Discipline.sound` — if every program is safe and allowed commands keep
  the invariant, then the invariant and the safety of every thread hold in
  every reachable configuration.
* `Triple.ret`, `Triple.call`, `Triple.bind`, `Triple.conseq`,
  `Triple.only`, `Triple.expand` — the rules by which programs are shown
  safe.
* `follow_reach`, `followWhere_reach` — a list of labels that can be replayed is a run.
-/

namespace Calcar.Lib

/-- Programs for tasks, commands for threads, and moves of the environment. -/
structure System (Task World Oracle Env Cmd : Type) (Ans : Cmd → Type)
    (α : Type) where
  code : Task → Prog Cmd Ans α
  exec : Exec Cmd Ans World Oracle
  env : Env → World → Option World

/-- A world together with the threads started so far; thread `i` is the
`i`th entry, what is left of its program beside the task it was started for. -/
structure Config (Task World Cmd : Type) (Ans : Cmd → Type) (α : Type) where
  world : World
  pool : List (Task × Prog Cmd Ans α)

/-- What a step of the system is. -/
inductive Label (Task Oracle Env : Type) : Type where
  | spawn (t : Task)
  | act (i : Nat) (o : Oracle)
  | env (e : Env)

namespace System

variable {Task World Oracle Env Cmd : Type} {Ans : Cmd → Type} {α : Type}
variable (S : System Task World Oracle Env Cmd Ans α)

/-- One step; `none` when the label is not enabled. -/
def next (c : Config Task World Cmd Ans α) :
    Label Task Oracle Env → Option (Config Task World Cmd Ans α)
  | .spawn t => some { c with pool := c.pool ++ [(t, S.code t)] }
  | .act i o =>
      match c.pool[i]? with
      | some (t, .call cmd k) =>
          match S.exec i cmd o c.world with
          | some (w, r) => some ⟨w, c.pool.set i (t, k r)⟩
          | none => none
      | _ => none
  | .env e =>
      match S.env e c.world with
      | some w => some { c with world := w }
      | none => none

/-- The configuration after a list of labels, if all of them are enabled. -/
def follow : Config Task World Cmd Ans α → List (Label Task Oracle Env) →
    Option (Config Task World Cmd Ans α)
  | c, [] => some c
  | c, l :: ls =>
      match S.next c l with
      | some c' => follow c' ls
      | none => none

/-- Runs all of whose steps satisfy `P`. -/
inductive Reach
    (P : Config Task World Cmd Ans α → Label Task Oracle Env → Prop)
    (c : Config Task World Cmd Ans α) : Config Task World Cmd Ans α → Prop where
  | refl : Reach P c c
  | step {c₁ c₂ : Config Task World Cmd Ans α} {l : Label Task Oracle Env}
      (h : Reach P c c₁) (hp : P c₁ l) (hs : S.next c₁ l = some c₂) :
      Reach P c c₂

variable {S}

theorem Reach.trans
    {P : Config Task World Cmd Ans α → Label Task Oracle Env → Prop}
    {c₀ c₁ c₂ : Config Task World Cmd Ans α}
    (h₁ : S.Reach P c₀ c₁) (h₂ : S.Reach P c₁ c₂) : S.Reach P c₀ c₂ := by
  induction h₂ with
  | refl => exact h₁
  | step _ hp hs ih => exact .step ih hp hs

theorem Reach.mono
    {P Q : Config Task World Cmd Ans α → Label Task Oracle Env → Prop}
    (hpq : ∀ c l, P c l → Q c l) {c₀ c₁ : Config Task World Cmd Ans α}
    (h : S.Reach P c₀ c₁) : S.Reach Q c₀ c₁ := by
  induction h with
  | refl => exact .refl
  | step _ hp hs ih => exact .step ih (hpq _ _ hp) hs

theorem follow_reach {ls : List (Label Task Oracle Env)}
    {c c' : Config Task World Cmd Ans α} (h : S.follow c ls = some c') :
    S.Reach (fun _ _ => True) c c' := by
  induction ls generalizing c with
  | nil =>
      simp only [follow, Option.some.injEq] at h
      subst h
      exact .refl
  | cons l ls ih =>
      simp only [follow] at h
      cases hn : S.next c l with
      | none => rw [hn] at h; cases h
      | some c₁ =>
          rw [hn] at h
          exact Reach.trans (.step .refl trivial hn) (ih h)

variable (S) in
/-- The configuration after a list of labels, if all of them are enabled and `ok`. -/
def followWhere (ok : Config Task World Cmd Ans α → Label Task Oracle Env → Bool) :
    Config Task World Cmd Ans α → List (Label Task Oracle Env) →
      Option (Config Task World Cmd Ans α)
  | c, [] => some c
  | c, l :: ls => if ok c l = true then (S.next c l).bind (followWhere ok · ls) else none

/-- A list of labels that can be replayed with every step `ok` is a run of such steps. -/
theorem followWhere_reach {ok : Config Task World Cmd Ans α → Label Task Oracle Env → Bool}
    {P : Config Task World Cmd Ans α → Label Task Oracle Env → Prop}
    (hok : ∀ c l, ok c l = true → P c l) {ls : List (Label Task Oracle Env)}
    {c c' : Config Task World Cmd Ans α} (h : S.followWhere ok c ls = some c') :
    S.Reach P c c' := by
  induction ls generalizing c with
  | nil =>
      cases h
      exact .refl
  | cons l ls ih =>
      rw [followWhere] at h
      split at h
      · rename_i hl
        obtain ⟨c₁, hn, h⟩ := Option.bind_eq_some_iff.1 h
        exact Reach.trans (.step .refl (hok c l hl) hn) (ih h)
      · cases h

/-- The command thread `i` is about to issue, if there is one, satisfies `p`. -/
def callChecks (c : Config Task World Cmd Ans α) (i : Nat) (p : Cmd → Bool) : Bool :=
  match c.pool[i]? with
  | some (_, .call cmd _) => p cmd
  | _ => true

theorem callChecks_call {c : Config Task World Cmd Ans α} {i : Nat} {p : Cmd → Bool}
    (h : callChecks c i p = true) {t : Task} {cmd : Cmd} {k : Ans cmd → Prog Cmd Ans α}
    (hi : c.pool[i]? = some (t, .call cmd k)) : p cmd = true := by
  simpa only [callChecks, hi] using h

variable (S) in
/-- Let thread `i` go on, one oracle for each command, until it has returned,
has to wait or the oracles are used up. -/
def drive (c : Config Task World Cmd Ans α) (i : Nat) :
    List Oracle → Config Task World Cmd Ans α
  | [] => c
  | o :: os =>
      match S.next c (.act i o) with
      | some c' => drive c' i os
      | none => c

variable (S) in
/-- Start a task and let it go on alone. -/
def serve (c : Config Task World Cmd Ans α) (t : Task) (os : List Oracle) :
    Config Task World Cmd Ans α :=
  S.drive { c with pool := c.pool ++ [(t, S.code t)] } c.pool.length os

theorem drive_reach (c : Config Task World Cmd Ans α) (i : Nat) (os : List Oracle) :
    S.Reach (fun _ _ => True) c (S.drive c i os) := by
  induction os generalizing c with
  | nil => exact .refl
  | cons o os ih =>
      simp only [drive]
      cases hn : S.next c (.act i o) with
      | none => exact .refl
      | some c' => exact Reach.trans (.step .refl trivial hn) (ih c')

theorem serve_reach (c : Config Task World Cmd Ans α) (t : Task) (os : List Oracle) :
    S.Reach (fun _ _ => True) c (S.serve c t os) := by
  have hspawn : S.next c (.spawn t) = some { c with pool := c.pool ++ [(t, S.code t)] } :=
    rfl
  exact Reach.trans (.step .refl trivial hspawn) (drive_reach _ _ os)

/-- A step of thread `i` runs its next command. -/
theorem next_act {c c' : Config Task World Cmd Ans α} {i : Nat} {o : Oracle}
    (h : S.next c (.act i o) = some c') :
    ∃ t cmd k w r, c.pool[i]? = some (t, .call cmd k) ∧
      S.exec i cmd o c.world = some (w, r) ∧
      c' = ⟨w, c.pool.set i (t, k r)⟩ := by
  simp only [next] at h
  split at h
  · rename_i t cmd k hi
    split at h
    · rename_i w r hx
      simp only [Option.some.injEq] at h
      exact ⟨t, cmd, k, w, r, hi, hx, h.symm⟩
    · cases h
  · cases h

theorem next_env {c c' : Config Task World Cmd Ans α} {e : Env}
    (h : S.next c (.env e) = some c') :
    ∃ w, S.env e c.world = some w ∧ c' = { c with world := w } := by
  simp only [next] at h
  split at h
  · rename_i w hw
    simp only [Option.some.injEq] at h
    exact ⟨w, hw, h.symm⟩
  · cases h

/-- What every command and the environment keep of the world, every run keeps. -/
theorem Reach.keeps {P : Config Task World Cmd Ans α → Label Task Oracle Env → Prop}
    {I : World → Prop}
    (hact : ∀ {i : Nat} {cmd : Cmd} {o : Oracle} {w w' : World} {r : Ans cmd},
      S.exec i cmd o w = some (w', r) → I w → I w')
    (henv : ∀ {e : Env} {w w' : World}, S.env e w = some w' → I w → I w')
    {c c' : Config Task World Cmd Ans α} (h : S.Reach P c c') (hc : I c.world) : I c'.world := by
  induction h with
  | refl => exact hc
  | @step c₁ c₂ l _ _ hs ih =>
      cases l with
      | spawn t =>
          cases hs
          exact ih
      | act i o =>
          obtain ⟨t, cmd, k, w, r, _, hx, rfl⟩ := next_act hs
          exact hact hx ih
      | env e =>
          obtain ⟨w, hx, rfl⟩ := next_env hs
          exact henv hx ih

/-- A thread that was driven to its end has run alone. -/
theorem drive_runs {ok : Oracle → Prop} {os : List Oracle} (hos : ∀ o ∈ os, ok o)
    {c : Config Task World Cmd Ans α} {i : Nat} {t : Task} {p : Prog Cmd Ans α} {a : α}
    (hi : c.pool[i]? = some (t, p)) (h : (S.drive c i os).pool[i]? = some (t, .ret a)) :
    Prog.Runs S.exec ok i p c.world a (S.drive c i os).world := by
  induction os generalizing c p with
  | nil =>
      simp only [drive] at h ⊢
      rw [hi] at h
      obtain rfl : p = .ret a := by simpa using h
      exact .ret a _
  | cons o os ih =>
      simp only [drive] at h ⊢
      cases hn : S.next c (.act i o) with
      | none =>
          rw [hn] at h
          simp only at h
          rw [hi] at h
          obtain rfl : p = .ret a := by simpa using h
          exact .ret a _
      | some c' =>
          rw [hn] at h
          simp only at h ⊢
          obtain ⟨t', cmd, k, w, r, hj, hx, rfl⟩ := next_act hn
          have hp : p = .call cmd k ∧ t = t' := by
            rw [hi] at hj
            simpa [and_comm] using hj
          obtain ⟨rfl, rfl⟩ := hp
          have hlt : i < c.pool.length := (List.getElem?_eq_some_iff.mp hi).1
          have hself : (c.pool.set i (t, k r))[i]? = some (t, k r) :=
            List.getElem?_set_self hlt
          have hrest := ih (fun o ho => hos o (List.mem_cons_of_mem _ ho))
            (c := ⟨w, c.pool.set i (t, k r)⟩) hself h
          exact .call (hos o List.mem_cons_self) hx hrest

/-- A task that was served to its end has run alone. -/
theorem serve_runs {ok : Oracle → Prop} {os : List Oracle} (hos : ∀ o ∈ os, ok o)
    {c : Config Task World Cmd Ans α} {t : Task} {a : α}
    (h : (S.serve c t os).pool[c.pool.length]? = some (t, .ret a)) :
    Prog.Runs S.exec ok c.pool.length (S.code t) c.world a (S.serve c t os).world := by
  have hi : (c.pool ++ [(t, S.code t)])[c.pool.length]? = some (t, S.code t) := by
    simp
  exact drive_runs (c := { c with pool := c.pool ++ [(t, S.code t)] }) hos hi h

/-- No step removes a thread or changes the task it was started for. -/
theorem next_task {c c' : Config Task World Cmd Ans α}
    {l : Label Task Oracle Env} (h : S.next c l = some c') {i : Nat} {t : Task}
    {p : Prog Cmd Ans α} (hi : c.pool[i]? = some (t, p)) :
    ∃ p', c'.pool[i]? = some (t, p') := by
  cases l with
  | spawn t' =>
      simp only [next, Option.some.injEq] at h
      subst h
      refine ⟨p, ?_⟩
      rw [List.getElem?_append_left (List.getElem?_eq_some_iff.mp hi).1]
      exact hi
  | act j o =>
      obtain ⟨t', cmd, k, w, r, hj, _, rfl⟩ := next_act h
      by_cases hji : j = i
      · subst hji
        rw [hi] at hj
        obtain ⟨rfl, rfl⟩ := Prod.mk.injEq _ _ _ _ ▸ Option.some.inj hj
        refine ⟨k r, ?_⟩
        rw [List.getElem?_set_self (List.getElem?_eq_some_iff.mp hi).1]
      · exact ⟨p, by rw [List.getElem?_set_ne hji]; exact hi⟩
  | env e =>
      obtain ⟨w, _, rfl⟩ := next_env h
      exact ⟨p, hi⟩

variable (S) in
theorem drive_task (os : List Oracle) {c : Config Task World Cmd Ans α} {i j : Nat}
    {t : Task} {p : Prog Cmd Ans α} (hj : c.pool[j]? = some (t, p)) :
    ∃ p', (S.drive c i os).pool[j]? = some (t, p') := by
  induction os generalizing c p with
  | nil => exact ⟨p, hj⟩
  | cons o os ih =>
      simp only [drive]
      cases hn : S.next c (.act i o) with
      | none => exact ⟨p, hj⟩
      | some c' =>
          obtain ⟨p', hj'⟩ := next_task hn hj
          exact ih hj'

end System

/-! ## Disciplines -/

/-- A world invariant, the steps a run is assumed to take, the commands a
thread is shown to keep to, and what holds of a thread's index before the
thread starts. -/
structure Discipline {Task World Oracle Env Cmd : Type} {Ans : Cmd → Type}
    {α : Type} (S : System Task World Oracle Env Cmd Ans α) where
  inv : World → Prop
  allowed : Task → Nat → Cmd → World → Prop
  presumed : Task → Nat → Cmd → Oracle → World → Prop := fun _ _ _ _ _ => True
  presumedEnv : Env → World → Prop := fun _ _ => True
  fresh : Nat → World → Prop := fun _ _ => True

namespace Discipline

variable {Task World Oracle Env Cmd : Type} {Ans : Cmd → Type} {α β : Type}
variable {S : System Task World Oracle Env Cmd Ans α} (D : Discipline S)

/-- The steps of runs the discipline speaks about. -/
def Presumes (c : Config Task World Cmd Ans α) : Label Task Oracle Env → Prop
  | .spawn _ => True
  | .act i o => ∀ t cmd k, c.pool[i]? = some (t, .call cmd k) →
      D.presumed t i cmd o c.world
  | .env e => D.presumedEnv e c.world

/-- A discipline that presumes nothing speaks about every run. -/
theorem presumes_any (hact : ∀ {t : Task} {i : Nat} {cmd : Cmd} {o : Oracle} {w : World},
      D.presumed t i cmd o w) (henv : ∀ {e : Env} {w : World}, D.presumedEnv e w)
    {P : Config Task World Cmd Ans α → Label Task Oracle Env → Prop}
    {c c' : Config Task World Cmd Ans α} (h : S.Reach P c c') : S.Reach D.Presumes c c' := by
  apply h.mono
  intro c l _
  cases l with
  | spawn t => trivial
  | act i o => exact fun _ _ _ _ => hact
  | env e => exact henv

/-- One step of interference with thread `i`. -/
inductive Other (i : Nat) (w w' : World) : Prop where
  | act {j : Nat} {t : Task} {cmd : Cmd} {o : Oracle} {r : Ans cmd} (hj : j ≠ i)
      (hw : D.inv w) (ha : D.presumed t j cmd o w) (hc : D.allowed t j cmd w)
      (hx : S.exec j cmd o w = some (w', r))
  | env {e : Env} (hw : D.inv w) (ha : D.presumedEnv e w)
      (hx : S.env e w = some w')

/-- Any number of steps of interference. -/
inductive Rely (i : Nat) (w : World) : World → Prop where
  | refl : Rely i w w
  | step {w₁ w₂ : World} (h : Rely i w w₁) (hs : D.Other i w₁ w₂) : Rely i w w₂

/-- An assertion the other threads cannot invalidate. -/
def Stable (i : Nat) (A : World → Prop) : Prop :=
  ∀ w w', D.Other i w w' → A w → A w'

variable {D}

theorem Rely.trans {i : Nat} {w w₁ w₂ : World} (h₁ : D.Rely i w w₁)
    (h₂ : D.Rely i w₁ w₂) : D.Rely i w w₂ := by
  induction h₂ with
  | refl => exact h₁
  | step _ hs ih => exact .step ih hs

theorem Stable.rely {i : Nat} {A : World → Prop} (h : D.Stable i A) {w w' : World}
    (hr : D.Rely i w w') (hw : A w) : A w' := by
  induction hr with
  | refl => exact hw
  | step _ hs ih => exact h _ _ hs ih

theorem Stable.and {i : Nat} {A B : World → Prop} (hA : D.Stable i A)
    (hB : D.Stable i B) : D.Stable i fun w => A w ∧ B w :=
  fun w w' ho h => ⟨hA w w' ho h.1, hB w w' ho h.2⟩

theorem stable_const {i : Nat} (P : Prop) : D.Stable i fun _ => P :=
  fun _ _ _ h => h

theorem Stable.imp {i : Nat} {P : Prop} {A : World → Prop}
    (hA : P → D.Stable i A) : D.Stable i fun w => P → A w :=
  fun w w' ho h hp => hA hp w w' ho (h hp)

theorem Stable.all {i : Nat} {ι : Sort _} {A : ι → World → Prop}
    (hA : ∀ x, D.Stable i (A x)) : D.Stable i fun w => ∀ x, A x w :=
  fun w w' ho h x => hA x w w' ho (h x)

theorem Stable.ex {i : Nat} {ι : Sort _} {A : ι → World → Prop}
    (hA : ∀ x, D.Stable i (A x)) : D.Stable i fun w => ∃ x, A x w :=
  fun w w' ho ⟨x, h⟩ => ⟨x, hA x w w' ho h⟩

variable (D)

/-- From world `w` on, thread `i` only issues allowed commands and returns a
value that satisfies `Q`, however the others interfere. -/
def Safe (t : Task) (i : Nat) (Q : β → World → Prop) :
    Prog Cmd Ans β → World → Prop
  | .ret a, w => ∀ w', D.Rely i w w' → Q a w'
  | .call cmd k, w =>
      ∀ w', D.Rely i w w' → D.inv w' → ∀ o, D.presumed t i cmd o w' →
        D.allowed t i cmd w' ∧
          ∀ w₁ r, S.exec i cmd o w' = some (w₁, r) → D.inv w₁ →
            Safe t i Q (k r) w₁

/-- Safe from every invariant world that satisfies the assertion. -/
def Triple (t : Task) (i : Nat) (A : World → Prop) (p : Prog Cmd Ans β)
    (Q : β → World → Prop) : Prop :=
  ∀ w, D.inv w → A w → D.Safe t i Q p w

variable {D} {t : Task} {i : Nat}

theorem Safe.rely {Q : β → World → Prop} {p : Prog Cmd Ans β} {w w' : World}
    (h : D.Safe t i Q p w) (hr : D.Rely i w w') : D.Safe t i Q p w' := by
  cases p with
  | ret a => exact fun w₂ h₂ => h w₂ (hr.trans h₂)
  | call cmd k => exact fun w₂ h₂ => h w₂ (hr.trans h₂)

theorem Safe.mono {Q Q' : β → World → Prop} {p : Prog Cmd Ans β} {w : World}
    (h : D.Safe t i Q p w) (hq : ∀ a w, Q a w → Q' a w) :
    D.Safe t i Q' p w := by
  induction p generalizing w with
  | ret a => exact fun w' hr => hq _ _ (h w' hr)
  | call cmd k ih =>
      intro w' hr hi o ha
      obtain ⟨hall, hk⟩ := h w' hr hi o ha
      exact ⟨hall, fun w₁ r hx hi₁ => ih r (hk w₁ r hx hi₁)⟩

theorem Safe.bind {γ : Type} {B : β → World → Prop} {Q : γ → World → Prop}
    {p : Prog Cmd Ans β} {f : β → Prog Cmd Ans γ} {w : World}
    (hp : D.Safe t i B p w) (hw : D.inv w)
    (hf : ∀ a, D.Triple t i (B a) (f a) Q) : D.Safe t i Q (p >>= f) w := by
  induction p generalizing w with
  | ret a => exact hf a w hw (hp w .refl)
  | call cmd k ih =>
      intro w' hr hi o ha
      obtain ⟨hall, hk⟩ := hp w' hr hi o ha
      exact ⟨hall, fun w₁ r hx hi₁ => ih r (hk w₁ r hx hi₁) hi₁⟩

/-! ### Rules for triples -/

theorem Triple.intro {A : World → Prop} {Q : β → World → Prop} {p : Prog Cmd Ans β}
    (h : ∀ w, D.inv w → A w → D.Safe t i Q p w) : D.Triple t i A p Q := h

theorem Triple.safe {A : World → Prop} {Q : β → World → Prop} {p : Prog Cmd Ans β}
    (h : D.Triple t i A p Q) {w : World} (hw : D.inv w) (hA : A w) : D.Safe t i Q p w :=
  h w hw hA

theorem Triple.ret {A : World → Prop} {Q : β → World → Prop} {a : β}
    (hs : D.Stable i (Q a)) (h : ∀ w, D.inv w → A w → Q a w) :
    D.Triple t i A (.ret a) Q :=
  fun w hi hA _ hr => hs.rely hr (h w hi hA)

theorem Triple.call {A : World → Prop} {Q : β → World → Prop} {cmd : Cmd}
    {k : Ans cmd → Prog Cmd Ans β} {B : Ans cmd → World → Prop}
    (hs : D.Stable i A)
    (h : ∀ w o, D.inv w → D.presumed t i cmd o w → A w → D.allowed t i cmd w ∧
      ∀ w₁ r, S.exec i cmd o w = some (w₁, r) → D.inv w₁ → B r w₁)
    (hk : ∀ r, D.Triple t i (B r) (k r) Q) :
    D.Triple t i A (.call cmd k) Q := by
  intro w _ hA w' hr hi' o ha
  obtain ⟨hall, hB⟩ := h w' o hi' ha (hs.rely hr hA)
  exact ⟨hall, fun w₁ r hx hi₁ => hk r w₁ hi₁ (hB w₁ r hx hi₁)⟩

theorem Triple.bind {γ : Type} {A : World → Prop} {B : β → World → Prop}
    {Q : γ → World → Prop} {p : Prog Cmd Ans β} {f : β → Prog Cmd Ans γ}
    (hp : D.Triple t i A p B) (hf : ∀ a, D.Triple t i (B a) (f a) Q) :
    D.Triple t i A (p >>= f) Q :=
  fun w hw hA => (hp w hw hA).bind hw hf

theorem Triple.conseq {A A' : World → Prop} {Q Q' : β → World → Prop}
    {p : Prog Cmd Ans β} (h : D.Triple t i A p Q)
    (hA : ∀ w, D.inv w → A' w → A w) (hQ : ∀ a w, Q a w → Q' a w) :
    D.Triple t i A' p Q' :=
  fun w hw hA' => (h w hw (hA w hw hA')).mono hQ

theorem Triple.pre {A A' : World → Prop} {Q : β → World → Prop}
    {p : Prog Cmd Ans β} (h : D.Triple t i A p Q)
    (hA : ∀ w, D.inv w → A' w → A w) : D.Triple t i A' p Q :=
  h.conseq hA fun _ _ hq => hq

theorem Triple.post {A : World → Prop} {Q Q' : β → World → Prop}
    {p : Prog Cmd Ans β} (h : D.Triple t i A p Q)
    (hQ : ∀ a w, Q a w → Q' a w) : D.Triple t i A p Q' :=
  h.conseq (fun _ _ hA => hA) hQ

/-- A fact the assertion gives about no world may be assumed. -/
theorem Triple.assume {P : Prop} {A : World → Prop} {Q : β → World → Prop}
    {p : Prog Cmd Ans β} (hP : ∀ w, D.inv w → A w → P) (h : P → D.Triple t i A p Q) :
    D.Triple t i A p Q :=
  fun w hw hA => h (hP w hw hA) w hw hA

/-- A program all of whose commands are allowed where the assertion holds,
and keep the assertion, is safe and keeps it. -/
theorem Triple.only {P : Cmd → Prop} {p : Prog Cmd Ans β} (hp : p.Only P)
    {A : World → Prop} (hs : D.Stable i A)
    (h : ∀ cmd o w, P cmd → D.inv w → D.presumed t i cmd o w → A w →
      D.allowed t i cmd w ∧
        ∀ w₁ r, S.exec i cmd o w = some (w₁, r) → A w₁) :
    D.Triple t i A p fun _ => A := by
  intro w _ hA
  induction p generalizing w with
  | ret a => exact fun w' hr => hs.rely hr hA
  | call cmd k ih =>
      intro w' hr hi o ha
      obtain ⟨hall, hk⟩ := h cmd o w' hp.1 hi ha (hs.rely hr hA)
      exact ⟨hall, fun w₁ r hx hi₁ => ih r (hp.2 r) w₁ hi₁ (hk w₁ r hx)⟩

/-- If every implementation of an interface keeps an assertion, so does every
program over the interface. -/
theorem Triple.expand {Cmd' : Type} {Ans' : Cmd' → Type}
    {impl : (c : Cmd') → Prog Cmd Ans (Ans' c)} {P : Cmd' → Prop} {A : World → Prop}
    (hs : D.Stable i A)
    (himpl : ∀ c, P c → D.Triple t i A (impl c) fun _ => A) {γ : Type}
    {p : Prog Cmd' Ans' γ} (hp : p.Only P) :
    D.Triple t i A (p.expand impl) fun _ => A := by
  induction p with
  | ret a => exact Triple.ret hs fun _ _ hA => hA
  | call c k ih => exact (himpl c hp.1).bind fun r => ih r (hp.2 r)

-- a triple is used through its rules; unfolding one would run the program
attribute [irreducible] Triple

/-! ### Soundness -/

/-- **Soundness.**  Allowed commands keep the invariant and every program is
safe where it starts: then the invariant and the safety of every thread hold
in every configuration a run reaches. -/
theorem sound {Q : Task → Nat → α → World → Prop}
    (hact : ∀ t j cmd o w w' r, D.inv w → D.presumed t j cmd o w →
      D.allowed t j cmd w → S.exec j cmd o w = some (w', r) → D.inv w')
    (henv : ∀ e w w', D.inv w → D.presumedEnv e w → S.env e w = some w' → D.inv w')
    {c₀ c : Config Task World Cmd Ans α}
    (hstable : ∀ i, c₀.pool.length ≤ i → D.Stable i (D.fresh i))
    (hcode : ∀ t i w, c₀.pool.length ≤ i → D.inv w → D.fresh i w →
      D.Safe t i (Q t i) (S.code t) w)
    (h₀ : D.inv c₀.world) (hfresh : ∀ i, c₀.pool.length ≤ i → D.fresh i c₀.world)
    (hpool : ∀ i t p, c₀.pool[i]? = some (t, p) → D.Safe t i (Q t i) p c₀.world)
    (h : S.Reach D.Presumes c₀ c) :
    c₀.pool.length ≤ c.pool.length ∧ D.inv c.world ∧
      (∀ i, c.pool.length ≤ i → D.fresh i c.world) ∧
      ∀ i t p, c.pool[i]? = some (t, p) → D.Safe t i (Q t i) p c.world := by
  induction h with
  | refl => exact ⟨Nat.le_refl _, h₀, hfresh, hpool⟩
  | @step c₁ c₂ l _ hp hs ih =>
      obtain ⟨hlen, hi₁, hnew, hsafe⟩ := ih
      cases l with
      | spawn t =>
          simp only [System.next, Option.some.injEq] at hs
          subst hs
          refine ⟨by simp; omega, hi₁, ?_, ?_⟩
          · intro i hi
            apply hnew i
            simp only [List.length_append, List.length_singleton] at hi
            omega
          intro i t' p hi
          rcases Nat.lt_trichotomy i c₁.pool.length with hlt | heq | hgt
          · rw [List.getElem?_append_left hlt] at hi
            exact hsafe i t' p hi
          · subst heq
            simp only [List.getElem?_concat_length, Option.some.injEq,
              Prod.mk.injEq] at hi
            obtain ⟨rfl, rfl⟩ := hi
            exact hcode t _ _ hlen hi₁ (hnew _ (Nat.le_refl _))
          · have hnone : (c₁.pool ++ [(t, S.code t)])[i]? = none := by
              apply List.getElem?_eq_none
              simp only [List.length_append, List.length_singleton]
              omega
            rw [hnone] at hi
            cases hi
      | act j o =>
          obtain ⟨t, cmd, k, w, r, hj, hx, rfl⟩ := System.next_act hs
          have ha : D.presumed t j cmd o c₁.world := hp t cmd k hj
          obtain ⟨hall, hk⟩ := hsafe j t _ hj c₁.world .refl hi₁ o ha
          have hi₂ : D.inv w := hact t j cmd o _ _ r hi₁ ha hall hx
          have hjlt : j < c₁.pool.length := (List.getElem?_eq_some_iff.mp hj).1
          refine ⟨by simpa using hlen, hi₂, ?_, ?_⟩
          · intro i hi
            simp only [List.length_set] at hi
            have hother : D.Other i c₁.world w := .act (by omega) hi₁ ha hall hx
            exact hstable i (by omega) _ _ hother (hnew i hi)
          intro i t' p hi
          by_cases hji : j = i
          · subst hji
            rw [List.getElem?_set_self hjlt, Option.some.injEq, Prod.mk.injEq] at hi
            obtain ⟨rfl, rfl⟩ := hi
            exact hk w r hx hi₂
          · rw [List.getElem?_set_ne hji] at hi
            exact (hsafe i t' p hi).rely
              (.step .refl (.act hji hi₁ ha hall hx))
      | env e =>
          obtain ⟨w, hx, rfl⟩ := System.next_env hs
          refine ⟨hlen, henv e _ _ hi₁ hp hx, ?_, ?_⟩
          · intro i hi
            exact hstable i (by simp only at hi; omega) _ _ (.env hi₁ hp hx) (hnew i hi)
          intro i t p hi
          exact (hsafe i t p hi).rely (.step .refl (.env hi₁ hp hx))

/-- A thread of a sound run that has returned satisfies its postcondition. -/
theorem Safe.returned {Q : α → World → Prop} {a : α} {w : World}
    (h : D.Safe t i Q (.ret a) w) : Q a w :=
  h w .refl

/-- A thread of a sound run issues its next command only where it is
allowed. -/
theorem Safe.issues {Q : α → World → Prop} {cmd : Cmd} {k : Ans cmd → Prog Cmd Ans α}
    {w : World} {o : Oracle} (h : D.Safe t i Q (.call cmd k) w) (hw : D.inv w)
    (hp : D.presumed t i cmd o w) : D.allowed t i cmd w :=
  (h w .refl hw o hp).1

end Discipline

end Calcar.Lib
