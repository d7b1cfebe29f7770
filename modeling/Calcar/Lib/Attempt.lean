import Calcar.Lib.Prog

/-!
# Programs that can stop at any point

A process can die between any two commands of a program, and before the
result of the last one is seen.  An *attempt* runs a program for some number
of steps; it ends with the program's value or with none.  What was written so
far stays.

A specification of such a program has two postconditions: `Q` for the value
it returns and `C` for every point at which it may stop (`Meets`).  Attempts
follow one another one at a time; nothing is assumed about how a program
that stopped is tried again.

## Main results

* `meets_attempt` — what a program meets holds of every attempt.
* `meets_bind`, `Only.meets` — sequencing, and programs all of whose commands
  keep an invariant.
* `Yields.meets` — what a program returns whatever it is answered.
* `reaches_attempt` — what a program comes to within so many commands that go well.
* `returns_attempt` — what it returns if all its commands go well.
* `attempt_related` — attempts in related worlds give the same answer.
* `afterAll_keep`, `wins_at_most_once`, `replies_unseen` — what follows for
  sequences of attempts: invariants, latches, and independence of the tasks
  that are left out.
-/

namespace Calcar.Lib.Prog

variable {Cmd : Type} {Ans : Cmd → Type} {World Oracle α β : Type}

/-! ## Attempts -/

/-- Run a program for at most so many steps; to return is a step too. -/
def attempt (exec : Exec Cmd Ans World Oracle) (i : Nat) :
    Prog Cmd Ans α → Nat → (Nat → Oracle) → World → World × Option α
  | _, 0, _, w => (w, none)
  | .ret a, _ + 1, _, w => (w, some a)
  | .call c k, n + 1, os, w =>
      match exec i c (os 0) w with
      | none => (w, none)
      | some (w₁, r) => (k r).attempt exec i n (fun m => os (m + 1)) w₁

/-- From world `w`, whatever the oracles: `C` holds wherever the program
stops, and `Q` of the value it returns. -/
def Meets (exec : Exec Cmd Ans World Oracle) (i : Nat) (Q : α → World → Prop)
    (C : World → Prop) : Prog Cmd Ans α → World → Prop
  | .ret a, w => C w ∧ Q a w
  | .call c k, w => C w ∧ ∀ o w₁ r, exec i c o w = some (w₁, r) → (k r).Meets exec i Q C w₁

section Rules

variable {exec : Exec Cmd Ans World Oracle} {i : Nat} {Q Q' : α → World → Prop}
  {C C' : World → Prop}

/-- A program can stop before its first step. -/
theorem Meets.stop {p : Prog Cmd Ans α} {w : World} (h : p.Meets exec i Q C w) : C w := by
  cases p with
  | ret a => exact h.1
  | call c k => exact h.1

theorem Meets.mono {p : Prog Cmd Ans α} {w : World} (h : p.Meets exec i Q C w)
    (hq : ∀ a w, Q a w → Q' a w) (hc : ∀ w, C w → C' w) : p.Meets exec i Q' C' w := by
  induction p generalizing w with
  | ret a => exact ⟨hc w h.1, hq a w h.2⟩
  | call c k ih => exact ⟨hc w h.1, fun o w₁ r hx => ih r (h.2 o w₁ r hx)⟩

theorem Meets.and {p : Prog Cmd Ans α} {w : World} (h : p.Meets exec i Q C w)
    (h' : p.Meets exec i Q' C' w) :
    p.Meets exec i (fun a w => Q a w ∧ Q' a w) (fun w => C w ∧ C' w) w := by
  induction p generalizing w with
  | ret a => exact ⟨⟨h.1, h'.1⟩, h.2, h'.2⟩
  | call c k ih =>
      exact ⟨⟨h.1, h'.1⟩, fun o w₁ r hx => ih r (h.2 o w₁ r hx) (h'.2 o w₁ r hx)⟩

/-- A sequence stops in its first part or in its second. -/
theorem meets_bind {p : Prog Cmd Ans α} {f : α → Prog Cmd Ans β} {Q : β → World → Prop}
    {w : World} (h : p.Meets exec i (fun a w => C w → (f a).Meets exec i Q C w) C w) :
    (p >>= f).Meets exec i Q C w := by
  induction p generalizing w with
  | ret a => exact h.2 h.1
  | call c k ih => exact ⟨h.1, fun o w₁ r hx => ih r (h.2 o w₁ r hx)⟩

/-- What the commands of a program keep, the program keeps to any point. -/
theorem Only.meets {P : Cmd → Prop} {I : World → Prop} {p : Prog Cmd Ans α} (hp : p.Only P)
    (hstep : ∀ c o w w' r, P c → exec i c o w = some (w', r) → I w → I w') {w : World}
    (hw : I w) : p.Meets exec i (fun _ => I) I w := by
  induction p generalizing w with
  | ret a => exact ⟨hw, hw⟩
  | call c k ih =>
      exact ⟨hw, fun o w₁ r hx => ih r (hp.2 r) (hstep c o w w₁ r hp.1 hx hw)⟩

/-- **Every attempt** ends in one of the two postconditions. -/
theorem meets_attempt {p : Prog Cmd Ans α} {w : World} (h : p.Meets exec i Q C w) (n : Nat)
    (os : Nat → Oracle) :
    C (p.attempt exec i n os w).1 ∧
      ∀ a, (p.attempt exec i n os w).2 = some a → Q a (p.attempt exec i n os w).1 := by
  induction n generalizing p os w with
  | zero =>
      refine ⟨?_, fun a ha => ?_⟩
      · simpa only [attempt] using h.stop
      · simp only [attempt, reduceCtorEq] at ha
  | succ n ih =>
      cases p with
      | ret b =>
          refine ⟨h.1, fun a ha => ?_⟩
          simp only [attempt, Option.some.injEq] at ha
          subst ha
          exact h.2
      | call c k =>
          simp only [attempt]
          cases hx : exec i c (os 0) w with
          | none => exact ⟨h.1, fun a ha => by cases ha⟩
          | some x => exact ih (h.2 _ _ _ hx) fun m => os (m + 1)

/-- Whatever it is answered, the program returns nothing but values in `P`. -/
def Yields (P : α → Prop) : Prog Cmd Ans α → Prop
  | .ret a => P a
  | .call _ k => ∀ r, (k r).Yields P

theorem Yields.bind {P : β → Prop} {f : α → Prog Cmd Ans β} (hf : ∀ a, (f a).Yields P)
    (p : Prog Cmd Ans α) : (p >>= f).Yields P := by
  induction p with
  | ret a => exact hf a
  | call c k ih => exact ih

theorem Yields.mono {P P' : α → Prop} (h : ∀ a, P a → P' a) {p : Prog Cmd Ans α}
    (hp : p.Yields P) : p.Yields P' := by
  induction p with
  | ret a => exact h a hp
  | call c k ih => exact fun r => ih r (hp r)

/-- What a program yields holds of the value of every attempt. -/
theorem Yields.meets {P : α → Prop} {p : Prog Cmd Ans α} (hp : p.Yields P) {w : World} :
    p.Meets exec i (fun a _ => P a) (fun _ => True) w := by
  induction p generalizing w with
  | ret a => exact ⟨trivial, hp⟩
  | call c k ih => exact ⟨trivial, fun _ _ r _ => ih r (hp r)⟩

/-- In related worlds, commands that give related worlds and equal answers
make attempts with equal results. -/
theorem attempt_related {P : Cmd → Prop} {R : World → World → Prop} {p : Prog Cmd Ans α}
    (hp : p.Only P)
    (hstep : ∀ c o w v, P c → R w v →
      (exec i c o w = none ∧ exec i c o v = none) ∨
        ∃ w' v' r, exec i c o w = some (w', r) ∧ exec i c o v = some (v', r) ∧ R w' v')
    {w v : World} (hR : R w v) (n : Nat) (os : Nat → Oracle) :
    (p.attempt exec i n os w).2 = (p.attempt exec i n os v).2 ∧
      R (p.attempt exec i n os w).1 (p.attempt exec i n os v).1 := by
  induction n generalizing p os w v with
  | zero =>
      simp only [attempt]
      exact ⟨trivial, hR⟩
  | succ n ih =>
      cases p with
      | ret b => exact ⟨rfl, hR⟩
      | call c k =>
          simp only [attempt]
          rcases hstep c (os 0) w v hp.1 hR with ⟨hw, hv⟩ | ⟨w', v', r, hw, hv, hR'⟩
          · rw [hw, hv]
            exact ⟨rfl, hR⟩
          · rw [hw, hv]
            exact ih (hp.2 r) hR' fun m => os (m + 1)

end Rules

/-! ## What a program comes to -/

section Reaches

variable {exec : Exec Cmd Ans World Oracle} {i : Nat} {ok : Oracle → Prop} {C : World → Prop}

/-- Within so many commands, all of them `ok`, the program comes to where `C` holds; until
then none of them has to wait. -/
def Reaches (exec : Exec Cmd Ans World Oracle) (i : Nat) (ok : Oracle → Prop)
    (C : World → Prop) : Nat → Prog Cmd Ans α → World → Prop
  | n + 1, .call c k, w =>
      C w ∨ ∀ o, ok o → ∃ w₁ r, exec i c o w = some (w₁, r) ∧ (k r).Reaches exec i ok C n w₁
  | _, _, w => C w

theorem Reaches.here {p : Prog Cmd Ans α} {n : Nat} {w : World} (h : C w) :
    p.Reaches exec i ok C n w := by
  cases n with
  | zero => exact h
  | succ n =>
      cases p with
      | ret a => exact h
      | call c k => exact .inl h

/-- What the first part of a sequence comes to, the sequence comes to. -/
theorem Reaches.bind {p : Prog Cmd Ans α} {f : α → Prog Cmd Ans β} {n : Nat} {w : World}
    (h : p.Reaches exec i ok C n w) : (p >>= f).Reaches exec i ok C n w := by
  induction n generalizing p w with
  | zero => exact h
  | succ n ih =>
      cases p with
      | ret a => exact .here h
      | call c k =>
          obtain hw | hgo := h
          · exact .inl hw
          · refine .inr fun o ho => ?_
            obtain ⟨w₁, r, hx, hk⟩ := hgo o ho
            exact ⟨w₁, r, hx, ih hk⟩

/-- **An attempt that gets so far** ends where `C` holds, if every command keeps it. -/
theorem reaches_attempt {p : Prog Cmd Ans α} {n steps : Nat} {os : Nat → Oracle} {w : World}
    (hkeep : ∀ c o w w' r, exec i c o w = some (w', r) → C w → C w')
    (hok : ∀ m, ok (os m)) (h : p.Reaches exec i ok C n w) (hn : n ≤ steps) :
    C (p.attempt exec i steps os w).1 := by
  have hrest : ∀ (p : Prog Cmd Ans α) steps os w, C w → C (p.attempt exec i steps os w).1 :=
    fun p steps os w hw =>
      (meets_attempt (Only.meets (P := fun _ => True) (only_of_all (fun _ => trivial) p)
        (fun c o w w' r _ hx => hkeep c o w w' r hx) hw) steps os).1
  induction n generalizing p steps os w with
  | zero => exact hrest p steps os w h
  | succ n ih =>
      cases p with
      | ret a => exact hrest _ steps os w h
      | call c k =>
          obtain hw | hgo := h
          · exact hrest _ steps os w hw
          · obtain ⟨steps, rfl⟩ : ∃ m, steps = m + 1 := ⟨steps - 1, by omega⟩
            obtain ⟨w₁, r, hx, hk⟩ := hgo (os 0) (hok 0)
            rw [attempt, hx]
            exact ih (fun m => hok (m + 1)) hk (by omega)

/-- Within so many steps, all its commands `ok`, the program returns with `Q` of its value. -/
def Returns (exec : Exec Cmd Ans World Oracle) (i : Nat) (ok : Oracle → Prop)
    (Q : α → World → Prop) : Nat → Prog Cmd Ans α → World → Prop
  | 0, _, _ => False
  | _ + 1, .ret a, w => Q a w
  | n + 1, .call c k, w =>
      ∀ o, ok o → ∃ w₁ r, exec i c o w = some (w₁, r) ∧ (k r).Returns exec i ok Q n w₁

/-- **An attempt that goes well to its end** gives a value with `Q`. -/
theorem returns_attempt {Q : α → World → Prop} {p : Prog Cmd Ans α} {n steps : Nat}
    {os : Nat → Oracle} {w : World} (hok : ∀ m, ok (os m)) (h : p.Returns exec i ok Q n w)
    (hn : n ≤ steps) :
    ∃ a, (p.attempt exec i steps os w).2 = some a ∧ Q a (p.attempt exec i steps os w).1 := by
  induction n generalizing p steps os w with
  | zero => exact h.elim
  | succ n ih =>
      obtain ⟨steps, rfl⟩ : ∃ m, steps = m + 1 := ⟨steps - 1, by omega⟩
      cases p with
      | ret a => exact ⟨a, rfl, h⟩
      | call c k =>
          obtain ⟨w₁, r, hx, hk⟩ := h (os 0) (hok 0)
          rw [attempt, hx]
          exact ih (fun m => hok (m + 1)) hk (by omega)

end Reaches

/-! ## Complete runs, by the position of their commands -/

section Positions

variable (exec : Exec Cmd Ans World Oracle) (i : Nat) (os : Nat → Oracle)

/-- Run a program to its end; its first command is number `n`, and command `n`
meets oracle `os n`.  The number of the next command comes with the result. -/
def runFrom : Prog Cmd Ans α → Nat → World → Option (α × World × Nat)
  | .ret a, n, w => some (a, w, n)
  | .call c k, n, w => (exec i c (os n) w).bind fun x => (k x.2).runFrom (n + 1) x.1

theorem runFrom_call (c : Cmd) (k : Ans c → Prog Cmd Ans α) (n : Nat) (w : World) :
    (Prog.call c k).runFrom exec i os n w =
      (exec i c (os n) w).bind fun x => (k x.2).runFrom exec i os (n + 1) x.1 := rfl

/-- The second part of a sequence starts where the first ends. -/
theorem runFrom_bind (p : Prog Cmd Ans α) (f : α → Prog Cmd Ans β) (n : Nat) (w : World) :
    (p >>= f).runFrom exec i os n w =
      (p.runFrom exec i os n w).bind fun x => (f x.1).runFrom exec i os x.2.2 x.2.1 := by
  induction p generalizing n w with
  | ret a => rfl
  | call c k ih =>
      rw [call_bind, runFrom_call, runFrom_call]
      cases exec i c (os n) w with
      | none => rfl
      | some x => exact ih x.2 (n + 1) x.1

end Positions

/-! ## One attempt after another -/

/-- An attempt at a task: how far it gets and what it meets on the way. -/
structure Try (Task Oracle : Type) where
  task : Task
  steps : Nat
  oracles : Nat → Oracle

section Sequences

variable {Task : Type} (exec : Exec Cmd Ans World Oracle) (code : Task → Prog Cmd Ans α)

/-- One attempt at a task. -/
def Try.at (t : Try Task Oracle) (w : World) : World × Option α :=
  (code t.task).attempt exec 0 t.steps t.oracles w

/-- The world after attempts in order. -/
def afterAll : World → List (Try Task Oracle) → World
  | w, [] => w
  | w, t :: ts => afterAll (t.at exec code w).1 ts

/-- What the attempts returned, each beside its task; an attempt that
stopped returned nothing. -/
def replies : World → List (Try Task Oracle) → List (Task × Option α)
  | _, [] => []
  | w, t :: ts => (t.task, (t.at exec code w).2) :: replies (t.at exec code w).1 ts

variable {exec code}

theorem afterAll_append (w : World) (ts us : List (Try Task Oracle)) :
    afterAll exec code w (ts ++ us) = afterAll exec code (afterAll exec code w ts) us := by
  induction ts generalizing w with
  | nil => rfl
  | cons t ts ih => exact ih _

/-- What every attempt keeps, all of them keep. -/
theorem afterAll_keep {I : World → Prop} {ts : List (Try Task Oracle)}
    (hstep : ∀ t, t ∈ ts → ∀ w, I w → I (t.at exec code w).1) {w : World} (hw : I w) :
    I (afterAll exec code w ts) := by
  induction ts generalizing w with
  | nil => exact hw
  | cons t ts ih =>
      have htail : ∀ u, u ∈ ts → ∀ w, I w → I (u.at exec code w).1 :=
        fun u hu => hstep u (List.mem_cons_of_mem t hu)
      exact ih htail (hstep t List.mem_cons_self w hw)

/-- **The latch**: an attempt that wins finds the latch open and closes it, and
a closed latch stays closed.  Then at most one attempt wins. -/
theorem wins_at_most_once (Done : World → Prop) {win : Task × Option α → Bool}
    (hkeep : ∀ (t : Try Task Oracle) w, Done w → Done (t.at exec code w).1)
    (hwin : ∀ (t : Try Task Oracle) w, win (t.task, (t.at exec code w).2) = true →
      ¬Done w ∧ Done (t.at exec code w).1)
    (w : World) (ts : List (Try Task Oracle)) :
    (replies exec code w ts).countP win ≤ 1 := by
  have hclosed : ∀ ts w, Done w → (replies exec code w ts).countP win = 0 := by
    intro ts
    induction ts with
    | nil => intro w _; rfl
    | cons t ts ih =>
        intro w hw
        have hlost : ¬win (t.task, (t.at exec code w).2) = true :=
          fun h => (hwin t w h).1 hw
        rw [replies, List.countP_cons_of_neg hlost]
        exact ih _ (hkeep t w hw)
  induction ts generalizing w with
  | nil => exact Nat.zero_le 1
  | cons t ts ih =>
      rw [replies]
      by_cases h : win (t.task, (t.at exec code w).2) = true
      · have hrest := hclosed ts _ (hwin t w h).2
        rw [List.countP_cons_of_pos h]
        omega
      · rw [List.countP_cons_of_neg h]
        exact ih _

/-- **Leaving tasks out.**  Two worlds run the same attempts, but the second
is spared those at hidden tasks.  If a hidden attempt keeps the relation on
its own, the others keep it together, and attempts at an observed task answer
alike in related worlds, then the observed answers are the same. -/
theorem replies_unseen (R : World → World → Prop) (hidden seen : Task → Bool)
    (hhidden : ∀ (t : Try Task Oracle) w v, hidden t.task = true → R w v →
      R (t.at exec code w).1 v)
    (hother : ∀ (t : Try Task Oracle) w v, hidden t.task = false → R w v →
      R (t.at exec code w).1 (t.at exec code v).1)
    (hseen : ∀ (t : Try Task Oracle) w v, seen t.task = true → R w v →
      (t.at exec code w).2 = (t.at exec code v).2)
    (hapart : ∀ t, seen t = true → hidden t = false)
    {w v : World} (hR : R w v) (ts : List (Try Task Oracle)) :
    (replies exec code w ts).filter (fun r => seen r.1) =
      (replies exec code v (ts.filter fun t => !hidden t.task)).filter fun r => seen r.1 := by
  induction ts generalizing w v with
  | nil => rfl
  | cons t ts ih =>
      have hcons : ∀ (r : Task × Option α) rs, (r :: rs).filter (fun r => seen r.1) =
          if seen r.1 = true then r :: rs.filter (fun r => seen r.1)
          else rs.filter fun r => seen r.1 := fun r rs => List.filter_cons
      cases hh : hidden t.task with
      | true =>
          have hs : ¬seen t.task = true := fun hs => by simp [hapart _ hs] at hh
          rw [replies, hcons, if_neg hs, List.filter_cons_of_neg (by simp [hh])]
          exact ih (hhidden t w v hh hR)
      | false =>
          have htail := ih (hother t w v hh hR)
          rw [List.filter_cons_of_pos (by simp [hh]), replies, replies, hcons, hcons, htail]
          by_cases hs : seen t.task = true
          · rw [if_pos hs, if_pos hs, hseen t w v hs hR]
          · rw [if_neg hs, if_neg hs]

end Sequences

end Calcar.Lib.Prog
