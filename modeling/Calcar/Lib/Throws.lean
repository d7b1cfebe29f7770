import Calcar.Lib.Conc

/-!
# Threads that throw

A thread in `ExceptT` either returns or throws, and its assertion has a part for
each (`Outcome`).  The rules are those of plain threads with the second part
carried along: it passes a sequence by, and `catch` starts from it.

## Main results

* `Triple.throws_bind`, `Triple.throws_catch`, `Triple.throws_pure`,
  `Triple.throws_throw`, `Triple.throws_call`.
-/

namespace Calcar.Lib

/-- What holds of a value that is returned, and of the world where one is thrown. -/
def Outcome {World ε α : Type} (Q : α → World → Prop) (E : ε → World → Prop) :
    Except ε α → World → Prop
  | .ok a => Q a
  | .error e => E e

namespace Discipline

variable {Task World Oracle Env Cmd : Type} {Ans : Cmd → Type} {γ : Type}
variable {S : System Task World Oracle Env Cmd Ans γ} {D : Discipline S} {t : Task} {i : Nat}
variable {ε α β : Type} {A : World → Prop}

theorem Triple.throws_bind {x : ExceptT ε (Prog Cmd Ans) α} {f : α → ExceptT ε (Prog Cmd Ans) β}
    {B : α → World → Prop} {Q : β → World → Prop} {E : ε → World → Prop}
    (hE : ∀ e, D.Stable i (E e)) (hx : D.Triple t i A x.run (Outcome B E))
    (hf : ∀ a, D.Triple t i (B a) (f a).run (Outcome Q E)) :
    D.Triple t i A (x >>= f).run (Outcome Q E) := by
  change D.Triple t i A (x.run >>= ExceptT.bindCont f) (Outcome Q E)
  refine hx.bind fun r => ?_
  cases r with
  | ok a => exact hf a
  | error e => exact Triple.ret (hE e) fun _ _ h => h

theorem Triple.throws_catch {x : ExceptT ε (Prog Cmd Ans) α}
    {f : ε → ExceptT ε (Prog Cmd Ans) α} {Q : α → World → Prop} {E E' : ε → World → Prop}
    (hQ : ∀ a, D.Stable i (Q a)) (hx : D.Triple t i A x.run (Outcome Q E))
    (hf : ∀ e, D.Triple t i (E e) (f e).run (Outcome Q E')) :
    D.Triple t i A (tryCatch x f).run (Outcome Q E') := by
  refine hx.bind fun r => ?_
  cases r with
  | ok a => exact Triple.ret (hQ a) fun _ _ h => h
  | error e => exact hf e

theorem Triple.throws_pure {a : α} {Q : α → World → Prop} {E : ε → World → Prop}
    (hQ : D.Stable i (Q a)) (h : ∀ w, D.inv w → A w → Q a w) :
    D.Triple t i A (pure a : ExceptT ε (Prog Cmd Ans) α).run (Outcome Q E) :=
  Triple.ret hQ h

theorem Triple.throws_throw {e : ε} {Q : α → World → Prop} {E : ε → World → Prop}
    (hE : D.Stable i (E e)) (h : ∀ w, D.inv w → A w → E e w) :
    D.Triple t i A (throw e : ExceptT ε (Prog Cmd Ans) α).run (Outcome Q E) :=
  Triple.ret hE h

/-- One command, whose answer is the outcome. -/
theorem Triple.throws_call {cmd : Cmd} {Q : Ans cmd → World → Prop}
    (hA : D.Stable i A) (hQ : ∀ r, D.Stable i (Q r))
    (h : ∀ w o, D.inv w → D.presumed t i cmd o w → A w → D.allowed t i cmd w ∧
      ∀ w₁ r, S.exec i cmd o w = some (w₁, r) → D.inv w₁ → Q r w₁) :
    D.Triple t i A (Prog.perform cmd) Q :=
  Triple.call hA h fun r => Triple.ret (hQ r) fun _ _ hq => hq

end Discipline

end Calcar.Lib
