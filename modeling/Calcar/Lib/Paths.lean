import Calcar.Lib.Prog

/-!
# What a program is bound to do

`Only` bounds the commands of a program.  Two stronger readings follow the paths
of a program through the answers it may get, where `Fit` says which answers a
command can have.  `Comes P Stop` says that on every path a command of `P` is
issued, and before any of `Stop`.  `Until Key Then` says that whenever a command
of `Key` is issued, what is left satisfies `Then`, and that the commands before it
satisfy `Ok`.

## Main results

* `Comes.bind`, `Comes.append` — the rules for sequences.
* `Until.bind`, `Until.of_only` — a part without a key leaves the rest to say.
* `Leads.bind`, `Leads.mono`, `Leads.only` — a program read against an automaton
  that watches its commands and their answers.
-/

namespace Calcar.Lib.Prog

variable {Cmd : Type} {Ans : Cmd → Type} {α β : Type}
variable (Fit : (c : Cmd) → Ans c → Prop)

/-- Every path issues a command of `P`, and none of `Stop` before it. -/
def Comes (P Stop : Cmd → Prop) : Prog Cmd Ans α → Prop
  | .ret _ => False
  | .call c k => P c ∨ (¬Stop c ∧ ∀ r, Fit c r → (k r).Comes P Stop)

/-- The commands satisfy `Ok` up to the first of `Key`, after which `Then` holds. -/
def Until (Ok Key : Cmd → Prop) (Then : Prog Cmd Ans α → Prop) : Prog Cmd Ans α → Prop
  | .ret _ => True
  | .call c k => (Key c ∧ ∀ r, Fit c r → Then (k r)) ∨
      (¬Key c ∧ Ok c ∧ ∀ r, Fit c r → (k r).Until Ok Key Then)

variable {Fit} {P Stop Ok Key : Cmd → Prop} {Then : Prog Cmd Ans β → Prop}

/-- A first part that waits for nothing leaves it to the rest. -/
theorem Comes.bind {p : Prog Cmd Ans α} {f : α → Prog Cmd Ans β}
    (hp : p.Only fun c => ¬Stop c) (hf : ∀ a, (f a).Comes Fit P Stop) :
    (p >>= f).Comes Fit P Stop := by
  induction p with
  | ret a => exact hf a
  | call c k ih => exact .inr ⟨hp.1, fun r _ => ih r (hp.2 r)⟩

/-- What a first part is bound to do is done. -/
theorem Comes.append {p : Prog Cmd Ans α} {f : α → Prog Cmd Ans β}
    (hp : p.Comes Fit P Stop) : (p >>= f).Comes Fit P Stop := by
  induction p with
  | ret a => exact hp.elim
  | call c k ih =>
      obtain hhere | ⟨hstop, hrest⟩ := hp
      · exact .inl hhere
      · exact .inr ⟨hstop, fun r hr => ih r (hrest r hr)⟩

theorem Until.bind {p : Prog Cmd Ans α} {f : α → Prog Cmd Ans β}
    (hp : p.Only fun c => ¬Key c ∧ Ok c) (hf : ∀ a, (f a).Until Fit Ok Key Then) :
    (p >>= f).Until Fit Ok Key Then := by
  induction p with
  | ret a => exact hf a
  | call c k ih => exact .inr ⟨hp.1.1, hp.1.2, fun r _ => ih r (hp.2 r)⟩

theorem Until.of_only {p : Prog Cmd Ans β} (hp : p.Only fun c => ¬Key c ∧ Ok c) :
    p.Until Fit Ok Key Then := by
  induction p with
  | ret a => trivial
  | call c k ih => exact .inr ⟨hp.1.1, hp.1.2, fun r _ => ih r (hp.2 r)⟩

/-! ## Automata that watch a program -/

section Watching

variable {σ : Type} (next : σ → (c : Cmd) → Ans c → σ) (Ok : σ → Cmd → Prop)

/-- Read from state `s` of the automaton, every command is one the state allows,
and where the program returns the state satisfies `Q`. -/
def Leads (s : σ) (Q : α → σ → Prop) : Prog Cmd Ans α → Prop
  | .ret a => Q a s
  | .call c k => Ok s c ∧ ∀ r, (k r).Leads (next s c r) Q

variable {next Ok} {s : σ}

theorem Leads.bind {p : Prog Cmd Ans α} {f : α → Prog Cmd Ans β} {B : α → σ → Prop}
    {Q : β → σ → Prop} (hp : p.Leads next Ok s B)
    (hf : ∀ a s, B a s → (f a).Leads next Ok s Q) : (p >>= f).Leads next Ok s Q := by
  induction p generalizing s with
  | ret a => exact hf a s hp
  | call c k ih => exact ⟨hp.1, fun r => ih r (hp.2 r)⟩

theorem Leads.mono {p : Prog Cmd Ans α} {B Q : α → σ → Prop} (hp : p.Leads next Ok s B)
    (h : ∀ a s, B a s → Q a s) : p.Leads next Ok s Q := by
  induction p generalizing s with
  | ret a => exact h a s hp
  | call c k ih => exact ⟨hp.1, fun r => ih r (hp.2 r)⟩

/-- Commands that keep an invariant of the automaton. -/
theorem Leads.only {p : Prog Cmd Ans α} {P : Cmd → Prop} {I : σ → Prop} (hp : p.Only P)
    (hok : ∀ s c, I s → P c → Ok s c) (hnext : ∀ s c r, I s → P c → I (next s c r)) (hs : I s) :
    p.Leads next Ok s fun _ s' => I s' := by
  induction p generalizing s with
  | ret a => exact hs
  | call c k ih => exact ⟨hok s c hs hp.1, fun r => ih r (hp.2 r) (hnext s c r hs hp.1)⟩

end Watching

end Calcar.Lib.Prog
