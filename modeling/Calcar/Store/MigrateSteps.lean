import Calcar.Store.Migrate

/-!
# What a statement of a migration can do

Every statement of `Migrate` takes something back, or holds back one change more, or commits
what its connection holds back.  What runs of `Migrate` keep is derived from this list.

## Main results

* `step_moves` — the list.
* `exec_keeps` — what the items of the list keep, every statement keeps, whatever fails.
-/

namespace Calcar.Migrate

open Lib

/-! ## What statements do -/

/-- The changes a connection holds back and can still commit. -/
def World.held (w : World) (i : Nat) : Option (List Change) :=
  match w.txs i with
  | some tx => if tx.aborted then none else some tx.changes
  | none => none

/-- A connection holds back no more than before: the same, nothing, or a transaction that
has just begun. -/
inductive Drops (i : Nat) (w w' : World) : Prop where
  | quiet (hwal : w'.wal = w.wal) (hheld : ∀ j, w'.held j = w.held j) (hlocks : w'.locks = w.locks)
  | dropped (hwal : w'.wal = w.wal) (hheld : ∀ j, j ≠ i → w'.held j = w.held j)
      (hown : w'.held i = none ∨ w'.held i = some [])
      (hlocks : ∀ j v, j ≠ i → w.locks v = some j → w'.locks v = some j)

/-- What a statement can do. -/
inductive Moves (i : Nat) (w : World) : Cmd → World → Prop where
  | drops {c : Cmd} {w' : World} (h : Drops i w w') : Moves i w c w'
  | up {sql : String} {w' : World} {cs : List Change} (hwas : w.held i = some cs)
      (hwal : w'.wal = w.wal) (hheld : ∀ j, j ≠ i → w'.held j = w.held j)
      (hown : w'.held i = some (cs ++ [.up sql])) (hlocks : w'.locks = w.locks) :
      Moves i w (.execUp sql) w'
  | insert {v : String} {w' : World} {cs : List Change} (hwas : w.held i = some cs)
      (hfree : w.lockable i v = true) (hnew : v ∉ w.recorded)
      (hwal : w'.wal = w.wal) (hheld : ∀ j, j ≠ i → w'.held j = w.held j)
      (hown : w'.held i = some (cs ++ [.insert v]))
      (hlocks : ∀ u, w'.locks u = if u = v then some i else w.locks u) :
      Moves i w (.insert v) w'
  | commit {w' : World} {cs : List Change} (hwas : w.held i = some cs)
      (hwal : w'.wal = w.wal ++ [cs]) (hheld : ∀ j, j ≠ i → w'.held j = w.held j)
      (hown : w'.held i = none)
      (hlocks : ∀ j v, j ≠ i → w.locks v = some j → w'.locks v = some j) :
      Moves i w .commit w'

section Statements

variable {i : Nat} {w w' : World}

theorem held_setTx_self (tx : Tx) (h : tx.aborted = false) :
    (w.setTx i (some tx)).held i = some tx.changes := by
  simp [World.held, World.setTx, h]

theorem held_setTx_ne (tx : Option Tx) {j : Nat} (h : j ≠ i) :
    (w.setTx i tx).held j = w.held j := by
  simp [World.held, World.setTx, h]

theorem held_of_tx {tx : Tx} (h : w.txs i = some tx) (hlive : ¬tx.aborted = true) :
    w.held i = some tx.changes := by
  simp [World.held, h, hlive]

/-- The locks of the others outlive a transaction. -/
theorem closeTx_locks {j : Nat} {v : String} (h : j ≠ i) (hv : w.locks v = some j) :
    (w.closeTx i).locks v = some j := by
  have hne : w.locks v ≠ some i := by
    rw [hv]
    exact fun he => h (Option.some.inj he)
  simp [World.closeTx, World.setTx, hv, h]

theorem closeTx_drops : Drops i w (w.closeTx i) := by
  have hothers : ∀ j, j ≠ i → (w.closeTx i).held j = w.held j := by
    intro j hj
    simp [World.held, World.closeTx, World.setTx, hj]
  have hown : (w.closeTx i).held i = none := by
    simp [World.held, World.closeTx, World.setTx]
  exact .dropped rfl hothers (.inl hown) fun j v hj hv => closeTx_locks hj hv

theorem abortTx_drops : Drops i w (w.abortTx i) := by
  unfold World.abortTx
  cases htx : w.txs i with
  | none => exact .quiet rfl (fun _ => rfl) rfl
  | some tx =>
      have hown : (w.setTx i (some { tx with aborted := true })).held i = none := by
        simp [World.held, World.setTx]
      exact .dropped rfl (fun j hj => held_setTx_ne _ hj) (.inl hown) fun j v _ hv => hv

/-- Drop a connection for good. -/
theorem lose_drops (lost : Nat → Bool) : Drops i w { w.closeTx i with lost := lost } := by
  cases closeTx_drops (i := i) (w := w) with
  | quiet hwal hheld hlocks => exact .quiet hwal hheld hlocks
  | dropped hwal hheld hown hlocks => exact .dropped hwal hheld hown hlocks

theorem failed_drops (c : Cmd) : Drops i w (c.failed i w) := by
  cases c with
  | begin => exact closeTx_drops
  | commit => exact closeTx_drops
  | rollback => exact .quiet rfl (fun _ => rfl) rfl
  | close => exact lose_drops _
  | connect => exact abortTx_drops
  | createTable => exact abortTx_drops
  | selectExists v => exact abortTx_drops
  | execUp sql => exact abortTx_drops
  | insert v => exact abortTx_drops

/-- **A statement that is carried out.** -/
theorem step_moves {c : Cmd} {r : Ans c} (h : c.step i w = some (w', r)) : Moves i w c w' := by
  have hsame : Drops i w w := .quiet rfl (fun _ => rfl) rfl
  cases c with
  | connect =>
      cases h
      exact .drops hsame
  | createTable =>
      cases h
      exact .drops (.quiet rfl (fun _ => rfl) rfl)
  | selectExists v =>
      simp only [Cmd.step] at h
      split at h
      · cases h
        exact .drops hsame
      · cases h
        exact .drops hsame
  | begin =>
      cases h
      refine .drops (.dropped rfl (fun j hj => held_setTx_ne _ hj) (.inr ?_) fun _ _ _ hv => hv)
      exact held_setTx_self {} rfl
  | execUp sql =>
      simp only [Cmd.step] at h
      split at h
      · cases h
        exact .drops hsame
      · rename_i tx htx
        split at h
        · cases h
          exact .drops hsame
        · rename_i hlive
          cases h
          exact .up (held_of_tx htx hlive) rfl (fun j hj => held_setTx_ne _ hj)
            (held_setTx_self _ (Bool.eq_false_iff.mpr hlive)) rfl
  | insert v =>
      simp only [Cmd.step] at h
      split at h
      · cases h
        exact .drops hsame
      · rename_i tx htx
        split at h
        · cases h
          exact .drops hsame
        · rename_i hlive
          split at h
          · cases h
            exact .drops abortTx_drops
          · split at h
            · cases h
            · rename_i hfree
              split at h
              · cases h
                exact .drops abortTx_drops
              · rename_i hnew
                cases h
                exact .insert (held_of_tx htx hlive) (by simpa using hfree)
                  (fun hin => hnew (.inl hin)) rfl (fun j hj => held_setTx_ne _ hj)
                  (held_setTx_self { tx with changes := tx.changes ++ [.insert v] }
                    (Bool.eq_false_iff.mpr hlive)) fun u => rfl
  | commit =>
      simp only [Cmd.step] at h
      split at h
      · cases h
        exact .drops hsame
      · rename_i tx htx
        split at h
        · cases h
          exact .drops closeTx_drops
        · rename_i hlive
          cases h
          refine .commit (held_of_tx htx hlive) rfl (fun j hj => ?_) ?_ fun j v hj hv => ?_
          · simp [World.held, World.closeTx, World.setTx, hj]
          · simp [World.held, World.closeTx, World.setTx]
          · exact closeTx_locks (w := { w with wal := w.wal ++ [tx.changes] }) hj hv
  | rollback =>
      cases h
      exact .drops closeTx_drops
  | close =>
      cases h
      exact .drops (lose_drops _)

/-- What a statement that is carried out and one that fails keep, every statement keeps. -/
theorem exec_keeps {I : World → Prop} {c : Cmd} {f : Fault} {r : Ans c}
    (h : Cmd.exec i c f w = some (w', r)) (hw : I w)
    (hmoves : ∀ w₁, Moves i w c w₁ → I w₁) (hdrops : ∀ w₁ w₂, I w₁ → Drops i w₁ w₂ → I w₂) :
    I w' := by
  unfold Cmd.exec at h
  split at h
  · cases h
    exact hw
  · cases f with
    | none => exact hmoves w' (step_moves h)
    | lost =>
        cases h
        exact hdrops w _ hw (failed_drops c)
    | unacked =>
        simp only at h
        split at h
        · cases h
        · rename_i w₁ r₁ hstep
          cases h
          exact hdrops w₁ _ (hmoves w₁ (step_moves hstep)) (failed_drops c)

/-- A statement that does not answer with an error was carried out. -/
theorem exec_ok {c : Cmd} {f : Fault} {r : Ans c} (h : Cmd.exec i c f w = some (w', r))
    (hr : r ≠ failure c) : c.step i w = some (w', r) := by
  unfold Cmd.exec at h
  split at h
  · cases h
    exact absurd rfl hr
  · cases f with
    | none => exact h
    | lost =>
        cases h
        exact absurd rfl hr
    | unacked =>
        simp only at h
        split at h
        · cases h
        · cases h
          exact absurd rfl hr

/-! ### Statements that nothing disturbs -/

theorem exec_alone (c : Cmd) (h : w.lost i = false) : Cmd.exec i c .none w = c.step i w := by
  simp [Cmd.exec, h]

theorem step_up {tx : Tx} (sql : String) (htx : w.txs i = some tx) (hlive : tx.aborted = false) :
    Cmd.step i (.execUp sql) w =
      some (w.setTx i (some { tx with changes := tx.changes ++ [.up sql] }), some ()) := by
  simp only [Cmd.step, htx, hlive]
  rfl

theorem step_insert {tx : Tx} {v : String} (htx : w.txs i = some tx)
    (hlive : tx.aborted = false) (htable : w.table = true) (hfree : w.lockable i v = true)
    (hrow : v ∉ w.recorded) (hown : v ∉ versions tx.changes) :
    Cmd.step i (.insert v) w =
      some ((w.setTx i (some { tx with changes := tx.changes ++ [.insert v] })).lock i v,
        some ()) := by
  simp only [Cmd.step, htx, hlive, htable, hfree, hrow, hown]
  rfl

theorem step_commit {tx : Tx} (htx : w.txs i = some tx) (hlive : tx.aborted = false) :
    Cmd.step i .commit w =
      some ({ w with wal := w.wal ++ [tx.changes] }.closeTx i, some ()) := by
  simp only [Cmd.step, htx, hlive]
  rfl

end Statements

end Calcar.Migrate
