import Mathlib.Data.List.Perm.Subperm
import Calcar.Store.MigrateSteps

/-!
# Deployments and the schema

Any number of deployments run `Migrate` on one database, of builds with different files, one
after another or at once.  Statements fail, connections are lost, and a deployment that gave
up or died is started again.  A row of `schema_migrations` and the Up block it stands for are
written in one transaction, and the primary key lets one of the transactions for a version
through.

## Main results

* `migrations_once` — what is committed, in every run.
* `migrations_front` — when builds only add files behind the others, the schema is always
  that of the first so many files.
* `migrate_completes` — a deployment that nothing disturbs applies what is pending.
-/

namespace Calcar.Migrate

open Lib

/-! ## The invariant -/

variable {Build : Type} (files : Build → List Entry)

/-- What a build may commit when these rows are there: one of its Up blocks and the row that
stands for it, when the rows of all its files in front of that one are there. -/
def Lawful (b : Build) (rows : List String) (cs : List Change) : Prop :=
  ∃ before m after, loadMigrations (files b) = .ok (before ++ m :: after) ∧
    cs = [.up m.upSQL, .insert m.version] ∧ ∀ x ∈ before, x.version ∈ rows

/-- The rows of the first so many transactions. -/
def rowsBefore (wal : List (List Change)) (k : Nat) : List String := (wal.take k).flatMap versions

/-- What is committed and what is under way. -/
structure Inv (w : World) : Prop where
  history : ∀ k cs, w.wal[k]? = some cs → ∃ b, Lawful files b (rowsBefore w.wal k) cs
  nodup : w.recorded.Nodup
  pending : ∀ i cs v, w.held i = some cs → v ∈ versions cs → w.locks v = some i ∧ v ∉ w.recorded

theorem inv_boot : Inv files {} where
  history k cs h := by simp at h
  nodup := List.nodup_nil
  pending i cs v h := by simp [World.held] at h

theorem versions_append (cs ds : List Change) : versions (cs ++ ds) = versions cs ++ versions ds :=
  List.filterMap_append

theorem recorded_eq {w w' : World} (h : w'.wal = w.wal) : w'.recorded = w.recorded :=
  congrArg (List.flatMap versions) h

theorem recorded_concat {w w' : World} {cs : List Change} (h : w'.wal = w.wal ++ [cs]) :
    w'.recorded = w.recorded ++ versions cs := by
  simp [World.recorded, h]

variable {files} {i : Nat} {w w' : World}

/-- What is committed is a matter of the log alone. -/
theorem Inv.of_wal (hinv : Inv files w) (hwal : w'.wal = w.wal)
    (hpending : ∀ i cs v, w'.held i = some cs → v ∈ versions cs →
      w'.locks v = some i ∧ v ∉ w.recorded) : Inv files w' where
  history := by
    rw [hwal]
    exact hinv.history
  nodup := by
    rw [recorded_eq hwal]
    exact hinv.nodup
  pending := by
    rw [recorded_eq hwal]
    exact hpending

theorem Inv.drops (hinv : Inv files w) (h : Drops i w w') : Inv files w' := by
  cases h with
  | quiet hwal hheld hlocks =>
      apply hinv.of_wal hwal
      intro j cs v hcs hv
      rw [hheld j] at hcs
      rw [hlocks]
      exact hinv.pending j cs v hcs hv
  | dropped hwal hheld hown hlocks =>
      apply hinv.of_wal hwal
      intro j cs v hcs hv
      by_cases hj : j = i
      · subst hj
        rcases hown with hnone | hempty
        · rw [hnone] at hcs
          cases hcs
        · rw [hempty] at hcs
          cases hcs
          simp [versions] at hv
      · rw [hheld j hj] at hcs
        have hold := hinv.pending j cs v hcs hv
        exact ⟨hlocks j v hj hold.1, hold.2⟩

/-- A transaction that is committed adds rows that nobody else adds. -/
theorem Inv.commit (hinv : Inv files w) {b : Build} {cs : List Change}
    (hwas : w.held i = some cs) (hlaw : Lawful files b w.recorded cs)
    (hwal : w'.wal = w.wal ++ [cs]) (hheld : ∀ j, j ≠ i → w'.held j = w.held j)
    (hown : w'.held i = none)
    (hlocks : ∀ j v, j ≠ i → w.locks v = some j → w'.locks v = some j) : Inv files w' where
  history := by
    intro k ds hds
    rw [hwal] at hds ⊢
    by_cases hk : k < w.wal.length
    · rw [List.getElem?_append_left hk] at hds
      rw [rowsBefore, List.take_append_of_le_length (Nat.le_of_lt hk)]
      exact hinv.history k ds hds
    · have hlast : k = w.wal.length := by
        have hlt := (List.getElem?_eq_some_iff.mp hds).1
        simp at hlt
        omega
      subst hlast
      have hsame : ds = cs := by simpa using hds.symm
      subst hsame
      have htake : rowsBefore (w.wal ++ [ds]) w.wal.length = w.recorded := by
        simp [rowsBefore, World.recorded]
      rw [htake]
      exact ⟨b, hlaw⟩
  nodup := by
    rw [recorded_concat hwal]
    rcases hlaw with ⟨before, m, after, hload, hcs, hrows⟩
    have hone : versions cs = [m.version] := by rw [hcs]; rfl
    have hnew := (hinv.pending i cs m.version hwas (by simp [hone])).2
    rw [hone]
    exact List.nodup_append.mpr ⟨hinv.nodup, List.nodup_singleton _, by
      intro x hx y hy hxy
      have hy' : y = m.version := by simpa using hy
      rw [hxy, hy'] at hx
      exact hnew hx⟩
  pending := by
    intro j ds v hds hv
    by_cases hj : j = i
    · subst hj
      rw [hown] at hds
      cases hds
    · rw [hheld j hj] at hds
      have hold := hinv.pending j ds v hds hv
      refine ⟨hlocks j v hj hold.1, ?_⟩
      rw [recorded_concat hwal, List.mem_append]
      rintro (hin | hin)
      · exact hold.2 hin
      · have hmine := (hinv.pending i cs v hwas hin).1
        rw [hold.1] at hmine
        exact hj (Option.some.inj hmine)

theorem Inv.moves (hinv : Inv files w) {b : Build} {c : Cmd} (h : Moves i w c w')
    (hlaw : c = .commit → ∀ cs, w.held i = some cs → Lawful files b w.recorded cs) :
    Inv files w' := by
  cases h with
  | drops h => exact hinv.drops h
  | @up sql _ cs hwas hwal hheld hown hlocks =>
      apply hinv.of_wal hwal
      intro j ds v hds hv
      rw [hlocks]
      by_cases hj : j = i
      · subst hj
        rw [hown] at hds
        cases hds
        have hold : v ∈ versions cs := by simpa [versions, Change.version] using hv
        exact hinv.pending j cs v hwas hold
      · rw [hheld j hj] at hds
        exact hinv.pending j ds v hds hv
  | @insert u _ cs hwas hfree hnew hwal hheld hown hlocks =>
      apply hinv.of_wal hwal
      intro j ds v hds hv
      rw [hlocks]
      by_cases hj : j = i
      · subst hj
        rw [hown] at hds
        cases hds
        rw [versions_append, List.mem_append] at hv
        by_cases hvu : v = u
        · subst hvu
          exact ⟨if_pos rfl, hnew⟩
        · rw [if_neg hvu]
          rcases hv with hv | hv
          · exact hinv.pending j cs v hwas hv
          · simp [versions, Change.version] at hv
            exact absurd hv hvu
      · rw [hheld j hj] at hds
        have hold := hinv.pending j ds v hds hv
        have hvu : v ≠ u := by
          intro he
          subst he
          have hmine : j = i := by simpa [World.lockable, hold.1] using hfree
          exact hj hmine
        rw [if_neg hvu]
        exact hold
  | commit hwas hwal hheld hown hlocks =>
      exact hinv.commit hwas (hlaw rfl _ hwas) hwal hheld hown hlocks

/-! ## A thread among others -/

variable (files) in
/-- A thread commits what its build may commit. -/
def discipline : Discipline (deployments files) where
  inv := Inv files
  allowed b i c w := c = .commit → ∀ cs, w.held i = some cs → Lawful files b w.recorded cs

theorem Drops.rows (h : Drops i w w') {v : String} (hv : v ∈ w.recorded) : v ∈ w'.recorded := by
  cases h with
  | quiet hwal => rwa [recorded_eq hwal]
  | dropped hwal => rwa [recorded_eq hwal]

/-- Rows stay, whatever is done. -/
theorem Moves.rows {c : Cmd} (h : Moves i w c w') {v : String} (hv : v ∈ w.recorded) :
    v ∈ w'.recorded := by
  cases h with
  | drops h => exact h.rows hv
  | up _ hwal => rwa [recorded_eq hwal]
  | insert _ _ _ hwal => rwa [recorded_eq hwal]
  | commit _ hwal =>
      rw [recorded_concat hwal]
      exact List.mem_append_left _ hv

/-- Rows stay, whatever fails. -/
theorem exec_rows {c : Cmd} {f : Fault} {r : Ans c} (hx : Cmd.exec i c f w = some (w', r))
    {v : String} (hv : v ∈ w.recorded) : v ∈ w'.recorded :=
  exec_keeps (I := fun w => v ∈ w.recorded) hx hv (fun _ hm => hm.rows hv)
    fun _ _ hv hd => hd.rows hv

theorem Drops.held_ne (h : Drops i w w') {j : Nat} (hj : j ≠ i) : w'.held j = w.held j := by
  cases h with
  | quiet _ hheld => exact hheld j
  | dropped _ hheld => exact hheld j hj

/-- A statement leaves the other connections' transactions alone. -/
theorem Moves.held_ne {c : Cmd} (h : Moves i w c w') {j : Nat} (hj : j ≠ i) :
    w'.held j = w.held j := by
  cases h with
  | drops h => exact h.held_ne hj
  | up _ _ hheld => exact hheld j hj
  | insert _ _ _ _ hheld => exact hheld j hj
  | commit _ _ hheld => exact hheld j hj

theorem disconnect_drops (h : disconnect i w = some w') : Drops i w w' := by
  cases h
  exact lose_drops _

theorem other_rows {v : String} (h : (discipline files).Other i w w') (hv : v ∈ w.recorded) :
    v ∈ w'.recorded := by
  cases h with
  | act _ _ _ _ hx => exact exec_rows hx hv
  | env _ _ hx => exact (disconnect_drops hx).rows hv

/-- The others leave a transaction as it is, or the server drops it. -/
theorem other_held (h : (discipline files).Other i w w') :
    w'.held i = w.held i ∨ w'.held i = none := by
  cases h with
  | @act j t cmd o r hj _ _ _ hx =>
      left
      exact exec_keeps (I := fun w₁ => w₁.held i = w.held i) hx rfl
        (fun _ hm => hm.held_ne (Ne.symm hj))
        fun _ _ hsame hd => (hd.held_ne (Ne.symm hj)).trans hsame
  | @env j _ _ hx =>
      by_cases hj : i = j
      · subst hj
        cases hx
        right
        simp [World.held, World.closeTx, World.setTx]
      · exact .inl ((disconnect_drops hx).held_ne hj)

/-- The rows of these migrations are there. -/
def Rows (ms : List Migration) (w : World) : Prop := ∀ m ∈ ms, m.version ∈ w.recorded

/-- What a connection still holds back, if anything, is this. -/
def Holds (i : Nat) (cs : List Change) (w : World) : Prop := ∀ ds, w.held i = some ds → ds = cs

theorem rows_stable (ms : List Migration) : (discipline files).Stable i (Rows ms) :=
  fun _ _ ho hrows m hm => other_rows ho (hrows m hm)

theorem holds_stable (cs : List Change) : (discipline files).Stable i (Holds i cs) := by
  intro w w' ho hholds ds hds
  rcases other_held ho with hsame | hnone
  · exact hholds ds (hsame ▸ hds)
  · rw [hnone] at hds
    cases hds

/-- What a turn of the loop leads to. -/
def Turned (ms : List Migration) (r : Except MigrateError Unit) (w : World) : Prop :=
  r = .ok () → Rows ms w

theorem turned_stable (ms : List Migration) (r : Except MigrateError Unit) :
    (discipline files).Stable i (Turned ms r) :=
  Discipline.Stable.imp fun _ => rows_stable ms

section Turn

variable {b : Build} {ms before after : List Migration} {m : Migration}

/-- A turn that has failed. -/
theorem failed_turn (A : World → Prop) (err : MigrateError) :
    (discipline files).Triple b i A (.ret (.error err)) (Turned ms) :=
  Discipline.Triple.ret (turned_stable ms _) fun _ _ _ hok => nomatch hok

/-- A turn that rolls back has failed. -/
theorem rolled_back (A : World → Prop) (hA : (discipline files).Stable i A) (err : MigrateError) :
    (discipline files).Triple b i A (.call .rollback fun _ => .ret (.error err)) (Turned ms) :=
  Discipline.Triple.call (B := fun _ _ => True) hA
    (fun _ _ _ _ _ => ⟨fun hc => (nomatch hc), fun _ _ _ _ => trivial⟩)
    fun _ => failed_turn _ err

/-- Rows that are there are there after the next statement. -/
theorem rows_after {c : Cmd} {f : Fault} {r : Ans c} (hx : Cmd.exec i c f w = some (w', r))
    (hrows : Rows ms w) : Rows ms w' :=
  fun m hin => exec_rows hx (hrows m hin)

theorem begin_holds {f : Fault} (hx : Cmd.exec i .begin f w = some (w', some ())) :
    Holds i [] w' := by
  have hstep := exec_ok hx (fun h => nomatch h)
  cases hstep
  intro ds hds
  rw [held_setTx_self {} rfl] at hds
  exact (Option.some.inj hds).symm

theorem up_holds {sql : String} {f : Fault} {cs : List Change} (hheld : Holds i cs w)
    (hx : Cmd.exec i (.execUp sql) f w = some (w', some ())) :
    Holds i (cs ++ [.up sql]) w' := by
  have hstep := exec_ok hx (fun h => nomatch h)
  simp only [Cmd.step] at hstep
  split at hstep
  · cases hstep
  · rename_i tx htx
    split at hstep
    · cases hstep
    · rename_i hlive
      cases hstep
      intro ds hds
      rw [held_setTx_self { tx with changes := tx.changes ++ [.up sql] }
        (Bool.eq_false_iff.mpr hlive)] at hds
      have hcs := hheld _ (held_of_tx htx hlive)
      rw [← Option.some.inj hds]
      exact congrArg (· ++ [.up sql]) hcs

theorem insert_holds {v : String} {f : Fault} {cs : List Change} (hheld : Holds i cs w)
    (hx : Cmd.exec i (.insert v) f w = some (w', some ())) :
    Holds i (cs ++ [.insert v]) w' := by
  have hstep := exec_ok hx (fun h => nomatch h)
  simp only [Cmd.step] at hstep
  split at hstep
  · cases hstep
  · rename_i tx htx
    split at hstep
    · cases hstep
    · rename_i hlive
      split at hstep
      · cases hstep
      · split at hstep
        · cases hstep
        · split at hstep
          · cases hstep
          · cases hstep
            intro ds hds
            have hset := held_setTx_self (w := w) (i := i)
              { tx with changes := tx.changes ++ [.insert v] } (Bool.eq_false_iff.mpr hlive)
            have hds' := Option.some.inj (hset.symm.trans hds)
            have hcs := hheld _ (held_of_tx htx hlive)
            rw [← hds']
            exact congrArg (· ++ [.insert v]) hcs

/-- A commit that is answered has written what was held back. -/
theorem commit_rows {f : Fault} {cs : List Change} (hheld : Holds i cs w)
    (hx : Cmd.exec i .commit f w = some (w', some ())) :
    w'.recorded = w.recorded ++ versions cs := by
  have hstep := exec_ok hx (fun h => nomatch h)
  simp only [Cmd.step] at hstep
  split at hstep
  · cases hstep
  · rename_i tx htx
    split at hstep
    · cases hstep
    · rename_i hlive
      cases hstep
      have hcs := hheld _ (held_of_tx htx hlive)
      rw [← hcs]
      exact recorded_concat rfl

/-- The transaction of a migration, when the rows in front of it are there. -/
theorem applyOne_turn (hload : loadMigrations (files b) = .ok (before ++ m :: after)) :
    (discipline files).Triple b i (Rows before) (applyOne m) (Turned (before ++ [m])) := by
  have hrows : (discipline files).Stable i (Rows before) := rows_stable before
  have hand (cs : List Change) :
      (discipline files).Stable i (fun w => Rows before w ∧ Holds i cs w) :=
    hrows.and (holds_stable cs)
  have hother {c : Cmd} (hc : c ≠ .commit) (w : World) : (discipline files).allowed b i c w :=
    fun he => absurd he hc
  refine Discipline.Triple.call
    (B := fun r w => Rows before w ∧ (r = some () → Holds i [] w)) hrows ?_ ?_
  · intro w o hinv _ hA
    exact ⟨hother (by simp) w, fun w₁ r hx _ =>
      ⟨rows_after hx hA, fun hr => begin_holds (hr ▸ hx)⟩⟩
  intro r
  cases r with
  | none => exact failed_turn _ _
  | some _ =>
  refine Discipline.Triple.pre (A := fun w => Rows before w ∧ Holds i [] w) ?_
    fun w _ h => ⟨h.1, h.2 rfl⟩
  refine Discipline.Triple.call
    (B := fun r w => Rows before w ∧ (r = some () → Holds i [.up m.upSQL] w)) (hand _) ?_ ?_
  · intro w o hinv _ hA
    exact ⟨hother (by simp) w, fun w₁ r hx _ =>
      ⟨rows_after hx hA.1, fun hr => up_holds hA.2 (hr ▸ hx)⟩⟩
  intro r
  cases r with
  | none => exact rolled_back _ (hrows.and (Discipline.Stable.imp fun _ => holds_stable _)) _
  | some _ =>
  refine Discipline.Triple.pre (A := fun w => Rows before w ∧ Holds i [.up m.upSQL] w) ?_
    fun w _ h => ⟨h.1, h.2 rfl⟩
  refine Discipline.Triple.call
    (B := fun r w => Rows before w ∧
      (r = some () → Holds i [.up m.upSQL, .insert m.version] w)) (hand _) ?_ ?_
  · intro w o hinv _ hA
    exact ⟨hother (by simp) w, fun w₁ r hx _ =>
      ⟨rows_after hx hA.1, fun hr => insert_holds hA.2 (hr ▸ hx)⟩⟩
  intro r
  cases r with
  | none => exact rolled_back _ (hrows.and (Discipline.Stable.imp fun _ => holds_stable _)) _
  | some _ =>
  refine Discipline.Triple.pre
    (A := fun w => Rows before w ∧ Holds i [.up m.upSQL, .insert m.version] w) ?_
    fun w _ h => ⟨h.1, h.2 rfl⟩
  refine Discipline.Triple.call
    (B := fun r w => r = some () → Rows (before ++ [m]) w) (hand _) ?_ ?_
  · intro w o hinv _ hA
    have hallowed : (discipline files).allowed b i .commit w :=
      fun _ cs hcs => ⟨before, m, after, hload, hA.2 cs hcs, hA.1⟩
    refine ⟨hallowed, fun w₁ r hx _ hr x hx' => ?_⟩
    subst hr
    rw [commit_rows hA.2 hx, List.mem_append]
    rcases List.mem_append.mp hx' with hold | hnew
    · exact .inl (hA.1 x hold)
    · have hself : x = m := List.mem_singleton.mp hnew
      subst hself
      exact .inr (by simp [versions, Change.version])
  intro r
  cases r with
  | none => exact failed_turn _ _
  | some _ =>
      exact Discipline.Triple.ret (turned_stable _ _) fun w _ h _ => h rfl

/-- One turn of the loop, with what the look at the table has shown. -/
theorem migrateOne_turn (hload : loadMigrations (files b) = .ok (before ++ m :: after)) :
    (discipline files).Triple b i (Rows before) (migrateOne m) (Turned (before ++ [m])) := by
  have hrows : (discipline files).Stable i (Rows before) := rows_stable before
  refine Discipline.Triple.call
    (B := fun r w => Rows before w ∧ (r = some true → m.version ∈ w.recorded)) hrows ?_ ?_
  · intro w o hinv _ hA
    have hallowed : (discipline files).allowed b i (.selectExists m.version) w := by
      intro hc
      cases hc
    refine ⟨hallowed, fun w₁ r hx _ => ⟨rows_after hx hA, fun hr => ?_⟩⟩
    subst hr
    have hanswer : some true ≠ failure (.selectExists m.version) := by
      intro h
      cases h
    have hstep := exec_ok hx hanswer
    simp only [Cmd.step] at hstep
    split at hstep
    · have hpair := Option.some.inj hstep
      have hw : w = w₁ := congrArg Prod.fst hpair
      have hthere : some (decide (m.version ∈ w.recorded)) = some true := congrArg Prod.snd hpair
      rw [← hw]
      exact of_decide_eq_true (Option.some.inj hthere)
    · have hnone : none = some true := congrArg Prod.snd (Option.some.inj hstep)
      cases hnone
  intro r
  cases r with
  | none => exact failed_turn _ _
  | some there =>
      cases there with
      | false => exact (applyOne_turn hload).pre fun w _ h => h.1
      | true =>
          refine Discipline.Triple.ret (turned_stable _ _) fun w _ h _ x hx => ?_
          rcases List.mem_append.mp hx with hold | hnew
          · exact h.1 x hold
          · rw [List.mem_singleton.mp hnew]
            exact h.2 rfl

end Turn

/-- The loop, from any point of the list on. -/
theorem migrateAll_turn {b : Build} {before : List Migration} (rest : List Migration)
    (hload : loadMigrations (files b) = .ok (before ++ rest)) :
    (discipline files).Triple b i (Rows before) (migrateAll rest) (Turned (before ++ rest)) := by
  induction rest generalizing before with
  | nil =>
      rw [List.append_nil]
      exact Discipline.Triple.ret (turned_stable _ _) fun w _ h _ => h
  | cons m ms ih =>
      refine Discipline.Triple.bind (migrateOne_turn hload) fun r => ?_
      cases r with
      | error err => exact failed_turn _ _
      | ok _ =>
          have hmore : before ++ m :: ms = (before ++ [m]) ++ ms := by simp
          rw [hmore] at hload ⊢
          exact (ih hload).pre fun w _ h => h rfl

variable (files) in
/-- What a deployment that ends well has seen to. -/
def Deployed (b : Build) (r : Except MigrateError Unit) (w : World) : Prop :=
  r = .ok () → ∃ ms, loadMigrations (files b) = .ok ms ∧ Rows ms w

theorem deployed_stable (b : Build) (r : Except MigrateError Unit) :
    (discipline files).Stable i (Deployed files b r) :=
  Discipline.Stable.imp fun _ =>
    Discipline.Stable.ex fun ms => (Discipline.stable_const _).and (rows_stable ms)

theorem failed_deployment {b : Build} (A : World → Prop) (err : MigrateError) :
    (discipline files).Triple b i A (.ret (.error err)) (Deployed files b) :=
  Discipline.Triple.ret (deployed_stable b _) fun _ _ _ hok => nomatch hok

theorem migrateConnected_deployed (b : Build) :
    (discipline files).Triple b i (fun _ => True) (migrateConnected (files b))
      (Deployed files b) := by
  refine Discipline.Triple.call (B := fun _ _ => True) (Discipline.stable_const _)
    (fun _ _ _ _ _ => ⟨fun hc => (nomatch hc), fun _ _ _ _ => trivial⟩) fun r => ?_
  cases r with
  | none => exact failed_deployment _ _
  | some _ =>
      cases hload : loadMigrations (files b) with
      | error err =>
          exact failed_deployment _ _
      | ok ms =>
          have hall : (discipline files).Triple b i (Rows []) (migrateAll ms) (Turned ms) :=
            migrateAll_turn ms hload
          exact hall.conseq (fun w _ _ m hm => nomatch hm) fun r w h hok => ⟨ms, hload, h hok⟩

/-- **`Migrate` keeps to the discipline.** -/
theorem migrate_deployed (b : Build) :
    (discipline files).Triple b i (fun _ => True) (migrate (files b)) (Deployed files b) := by
  have hfree {c : Cmd} (hc : c ≠ .commit) (w : World) : (discipline files).allowed b i c w :=
    fun he => absurd he hc
  refine Discipline.Triple.call (B := fun _ _ => True) (Discipline.stable_const _)
    (fun w _ _ _ _ => ⟨hfree (by simp) w, fun _ _ _ _ => trivial⟩) fun r => ?_
  cases r with
  | none => exact failed_deployment _ _
  | some _ =>
      refine Discipline.Triple.bind (migrateConnected_deployed b) fun r => ?_
      refine Discipline.Triple.call (B := fun _ => Deployed files b r) (deployed_stable b r) ?_ ?_
      · intro w o _ _ hA
        refine ⟨hfree (by simp) w, fun w₁ _ hx _ hok => ?_⟩
        rcases hA hok with ⟨ms, hload, hrows⟩
        exact ⟨ms, hload, rows_after hx hrows⟩
      · exact fun _ => Discipline.Triple.ret (deployed_stable b r) fun _ _ h => h

/-- The invariant and every thread's safety, in every run. -/
theorem deployments_sound {c : Config Build World Cmd Ans (Except MigrateError Unit)}
    (h : (deployments files).Reach (fun _ _ => True) boot c) :
    Inv files c.world ∧ ∀ i b p, c.pool[i]? = some (b, p) →
      (discipline files).Safe b i (Deployed files b) p c.world := by
  have hrun := (discipline files).presumes_any trivial trivial h
  have hact : ∀ (b : Build) (j : Nat) (c : Cmd) (o : Fault) (w w' : World) (r : Ans c),
      Inv files w → True → (discipline files).allowed b j c w →
        Cmd.exec j c o w = some (w', r) → Inv files w' :=
    fun b j c o w w' r hinv _ hall hx =>
      exec_keeps hx hinv (fun _ hm => hinv.moves hm hall) fun _ _ h hd => h.drops hd
  have henv : ∀ (j : Nat) (w w' : World), Inv files w → True → disconnect j w = some w' →
      Inv files w' := fun j w w' hinv _ hx => hinv.drops (disconnect_drops hx)
  have hcode : ∀ (b : Build) (j : Nat) (w : World), Inv files w → True →
      (discipline files).Safe b j (Deployed files b) (migrate (files b)) w :=
    fun b j w hinv _ => (migrate_deployed b).safe hinv trivial
  have hboot : Inv files (@boot Build).world := inv_boot files
  have hsound := (discipline files).sound (Q := fun b _ => Deployed files b) hact henv
    (fun _ _ => Discipline.stable_const _) (fun b j w _ => hcode b j w) hboot (fun _ _ => trivial)
    (fun i b p hi => by simp [boot] at hi) hrun
  exact ⟨hsound.2.1, hsound.2.2.2⟩

/-- **Every Up block is applied at most once, with its row, and behind those in front of it.**
In every run of any number of deployments of any builds: a transaction that is committed is
one Up block of a build and the row of its file, at a moment when the rows of all earlier
files of that build are there; no row is written twice; and a deployment that has ended well
leaves the rows of all its files. -/
theorem migrations_once (files : Build → List Entry)
    (c : Config Build World Cmd Ans (Except MigrateError Unit))
    (h : (deployments files).Reach (fun _ _ => True) boot c) :
    (∀ k cs, c.world.wal[k]? = some cs →
      ∃ b before m after, loadMigrations (files b) = .ok (before ++ m :: after) ∧
        cs = [.up m.upSQL, .insert m.version] ∧
        ∀ x ∈ before, x.version ∈ (c.world.wal.take k).flatMap versions) ∧
      c.world.recorded.Nodup ∧
      ∀ (i : Nat) (b : Build), c.pool[i]? = some (b, .ret (.ok ())) →
        ∃ ms, loadMigrations (files b) = .ok ms ∧ ∀ m ∈ ms, m.version ∈ c.world.recorded := by
  have hsound := deployments_sound h
  refine ⟨hsound.1.history, hsound.1.nodup, fun i b hi => ?_⟩
  exact (hsound.2 i b _ hi).returned rfl

/-! ## Builds that only add files -/

/-- What is committed for a migration. -/
def Migration.committed (m : Migration) : List Change := [.up m.upSQL, .insert m.version]

theorem versions_committed (ms : List Migration) :
    (ms.map Migration.committed).flatMap versions = ms.map Migration.version := by
  induction ms with
  | nil => rfl
  | cons m ms ih =>
      rw [List.map_cons, List.flatMap_cons, ih]
      rfl

/-- The first transactions are those of the first files. -/
theorem wal_take {all : List Migration} (hinv : Inv files w)
    (hall : ∀ b ms, loadMigrations (files b) = .ok ms → ms <+: all)
    (hdistinct : (all.map Migration.version).Nodup) (k : Nat) (hk : k ≤ w.wal.length) :
    w.wal.take k = (all.take k).map Migration.committed := by
  induction k with
  | zero => simp
  | succ k ih =>
      have hlt : k < w.wal.length := hk
      have hfront := ih (Nat.le_of_lt hlt)
      have hrows : rowsBefore w.wal k = (all.take k).map Migration.version := by
        rw [rowsBefore, hfront, versions_committed]
      rcases hinv.history k _ (List.getElem?_eq_getElem hlt) with
        ⟨b, before, m, after, hload, hcs, hbefore⟩
      have hstart : before ++ m :: after <+: all := hall b _ hload
      have hbefore_all : before <+: all := (List.prefix_append _ _).trans hstart
      have hm : all[before.length]? = some m := by
        rcases hstart with ⟨rest, hrest⟩
        rw [← hrest]
        simp
      -- all files in front of it are among the first `k`
      have hle : before.length ≤ k := by
        have hnodup : (before.map Migration.version).Nodup :=
          hdistinct.sublist (hbefore_all.sublist.map _)
        have hsub : before.map Migration.version ⊆ (all.take k).map Migration.version := by
          intro v hv
          rcases List.mem_map.mp hv with ⟨x, hx, rfl⟩
          rw [← hrows]
          exact hbefore x hx
        have hlen := (List.subperm_of_subset hnodup hsub).length_le
        simp only [List.length_map, List.length_take] at hlen
        omega
      -- and it is not one of them itself
      have hge : k ≤ before.length := by
        by_contra hlow
        have hin : m.version ∈ rowsBefore w.wal k := by
          rw [hrows]
          apply List.mem_map_of_mem
          apply List.mem_of_getElem? (i := before.length)
          rw [List.getElem?_take_of_lt (by omega)]
          exact hm
        have hsplit : w.recorded = rowsBefore w.wal k ++ (w.wal.drop k).flatMap versions := by
          rw [World.recorded, rowsBefore, ← List.flatMap_append, List.take_append_drop]
        have hlater : m.version ∈ (w.wal.drop k).flatMap versions := by
          rw [List.drop_eq_getElem_cons hlt, List.flatMap_cons, hcs]
          exact List.mem_append_left _ (by simp [versions, Change.version])
        have hnodup := hinv.nodup
        rw [hsplit] at hnodup
        exact (List.nodup_append.mp hnodup).2.2 _ hin _ hlater rfl
      have heq : before.length = k := Nat.le_antisymm hle hge
      rw [heq] at hm
      rw [List.take_add_one, List.take_add_one, hfront, List.map_append, hm,
        List.getElem?_eq_getElem hlt, hcs]
      rfl

/-- **The schema is that of the first so many files.**  When the files of each build are the
first ones of a list, what is committed in any run is what the first so many of the list
commit, in its order. -/
theorem migrations_front (files : Build → List Entry) (all : List Migration)
    (hall : ∀ b ms, loadMigrations (files b) = .ok ms → ms <+: all)
    (hdistinct : (all.map Migration.version).Nodup)
    (c : Config Build World Cmd Ans (Except MigrateError Unit))
    (h : (deployments files).Reach (fun _ _ => True) boot c) :
    c.world.wal = (all.take c.world.wal.length).map Migration.committed := by
  have htake := wal_take (deployments_sound h).1 hall hdistinct _ (Nat.le_refl _)
  rwa [List.take_length] at htake

/-! ## A deployment that nothing disturbs -/

/-- Nobody inserts a row, and the connection is there. -/
structure Idle (i : Nat) (w : World) : Prop where
  alive : w.lost i = false
  table : w.table = true
  free : ∀ v, w.locks v = none

/-- The transaction of a migration that nothing disturbs. -/
theorem applyOne_alone (m : Migration) (h : Idle i w) (hnew : m.version ∉ w.recorded) :
    ∃ w', Prog.Runs Cmd.exec (· = Fault.none) i (applyOne m) w (.ok ()) w' ∧
      w'.wal = w.wal ++ [m.committed] ∧ Idle i w' := by
  let w₁ := w.setTx i (some {})
  let w₂ := w₁.setTx i (some ⟨[.up m.upSQL], false⟩)
  let w₃ := (w₂.setTx i (some ⟨m.committed, false⟩)).lock i m.version
  let w₄ := World.closeTx { w₃ with wal := w₃.wal ++ [m.committed] } i
  have hbegin : Cmd.exec i .begin .none w = some (w₁, some ()) := exec_alone _ h.alive
  have htx₁ : w₁.txs i = some {} := if_pos rfl
  have htx₂ : w₂.txs i = some ⟨[.up m.upSQL], false⟩ := if_pos rfl
  have htx₃ : w₃.txs i = some ⟨m.committed, false⟩ := if_pos rfl
  have hlockable : w₂.lockable i m.version = true := by
    simp [World.lockable, w₂, w₁, World.setTx, h.free]
  have hup : Cmd.exec i (.execUp m.upSQL) .none w₁ = some (w₂, some ()) :=
    (exec_alone (w := w₁) _ h.alive).trans (step_up _ htx₁ rfl)
  have hinsert : Cmd.exec i (.insert m.version) .none w₂ = some (w₃, some ()) :=
    (exec_alone (w := w₂) _ h.alive).trans (step_insert htx₂ rfl h.table hlockable hnew
      (by simp [versions, Change.version]))
  have hcommit : Cmd.exec i .commit .none w₃ = some (w₄, some ()) :=
    (exec_alone (w := w₃) _ h.alive).trans (step_commit htx₃ rfl)
  have hfree : ∀ v, w₄.locks v = none := by
    intro v
    by_cases hv : v = m.version
    · simp [w₄, w₃, World.closeTx, World.lock, World.setTx, hv]
    · simp [w₄, w₃, w₂, w₁, World.closeTx, World.lock, World.setTx, hv, h.free]
  exact ⟨w₄, .call rfl hbegin (.call rfl hup (.call rfl hinsert (.call rfl hcommit (.ret _ _)))),
    rfl, h.alive, h.table, hfree⟩

/-- What is pending of a list. -/
def pendingOf (ms : List Migration) (w : World) : List Migration :=
  ms.filter fun m => m.version ∉ w.recorded

/-- The loop, when nothing disturbs it. -/
theorem migrateAll_alone (ms : List Migration) (hdistinct : (ms.map Migration.version).Nodup)
    (h : Idle i w) :
    ∃ w', Prog.Runs Cmd.exec (· = Fault.none) i (migrateAll ms) w (.ok ()) w' ∧
      w'.wal = w.wal ++ (pendingOf ms w).map Migration.committed ∧ Idle i w' := by
  induction ms generalizing w with
  | nil => exact ⟨w, .ret _ _, by simp [pendingOf], h⟩
  | cons m ms ih =>
      have hlook : Cmd.exec i (.selectExists m.version) .none w =
          some (w, some (decide (m.version ∈ w.recorded))) :=
        (exec_alone _ h.alive).trans (if_pos h.table)
      rw [List.map_cons, List.nodup_cons] at hdistinct
      by_cases hin : m.version ∈ w.recorded
      · rcases ih hdistinct.2 h with ⟨w', hrun, hwal, hidle⟩
        have hskip : pendingOf (m :: ms) w = pendingOf ms w := by simp [pendingOf, hin]
        refine ⟨w', Prog.runs_bind.mpr ⟨.ok (), w, .call rfl hlook ?_, hrun⟩, ?_, hidle⟩
        · simp only [hin, decide_true]
          exact .ret _ _
        · rw [hskip]
          exact hwal
      · rcases applyOne_alone m h hin with ⟨w₁, hrun₁, hwal₁, hidle₁⟩
        rcases ih hdistinct.2 hidle₁ with ⟨w', hrun, hwal, hidle⟩
        have hrows : w₁.recorded = w.recorded ++ [m.version] := recorded_concat hwal₁
        have hrest : pendingOf ms w₁ = pendingOf ms w := by
          apply List.filter_congr
          intro x hx
          have hne : x.version ≠ m.version := fun he =>
            hdistinct.1 (he ▸ List.mem_map_of_mem hx)
          simp [hrows, hne]
        have hfirst : pendingOf (m :: ms) w = m :: pendingOf ms w := by simp [pendingOf, hin]
        refine ⟨w', Prog.runs_bind.mpr ⟨.ok (), w₁, .call rfl hlook ?_, hrun⟩, ?_, hidle⟩
        · simp only [hin, decide_false]
          exact hrun₁
        · rw [hwal, hwal₁, hrest, hfirst, List.append_assoc]
          rfl

theorem parse_version {name body : String} {m : Migration}
    (h : parseMigration name body = .ok m) : m.version = name := by
  unfold parseMigration at h
  split at h
  · split at h
    · cases h
    · simp only at h
      split at h
      · cases h
      · cases h
        rfl
  · cases h

/-- Every file gives its migration. -/
theorem parseAll_ok {entries : List Entry} {ms : List Migration} (h : parseAll entries = .ok ms) :
    List.Forall₂ (fun e m => parseMigration e.name e.body = .ok m) entries ms := by
  induction entries generalizing ms with
  | nil =>
      cases h
      exact .nil
  | cons e es ih =>
      simp only [parseAll] at h
      split at h
      · cases h
      · rename_i m hm
        split at h
        · cases h
        · rename_i rest hrest
          cases h
          exact .cons hm (ih hrest)

theorem parsed_versions {entries : List Entry} {ms : List Migration}
    (h : List.Forall₂ (fun e m => parseMigration e.name e.body = .ok m) entries ms) :
    ms.map Migration.version = entries.map Entry.name := by
  induction h with
  | nil => rfl
  | cons hm _ ih => rw [List.map_cons, List.map_cons, ih, parse_version hm]

/-- A directory has no two entries of one name. -/
theorem load_distinct {entries : List Entry} (hnames : (entries.map Entry.name).Nodup)
    {ms : List Migration} (h : loadMigrations entries = .ok ms) :
    (ms.map Migration.version).Nodup := by
  rw [parsed_versions (parseAll_ok h)]
  have hperm := (List.perm_insertionSort (fun a b : Entry => a.name ≤ b.name)
    (entries.filter fun e => !e.isDir && ".sql".toList.isSuffixOf e.name.toList)).map Entry.name
  exact hperm.nodup_iff.mpr (hnames.sublist (List.filter_sublist.map _))

/-- **A deployment that nothing disturbs applies what is pending**, in the order of the
files, whatever was there, when PostgreSQL carries out the pending Up blocks. -/
theorem migrate_completes (entries : List Entry) (hnames : (entries.map Entry.name).Nodup)
    (ms : List Migration) (hload : loadMigrations entries = .ok ms) (i : Nat) (w : World)
    (halive : w.lost i = false) (hfree : ∀ v, w.locks v = none) :
    ∃ w', Prog.Runs Cmd.exec (· = Fault.none) i (migrate entries) w (.ok ()) w' ∧
      w'.wal = w.wal ++ (pendingOf ms w).map Migration.committed := by
  let w₁ : World := { w with table := true }
  have hconnect : Cmd.exec i .connect .none w = some (w, some ()) := exec_alone _ halive
  have htable : Cmd.exec i .createTable .none w = some (w₁, some ()) := exec_alone _ halive
  rcases migrateAll_alone (i := i) (w := w₁) ms (load_distinct hnames hload)
    ⟨halive, rfl, hfree⟩ with ⟨w₂, hrun, hwal, hidle⟩
  have hclose : Cmd.exec i .close .none w₂ =
      some ({ w₂.closeTx i with lost := fun j => j = i || w₂.lost j }, some ()) :=
    exec_alone _ hidle.alive
  have hconnected : Prog.Runs Cmd.exec (· = Fault.none) i (migrateConnected entries) w (.ok ())
      w₂ := by
    refine .call rfl htable ?_
    simp only [hload]
    exact hrun
  exact ⟨_, .call rfl hconnect
    (Prog.runs_bind.mpr ⟨.ok (), w₂, hconnected, .call rfl hclose (.ret _ _)⟩), hwal⟩

/-! ## Two deployments at once -/

namespace Sample

def createUsers : String := "CREATE TABLE users ();"

def createSessions : String := "CREATE TABLE pairing_sessions ();"

def migrations : List Migration :=
  [⟨"0001_init.sql", createUsers, "DROP TABLE users;"⟩,
    ⟨"0002_pairing.sql", createSessions, "DROP TABLE pairing_sessions;"⟩]

def entries : List Entry :=
  [{ name := "0001_init.sql"
     body := "-- +migrate Up\nCREATE TABLE users ();\n-- +migrate Down\nDROP TABLE users;\n" },
   { name := "0002_pairing.sql"
     body := "-- +migrate Up\nCREATE TABLE pairing_sessions ();\n" ++
       "-- +migrate Down\nDROP TABLE pairing_sessions;\n" }]

def embedded : Unit → List Entry := fun _ => entries

/-- Both look before either applies; the second waits for the first and gives up. -/
def race : List (Label Unit Fault Nat) :=
  [.spawn (), .spawn ()] ++
    [0, 0, 1, 1, 0, 1, 0, 1, 0, 1, 0, 0, 1, 1, 1].map (Label.act · Fault.none)

def raced : Config Unit World Cmd Ans (Except MigrateError Unit) :=
  ((deployments embedded).follow boot race).getD boot

private theorem race_run : loadMigrations entries = .ok migrations ∧
    ((deployments embedded).follow boot race).isSome = true ∧
    raced.world.wal = [[.up createUsers, .insert "0001_init.sql"]] := by
  decide +kernel

theorem entries_load : loadMigrations entries = .ok migrations := race_run.1

theorem raced_facts : ((deployments embedded).follow boot race).isSome = true ∧
    raced.world.wal = [[.up createUsers, .insert "0001_init.sql"]] := race_run.2

theorem raced_reach : (deployments embedded).Reach (fun _ _ => True) boot raced := by
  rcases Option.isSome_iff_exists.mp raced_facts.1 with ⟨c, hc⟩
  have hraced : raced = c := by rw [raced, hc]; rfl
  rw [hraced]
  exact System.follow_reach hc

end Sample

open Sample

/-- Of two deployments at once, one has applied the first file. -/
theorem migrations_once_raced :
    raced.world.wal = [[.up createUsers, .insert "0001_init.sql"]] ∧ raced.world.recorded.Nodup :=
  ⟨raced_facts.2, (migrations_once embedded raced raced_reach).2.1⟩

/-- The schema is that of the first file. -/
theorem migrations_front_raced :
    raced.world.wal = (migrations.take raced.world.wal.length).map Migration.committed := by
  have hall : ∀ (b : Unit) (ms : List Migration), loadMigrations (embedded b) = .ok ms →
      ms <+: migrations := by
    intro b ms hms
    have hsame : migrations = ms := Except.ok.inj (entries_load.symm.trans hms)
    exact hsame ▸ List.prefix_rfl
  exact migrations_front embedded migrations hall (by decide) raced raced_reach

/-- Started again, the deployment applies the second file. -/
theorem migrate_completes_again :
    ∃ w', Prog.Runs Cmd.exec (· = Fault.none) 2 (migrate entries)
      { wal := [[.up createUsers, .insert "0001_init.sql"]] } (.ok ()) w' ∧
      w'.wal = [[.up createUsers, .insert "0001_init.sql"],
        [.up createSessions, .insert "0002_pairing.sql"]] := by
  rcases migrate_completes entries (by decide) migrations entries_load 2
    { wal := [[.up createUsers, .insert "0001_init.sql"]] } rfl (fun _ => rfl) with ⟨w', hrun, hwal⟩
  exact ⟨w', hrun, hwal.trans (by decide)⟩

end Calcar.Migrate
