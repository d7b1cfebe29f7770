import Calcar.Agent.Lifecycle
import Calcar.Verified.PendingRequests

/-!
# Workflow states

The state column is written by the `INSERT` of a new workflow and by the
`UPDATE` of `set_workflow_state`, each behind guards of its own.  What a
statement can do to the column is said once (`step_workflows`); the laws follow
by asking which commands a function gives.

## Main results

* `setWorkflowState_frozen` — a terminal workflow is not written again.
* `project_answers` — the projection, and that it writes nothing.
* `workflow_state_law` — the laws of the column over every run.
-/

namespace Calcar.Agent

open Lib

/-! ## What a statement does to the column -/

/-- The values a workflow may be stored with. -/
def Storable (state : Int) : Prop := state ∈ [1, 2, 3, 4, 5, 6]

instance (state : Int) : Decidable (Storable state) := by
  unfold Storable
  infer_instance

theorem storable_toI32 {next : WorkflowState} (h : next.isPersistable = true) :
    Storable next.toI32 := by
  cases next <;> first | decide | cases h

/-- One row under an `UPDATE` of workflow `w`. -/
def restate (w : String) (state now : Int) (r : WorkflowRow) : WorkflowRow :=
  if r.workflowId = w then { r with state := state, updatedAtMillis := now } else r

theorem restate_workflowId (w : String) (state now : Int) (r : WorkflowRow) :
    (restate w state now r).workflowId = r.workflowId := by
  unfold restate
  by_cases h : r.workflowId = w
  · rw [if_pos h]
  · rw [if_neg h]

section Statements

variable {db : Db} {w : String}

/-- **What a statement does to the workflows.** -/
theorem step_workflows (s : Sql) (db : Db) :
    (s.step db).1.workflows = db.workflows ∨
      (∃ row, s = .insertWorkflow row ∧ db.getWorkflow row.workflowId = none ∧
        (s.step db).1.workflows = db.workflows ++ [row]) ∨
      ∃ w state now, s = .updateWorkflowState w state now ∧
        (s.step db).1.workflows = db.workflows.map (restate w state now) := by
  cases s with
  | insertWorkflow row =>
      refine wrote_keep (P := fun d => d.workflows = db.workflows ∨
        (∃ row', Sql.insertWorkflow row = .insertWorkflow row' ∧
          db.getWorkflow row'.workflowId = none ∧ d.workflows = db.workflows ++ [row']) ∨
        ∃ w state now, Sql.insertWorkflow row = .updateWorkflowState w state now ∧
          d.workflows = db.workflows.map (restate w state now)) (.inl rfl) fun db' h => ?_
      have hnone : db.getWorkflow row.workflowId = none := by
        unfold Db.insertWorkflow at h
        by_cases hw : (db.getWorkflow row.workflowId).isSome = true
        · rw [if_pos hw] at h
          cases h
        · simpa using hw
      rw [insertWorkflow_ok h]
      exact .inr (.inl ⟨row, rfl, hnone, rfl⟩)
  | updateWorkflowState w state now =>
      refine wrote_keep (P := fun d => d.workflows = db.workflows ∨
        (∃ row', Sql.updateWorkflowState w state now = .insertWorkflow row' ∧
          db.getWorkflow row'.workflowId = none ∧ d.workflows = db.workflows ++ [row']) ∨
        ∃ w' state' now', Sql.updateWorkflowState w state now =
            .updateWorkflowState w' state' now' ∧
          d.workflows = db.workflows.map (restate w' state' now')) (.inl rfl) fun db' h => ?_
      rw [updateWorkflowState_ok h]
      exact .inr (.inr ⟨w, state, now, rfl, rfl⟩)
  | upsertBinding row =>
      refine .inl (wrote_keep (P := fun d => d.workflows = db.workflows) rfl fun db' h => ?_)
      exact (upsertBinding_ok h).2
  | appendEvent d now trimNow =>
      left
      rw [Sql.step]
      cases h : db.appendTx d now trimNow with
      | error e => rfl
      | ok x => exact (appendTx_requests h).2
  | insertRequest id w kind expiresAt now =>
      refine .inl (wrote_keep (P := fun d => d.workflows = db.workflows) rfl fun db' h => ?_)
      rw [(insertRequest_ok h).2.2]
  | _ => exact .inl rfl

theorem getWorkflow_append (rows : List WorkflowRow) (row : WorkflowRow) :
    (rows ++ [row]).find? (fun r => r.workflowId = w) =
      (rows.find? fun r => r.workflowId = w).or
        (if row.workflowId = w then some row else none) := by
  rw [List.find?_append]
  congr 1
  by_cases h : row.workflowId = w
  · rw [if_pos h, List.find?_cons_of_pos (by simpa using h)]
  · rw [if_neg h, List.find?_cons_of_neg (by simpa using h)]
    rfl

theorem getWorkflow_restate (rows : List WorkflowRow) (w' : String) (state now : Int) :
    (rows.map (restate w' state now)).find? (fun r => r.workflowId = w) =
      (rows.find? fun r => r.workflowId = w).map (restate w' state now) := by
  have hkey : ((fun r : WorkflowRow => decide (r.workflowId = w)) ∘ restate w' state now) =
      fun r => decide (r.workflowId = w) := by
    funext r
    show decide ((restate w' state now r).workflowId = w) = decide (r.workflowId = w)
    rw [restate_workflowId]
  rw [List.find?_map, hkey]

theorem getWorkflow_id {row : WorkflowRow} (h : db.getWorkflow w = some row) :
    row.workflowId = w := by
  simpa using List.find?_some h

theorem restate_self {row : WorkflowRow} {state now : Int} (h : db.getWorkflow w = some row) :
    restate w state now row = { row with state := state, updatedAtMillis := now } := by
  unfold restate
  rw [if_pos (getWorkflow_id h)]

theorem restate_other {w' : String} {row : WorkflowRow} {state now : Int}
    (h : db.getWorkflow w = some row) (hne : w ≠ w') : restate w' state now row = row := by
  have hid : row.workflowId ≠ w' := fun heq => hne ((getWorkflow_id h).symm.trans heq)
  unfold restate
  rw [if_neg hid]

/-- What is known of one workflow after a statement. -/
theorem step_getWorkflow (s : Sql) (db : Db) (w : String) :
    (s.step db).1.getWorkflow w = db.getWorkflow w ∨
      (∃ row, s = .insertWorkflow row ∧ db.getWorkflow w = none ∧
        (s.step db).1.getWorkflow w = some row) ∨
      ∃ row state now, s = .updateWorkflowState w state now ∧ db.getWorkflow w = some row ∧
        (s.step db).1.getWorkflow w = some { row with state := state, updatedAtMillis := now } := by
  obtain h | ⟨row, hs, hfree, h⟩ | ⟨w', state, now, hs, h⟩ := step_workflows s db
  · left
    unfold Db.getWorkflow
    rw [h]
  · have hget : (s.step db).1.getWorkflow w =
        (db.getWorkflow w).or (if row.workflowId = w then some row else none) := by
      unfold Db.getWorkflow
      rw [h]
      exact getWorkflow_append db.workflows row
    by_cases hid : row.workflowId = w
    · have hnone : db.getWorkflow w = none := hid ▸ hfree
      rw [hnone, if_pos hid] at hget
      exact .inr (.inl ⟨row, hs, hnone, hget⟩)
    · rw [if_neg hid, Option.or_none] at hget
      exact .inl hget
  · have hget : (s.step db).1.getWorkflow w =
        (db.getWorkflow w).map (restate w' state now) := by
      unfold Db.getWorkflow
      rw [h]
      exact getWorkflow_restate db.workflows w' state now
    cases hrow : db.getWorkflow w with
    | none =>
        rw [hrow] at hget
        exact .inl hget
    | some row =>
        rw [hrow, Option.map_some] at hget
        by_cases hw : w = w'
        · subst hw
          rw [restate_self hrow] at hget
          exact .inr (.inr ⟨row, state, now, hs, rfl, hget⟩)
        · rw [restate_other hrow hw] at hget
          exact .inl hget

end Statements

/-! ## The commands of the lifecycle functions -/

/-- Commands that write the state column only as `ok` says, new workflows
apart, which start running. -/
def WritesOnly (ok : String → Int → Prop) : Cmd → Prop
  | .sql (.insertWorkflow row) => row.state = 1
  | .sql (.updateWorkflowState w state _) => ok w state
  | _ => True

section Commands

variable {ok : String → Int → Prop} {α : Type}

theorem stored_only {P : Cmd → Prop} {p : Code (Except StorageError α)} (h : p.Only P) :
    (stored p).Only P :=
  h.bind fun _ => trivial

theorem getWorkflow_writes (w : String) : (getWorkflow w).Only (WritesOnly ok) :=
  Prog.only_perform trivial

theorem appendEvent_writes (d : EventDraft) : (appendEvent d).Only (WritesOnly ok) := by
  refine andThen_only (getWorkflow_writes _) fun row => ?_
  cases row with
  | none => trivial
  | some row => exact ⟨trivial, fun _ => ⟨trivial, fun _ => Prog.only_perform trivial⟩⟩

theorem record_only (w : String) (session : Option String) (next : WorkflowState)
    (reason : String) : (record w session next reason).Only (WritesOnly ok) := by
  unfold record
  cases lifecycleEvent next with
  | none => trivial
  | some eventType => exact ⟨trivial, fun _ => stored_only (appendEvent_writes _)⟩

theorem upsertSessionBinding_only (w session : String) (pointer : Option String) :
    (upsertSessionBinding w session pointer).Only (WritesOnly ok) :=
  ⟨trivial, fun _ => Prog.only_perform trivial⟩

theorem storeCreate_only (w : String) (provider : Provider) (title : String)
    (session : Option String) :
    (createWorkflow w provider title session).Only (WritesOnly ok) :=
  ⟨trivial, fun _ => andThen_only (Prog.only_perform rfl) fun _ => trivial⟩

theorem setWorkflowState_only {w : String} {next : WorkflowState}
    (h : next.isPersistable = true → ok w next.toI32) :
    (setWorkflowState w next).Only (WritesOnly ok) := by
  unfold setWorkflowState
  by_cases hp : next.isPersistable = true
  · rw [if_neg (not_not_intro hp)]
    refine andThen_only (getWorkflow_writes w) fun row => ?_
    cases row with
    | none => trivial
    | some current =>
        show Prog.Only _ (if current.state ∈ terminalStates then _ else _)
        by_cases ht : current.state ∈ terminalStates
        · rw [if_pos ht]
          trivial
        · rw [if_neg ht]
          refine ⟨trivial, fun t => andThen_only (Prog.only_perform (h hp)) fun _ => ?_⟩
          refine andThen_only (getWorkflow_writes w) fun row => ?_
          cases row with
          | none => trivial
          | some row => trivial
  · rw [if_pos hp]
    trivial

theorem create_only (w : String) (provider : Provider) (title : String)
    (session : Option String) :
    (WorkflowManager.createWorkflow w provider title session).Only (WritesOnly ok) := by
  unfold WorkflowManager.createWorkflow
  by_cases hw : w = ""
  · rw [if_pos hw]
    trivial
  rw [if_neg hw]
  by_cases ht : title = ""
  · rw [if_pos ht]
    trivial
  rw [if_neg ht]
  by_cases hp : provider = .unspecified
  · rw [if_pos hp]
    trivial
  rw [if_neg hp]
  refine andThen_only (stored_only (storeCreate_only w provider title session)) fun row => ?_
  refine andThen_only ?_ fun _ => andThen_only (record_only _ _ _ _) fun _ => trivial
  cases session with
  | none => trivial
  | some s => exact stored_only (upsertSessionBinding_only w s none)

/-- A transition is refused, or it writes the state and then records it. -/
theorem transition_eq (w : String) (next : WorkflowState) (reason : String) :
    (∃ message, (next.isPersistable = false ∨ reason = "") ∧
        WorkflowManager.transition w next reason = .ret (.error (.refused message))) ∨
      next.isPersistable = true ∧ reason ≠ "" ∧
        WorkflowManager.transition w next reason =
          andThen (stored (setWorkflowState w next)) fun row =>
            andThen (record row.workflowId row.providerSessionId next reason) fun _ =>
              return .ok row := by
  unfold WorkflowManager.transition
  by_cases hr : reason = ""
  · left
    unfold checkReason
    rw [if_pos hr]
    cases next <;> exact ⟨_, .inr hr, rfl⟩
  · unfold checkReason
    rw [if_neg hr]
    cases next with
    | unspecified => exact .inl ⟨_, .inl rfl, rfl⟩
    | disconnectedRunning => exact .inl ⟨_, .inl rfl, rfl⟩
    | _ => exact .inr ⟨rfl, hr, rfl⟩

theorem transition_only {w : String} {next : WorkflowState} (reason : String)
    (h : next.isPersistable = true → ok w next.toI32) :
    (WorkflowManager.transition w next reason).Only (WritesOnly ok) := by
  obtain ⟨message, _, heq⟩ | ⟨_, _, heq⟩ := transition_eq w next reason
  · rw [heq]
    trivial
  · rw [heq]
    refine andThen_only (stored_only (setWorkflowState_only h)) fun row => ?_
    exact andThen_only (record_only _ _ _ _) fun _ => trivial

theorem transitionOnDisconnect_only {w : String} {next : WorkflowState} (reason : String)
    (h : next ≠ .completed → next.isPersistable = true → ok w next.toI32) :
    (WorkflowManager.transitionOnDisconnect w next reason).Only (WritesOnly ok) := by
  unfold WorkflowManager.transitionOnDisconnect
  by_cases hc : next = .completed
  · rw [if_pos hc]
    trivial
  · rw [if_neg hc]
    exact transition_only reason (h hc)

theorem recover_only {w : String} (row : WorkflowRow) (h : ok w 5) :
    (WorkflowManager.recover w row).Only (WritesOnly ok) := by
  unfold WorkflowManager.recover getSessionBinding eventsAfter
  refine andThen_only (stored_only (Prog.only_perform trivial)) fun binding => ?_
  refine andThen_only (stored_only (Prog.only_perform trivial)) fun replayed => ?_
  cases binding with
  | some b => trivial
  | none =>
      refine andThen_only (stored_only (setWorkflowState_only fun _ => h)) fun _ => ?_
      exact andThen_only (record_only _ _ _ _) fun _ => trivial

theorem reconcile_only {w : String} (h : ok w 5) :
    (WorkflowManager.reconcile w).Only (WritesOnly ok) := by
  unfold WorkflowManager.reconcile
  refine andThen_only (stored_only (getWorkflow_writes w)) fun row => ?_
  cases row with
  | none => trivial
  | some row =>
      cases hs : WorkflowState.fromI32 row.state with
      | none =>
          simp only [hs]
          trivial
      | some state =>
          simp only [hs]
          cases state with
          | running => exact recover_only row h
          | waitingInput => exact recover_only row h
          | waitingApproval => exact recover_only row h
          | _ => trivial

/-- Commands that write nothing at all. -/
def ReadsOnly : Cmd → Prop
  | .now => True
  | .sql (.selectWorkflow _) => True
  | .sql (.selectBinding _) => True
  | .sql (.selectEventsAfter _ _ _) => True
  | _ => False

theorem ReadsOnly.same {c : Cmd} (h : ReadsOnly c) (o : Oracle) (m : Machine) :
    (c.run o m).1 = m := by
  cases c with
  | now => rfl
  | sql s =>
      obtain hm | hm := Cmd.sql_changes s o m
      · exact hm
      · rw [hm]
        cases s with
        | selectWorkflow w => rfl
        | selectBinding w => rfl
        | selectEventsAfter w afterSeq limit => rfl
        | _ => exact absurd h id
  | _ => exact absurd h id

theorem ReadsOnly.writes {c : Cmd} (h : ReadsOnly c) : WritesOnly ok c := by
  cases c with
  | sql s => cases s <;> trivial
  | _ => trivial

theorem project_only (w : String) : (WorkflowManager.projectOnDisconnect w).Only ReadsOnly := by
  unfold WorkflowManager.projectOnDisconnect
  refine andThen_only (stored_only (Prog.only_perform trivial)) fun row => ?_
  cases row with
  | none => trivial
  | some row =>
      cases hs : WorkflowState.fromI32 row.state with
      | none =>
          simp only [hs]
          trivial
      | some state =>
          simp only [hs]
          trivial

theorem bind_only (w session : String) (pointer : Option String) :
    (SessionManager.bind w session pointer).Only (WritesOnly ok) := by
  unfold SessionManager.bind
  by_cases hw : w = ""
  · rw [if_pos hw]
    trivial
  rw [if_neg hw]
  by_cases hs : session = ""
  · rw [if_pos hs]
    trivial
  rw [if_neg hs]
  refine andThen_only (getWorkflow_writes w) fun row => ?_
  cases row with
  | none => trivial
  | some row => exact upsertSessionBinding_only w session pointer

end Commands

/-! ## Terminal states -/

section Frozen

variable {w : String} {row : WorkflowRow} {m : Machine} {j : Nat} {α : Type}

/-- Every command that leaves workflow `w` alone keeps its row. -/
theorem apart_keeps {c : Cmd} (hc : WritesOnly (fun w' _ => w' ≠ w) c) (o : Oracle)
    (h : m.db.getWorkflow w = some row) : (c.run o m).1.db.getWorkflow w = some row := by
  refine run_db (P := fun db => db.getWorkflow w = some row) m o h fun s hs => ?_
  subst hs
  obtain hsame | ⟨r, _, hnone, _⟩ | ⟨r, state, now, hs, _, _⟩ := step_getWorkflow s m.db w
  · exact hsame.trans h
  · rw [hnone] at h
    cases h
  · rw [hs] at hc
    exact absurd rfl hc

/-- The row of `w` stays as it is. -/
def RowIs (w : String) (row : WorkflowRow) (m : Machine) : Prop :=
  m.db.getWorkflow w = some row

theorem RowIs.keep {p : Code α} (hp : p.Only (WritesOnly fun w' _ => w' ≠ w))
    (h : RowIs w row m) : p.Meets exec j (fun _ => RowIs w row) (RowIs w row) m :=
  meets_keep hp (fun _ o _ hc hm => apart_keeps hc o hm) h

theorem meets_stored {World O : Type} {ex : Exec Cmd Cmd.Ans World O} {x : World}
    {p : Code (Except StorageError α)} {Q : Except LifecycleError α → World → Prop}
    {C : World → Prop}
    (h : p.Meets ex j (fun a x => C x → Q (a.mapError .storage) x) C x) :
    (stored p).Meets ex j Q C x :=
  Prog.meets_bind (h.mono (fun _ _ ha hC => ⟨hC, ha hC⟩) fun _ hC => hC)

/-- **A terminal workflow is not written again**: `set_workflow_state` reads the
state first. -/
theorem setWorkflowState_frozen (hrow : row.state ∈ terminalStates) (h : RowIs w row m)
    (w' : String) (next : WorkflowState) :
    (setWorkflowState w' next).Meets exec j (fun _ => RowIs w row) (RowIs w row) m := by
  by_cases hw : w' = w
  · subst hw
    unfold setWorkflowState getWorkflow
    by_cases hp : next.isPersistable = true
    · rw [if_neg (not_not_intro hp)]
      refine meets_andThen (meets_sql h (fun _ => h) ⟨h, fun _ => ?_⟩)
      have hread : (Sql.selectWorkflow w').step m.db = (m.db, .ok (some row)) :=
        congrArg (fun r => (m.db, Except.ok r)) h
      rw [hread]
      show Prog.Meets _ _ _ _ (if row.state ∈ terminalStates then _ else _) _
      rw [if_pos hrow]
      exact ⟨h, h⟩
    · rw [if_pos hp]
      exact ⟨h, h⟩
  · exact h.keep (setWorkflowState_only fun _ => hw)

theorem transition_frozen (hrow : row.state ∈ terminalStates) (h : RowIs w row m)
    (w' : String) (next : WorkflowState) (reason : String) :
    (WorkflowManager.transition w' next reason).Meets exec j (fun _ => RowIs w row)
      (RowIs w row) m := by
  obtain ⟨message, _, heq⟩ | ⟨_, _, heq⟩ := transition_eq w' next reason
  · rw [heq]
    exact ⟨h, h⟩
  · rw [heq]
    refine meets_andThen (meets_stored ((setWorkflowState_frozen hrow h w' next).mono
      (fun a m hm _ _ => ?_) fun _ hm => hm))
    cases a with
    | error e => exact hm
    | ok r =>
        refine meets_andThen ((hm.keep (record_only _ _ _ _)).mono (fun b m hm _ => ?_)
          fun _ hm => hm)
        cases b with
        | error e => exact hm
        | ok _ => exact ⟨hm, hm⟩

theorem recover_frozen (hrow : row.state ∈ terminalStates) (h : RowIs w row m) (w' : String)
    (r : WorkflowRow) :
    (WorkflowManager.recover w' r).Meets exec j (fun _ => RowIs w row) (RowIs w row) m := by
  unfold WorkflowManager.recover getSessionBinding eventsAfter
  refine meets_andThen (meets_stored (meets_sql h (fun _ _ => h) ⟨h, fun _ _ => ?_⟩))
  refine meets_andThen (meets_stored (meets_sql h (fun _ _ => h) ⟨h, fun _ _ => ?_⟩))
  cases m.db.bindingOf w' with
  | some b => exact ⟨h, h⟩
  | none =>
      refine meets_andThen (meets_stored ((setWorkflowState_frozen hrow h w' .failed).mono
        (fun a m hm _ _ => ?_) fun _ hm => hm))
      cases a with
      | error e => exact hm
      | ok _ =>
          refine meets_andThen ((hm.keep (record_only _ _ _ _)).mono (fun b m hm _ => ?_)
            fun _ hm => hm)
          cases b with
          | error e => exact hm
          | ok _ => exact ⟨hm, hm⟩

theorem reconcile_frozen (hrow : row.state ∈ terminalStates) (h : RowIs w row m) (w' : String) :
    (WorkflowManager.reconcile w').Meets exec j (fun _ => RowIs w row) (RowIs w row) m := by
  unfold WorkflowManager.reconcile getWorkflow
  refine meets_andThen (meets_stored (meets_sql h (fun _ _ => h) ⟨h, fun _ _ => ?_⟩))
  have hread : (Sql.selectWorkflow w').step m.db = (m.db, .ok (m.db.getWorkflow w')) := rfl
  rw [hread]
  cases m.db.getWorkflow w' with
  | none => exact ⟨h, h⟩
  | some r =>
      simp only [mapError_ok]
      cases hs : WorkflowState.fromI32 r.state with
      | none =>
          simp only
          exact ⟨h, h⟩
      | some state =>
          cases state with
          | running => exact recover_frozen hrow h w' r
          | waitingInput => exact recover_frozen hrow h w' r
          | waitingApproval => exact recover_frozen hrow h w' r
          | _ => exact ⟨h, h⟩

end Frozen

/-! ## The other laws of the column -/

section Column

variable {m : Machine} {j : Nat} {α : Type}

/-- The `CHECK` of the table, and that the column is a `WorkflowState`. -/
def StatesStored (db : Db) : Prop := ∀ row, row ∈ db.workflows → Storable row.state

instance (db : Db) : Decidable (StatesStored db) := by
  unfold StatesStored
  infer_instance

/-- What commands keep that write the column only as `ok` says. -/
theorem meets_writes {ok : String → Int → Prop} {I : Db → Prop} {p : Code α}
    (hp : p.Only (WritesOnly ok))
    (hstep : ∀ (s : Sql) db, WritesOnly ok (.sql s) → I db → I (s.step db).1) (h : I m.db) :
    p.Meets exec j (fun _ m => I m.db) (fun m => I m.db) m := by
  refine meets_keep hp (fun c o m hc hm => ?_) h
  refine run_db m o hm fun s hs => ?_
  subst hs
  exact hstep s m.db hc hm

theorem stored_step {s : Sql} {db : Db} (hs : WritesOnly (fun _ state => Storable state) (.sql s))
    (h : StatesStored db) : StatesStored (s.step db).1 := by
  intro row hrow
  obtain hsame | ⟨r, heq, _, hnew⟩ | ⟨w, state, now, heq, hmap⟩ := step_workflows s db
  · rw [hsame] at hrow
    exact h row hrow
  · rw [hnew, List.mem_append, List.mem_singleton] at hrow
    rcases hrow with hrow | hrow
    · exact h row hrow
    · rw [heq] at hs
      have hone : r.state = 1 := hs
      rw [hrow, hone]
      decide
  · rw [hmap] at hrow
    obtain ⟨r, hr, rfl⟩ := List.mem_map.mp hrow
    rw [heq] at hs
    unfold restate
    by_cases hid : r.workflowId = w
    · rw [if_pos hid]
      exact hs
    · rw [if_neg hid]
      exact h r hr

/-- No workflow is completed that was not before. -/
def CompletesNone (db db' : Db) : Prop :=
  ∀ w row', db'.getWorkflow w = some row' → row'.state = 4 →
    ∃ row, db.getWorkflow w = some row ∧ row.state = 4

theorem completes_step {s : Sql} {db db' : Db} (hs : WritesOnly (fun _ state => state ≠ 4) (.sql s))
    (h : CompletesNone db db') : CompletesNone db (s.step db').1 := by
  intro w row' hrow' hfour
  obtain hsame | ⟨r, heq, _, hnew⟩ | ⟨r, state, now, heq, _, hset⟩ := step_getWorkflow s db' w
  · rw [hsame] at hrow'
    exact h w row' hrow' hfour
  · rw [hnew] at hrow'
    rw [heq] at hs
    have hone : r.state = 1 := hs
    have hrow : r = row' := Option.some.inj hrow'
    rw [← hrow, hone] at hfour
    exact absurd hfour (by decide)
  · rw [hset] at hrow'
    cases hrow'
    rw [heq] at hs
    exact absurd hfour hs

/-- What the phone is shown of a stored state while it is away. -/
def shown (state : Int) : WorkflowState :=
  if state = 4 then .completed
  else if state = 5 then .failed
  else if state = 6 then .stopped
  else .disconnectedRunning

/-- The view of a workflow, from its row. -/
def viewOf (w : String) : Option WorkflowRow → Except LifecycleError WorkflowView
  | none => .error (.storage (.notFound ("workflow " ++ w)))
  | some row => .ok ⟨row, shown row.state⟩

theorem projected_shown {row : WorkflowRow} (w : String) (h : Storable row.state) :
    ∃ state, WorkflowState.fromI32 row.state = some state ∧
      WorkflowManager.projected w state = .ok (shown row.state) := by
  have hcases : row.state = 1 ∨ row.state = 2 ∨ row.state = 3 ∨ row.state = 4 ∨ row.state = 5 ∨
      row.state = 6 := by
    simpa [Storable] using h
  rcases hcases with h | h | h | h | h | h <;> rw [h] <;> exact ⟨_, rfl, rfl⟩

/-- The stored states, by what recovery does about them. -/
theorem storable_cases {row : WorkflowRow} (h : Storable row.state) :
    (∃ state, WorkflowState.fromI32 row.state = some state ∧ row.state = state.toI32 ∧
        row.state ∈ terminalStates ∧
        (state = .completed ∨ state = .failed ∨ state = .stopped)) ∨
      ∃ state, WorkflowState.fromI32 row.state = some state ∧ row.state ∉ terminalStates ∧
        (state = .running ∨ state = .waitingInput ∨ state = .waitingApproval) := by
  have hcases : row.state = 1 ∨ row.state = 2 ∨ row.state = 3 ∨ row.state = 4 ∨ row.state = 5 ∨
      row.state = 6 := by
    simpa [Storable] using h
  rcases hcases with h | h | h | h | h | h <;> rw [h]
  · exact .inr ⟨.running, rfl, by decide, .inl rfl⟩
  · exact .inr ⟨.waitingInput, rfl, by decide, .inr (.inl rfl)⟩
  · exact .inr ⟨.waitingApproval, rfl, by decide, .inr (.inr rfl)⟩
  · exact .inl ⟨.completed, rfl, rfl, by decide, .inl rfl⟩
  · exact .inl ⟨.failed, rfl, rfl, by decide, .inr (.inl rfl)⟩
  · exact .inl ⟨.stopped, rfl, rfl, by decide, .inr (.inr rfl)⟩

/-- **What the projection answers**, the file being as it was. -/
theorem project_answers (w : String) (hm : StatesStored m.db) :
    (WorkflowManager.projectOnDisconnect w).Meets exec j
      (fun a _ => a = .error (.storage .sqlite) ∨ a = viewOf w (m.db.getWorkflow w))
      (fun _ => True) m := by
  unfold WorkflowManager.projectOnDisconnect getWorkflow
  refine meets_andThen (meets_stored (meets_sql (C := fun _ => True) trivial
    (fun _ _ => .inl rfl) ⟨trivial, fun _ _ => ?_⟩))
  have hread : (Sql.selectWorkflow w).step m.db = (m.db, .ok (m.db.getWorkflow w)) := rfl
  rw [hread]
  cases hrow : m.db.getWorkflow w with
  | none => exact ⟨trivial, .inr rfl⟩
  | some row =>
      have hmem : row ∈ m.db.workflows := List.mem_of_find?_eq_some hrow
      obtain ⟨state, hstate, hshown⟩ := projected_shown w (hm row hmem)
      simp only [mapError_ok, hstate, hshown]
      exact ⟨trivial, .inr rfl⟩

end Column

/-! ## Runs -/

/-- The calls that read and write workflows: those of the manager, of the store
under it, and of the session manager; and new starts of the process. -/
inductive LifecycleCall where
  | create (w : String) (provider : Provider) (title : String) (session : Option String)
  | transition (w : String) (next : WorkflowState) (reason : String)
  | transitionOnDisconnect (w : String) (next : WorkflowState) (reason : String)
  | project (w : String)
  | reconcile (w : String)
  | storeCreate (w : String) (provider : Provider) (title : String) (session : Option String)
  | setState (w : String) (next : WorkflowState)
  | bind (w session : String) (pointer : Option String)
  | append (d : EventDraft)
  | restart

/-- What they return. -/
inductive LifecycleReply where
  | row (a : Except LifecycleError WorkflowRow)
  | view (a : Except LifecycleError WorkflowView)
  | decision (a : Except LifecycleError RecoveryDecision)
  | stored (a : Except StorageError WorkflowRow)
  | bound (a : Except StorageError Unit)
  | appended (a : Except StorageError Int)
  | restarted

/-- The program of a call. -/
def LifecycleCall.code : LifecycleCall → Code LifecycleReply
  | .create w provider title session => do
      return .row (← WorkflowManager.createWorkflow w provider title session)
  | .transition w next reason => do
      return .row (← WorkflowManager.transition w next reason)
  | .transitionOnDisconnect w next reason => do
      return .row (← WorkflowManager.transitionOnDisconnect w next reason)
  | .project w => do
      return .view (← WorkflowManager.projectOnDisconnect w)
  | .reconcile w => do
      return .decision (← WorkflowManager.reconcile w)
  | .storeCreate w provider title session => do
      return .stored (← createWorkflow w provider title session)
  | .setState w next => do
      return .stored (← setWorkflowState w next)
  | .bind w session pointer => do
      return .bound (← SessionManager.bind w session pointer)
  | .append d => do
      return .appended (← appendEvent d)
  | .restart => do
      Prog.perform Cmd.restart
      return .restarted

/-- The steps of a phone that goes away and of an agent that comes back. -/
def LifecycleCall.disconnects : LifecycleCall → Bool
  | .transitionOnDisconnect _ _ _ => true
  | .project _ => true
  | .reconcile _ => true
  | _ => false

/-- The machine after a run of calls. -/
def lifecycleAfter (m : Machine) (ts : List (Prog.Try LifecycleCall Oracle)) : Machine :=
  Prog.afterAll exec LifecycleCall.code m ts

/-- The laws of the state column, over a run `ts` from machine `m`. -/
structure WorkflowStateLaw (m : Machine) (ts : List (Prog.Try LifecycleCall Oracle)) : Prop where
  /-- Unspecified and disconnected-running are never stored. -/
  storable : ∀ us vs, ts = us ++ vs → ∀ w row,
    (lifecycleAfter m us).db.getWorkflow w = some row →
    row.state ≠ WorkflowState.unspecified.toI32 ∧
      row.state ≠ WorkflowState.disconnectedRunning.toI32
  /-- A terminal workflow stays as it is. -/
  frozen : ∀ us vs, ts = us ++ vs → ∀ w row,
    (lifecycleAfter m us).db.getWorkflow w = some row → row.state ∈ terminalStates →
    (lifecycleAfter m ts).db.getWorkflow w = some row
  /-- Neither a disconnect nor a recovery completes a workflow. -/
  completes : ∀ us t vs, ts = us ++ t :: vs → t.task.disconnects = true →
    CompletesNone (lifecycleAfter m us).db (lifecycleAfter m (us ++ [t])).db
  /-- The projection shows the row and what the phone is shown of it, and
  writes nothing. -/
  projects : ∀ us t vs, ts = us ++ t :: vs → ∀ w, t.task = .project w →
    lifecycleAfter m (us ++ [t]) = lifecycleAfter m us ∧
      ∀ a, (t.at exec LifecycleCall.code (lifecycleAfter m us)).2 = some (.view a) →
        a = .error (.storage .sqlite) ∨
          a = viewOf w ((lifecycleAfter m us).db.getWorkflow w)

section Law

variable {m : Machine} {ts us vs : List (Prog.Try LifecycleCall Oracle)}

theorem lifecycleAfter_snoc (t : Prog.Try LifecycleCall Oracle) :
    lifecycleAfter m (us ++ [t]) = (t.at exec LifecycleCall.code (lifecycleAfter m us)).1 := by
  unfold lifecycleAfter
  rw [Prog.afterAll_append]
  rfl

theorem lifecycleAfter_append :
    lifecycleAfter m (us ++ vs) = lifecycleAfter (lifecycleAfter m us) vs :=
  Prog.afterAll_append m us vs

/-- Every call writes storable states only. -/
theorem call_storable (c : LifecycleCall) :
    c.code.Only (WritesOnly fun _ state => Storable state) := by
  cases c with
  | create w provider title session =>
      exact (create_only w provider title session).bind fun _ => trivial
  | transition w next reason =>
      exact (transition_only reason storable_toI32).bind fun _ => trivial
  | transitionOnDisconnect w next reason =>
      exact (transitionOnDisconnect_only reason fun _ => storable_toI32).bind fun _ => trivial
  | project w => exact ((project_only w).mono fun _ hc => hc.writes).bind fun _ => trivial
  | reconcile w => exact (reconcile_only (by decide)).bind fun _ => trivial
  | storeCreate w provider title session =>
      exact (storeCreate_only w provider title session).bind fun _ => trivial
  | setState w next => exact (setWorkflowState_only storable_toI32).bind fun _ => trivial
  | bind w session pointer => exact (bind_only w session pointer).bind fun _ => trivial
  | append d => exact (appendEvent_writes d).bind fun _ => trivial
  | restart => exact ⟨trivial, fun _ => trivial⟩

theorem stored_run (hm : StatesStored m.db) : StatesStored (lifecycleAfter m ts).db :=
  Prog.afterAll_keep (I := fun m : Machine => StatesStored m.db)
    (fun (t : Prog.Try LifecycleCall Oracle) _ _ hw =>
      (Prog.meets_attempt (meets_writes (call_storable t.task)
        (fun _ _ hs hdb => stored_step hs hdb) hw) t.steps t.oracles).1) hm

/-- One call leaves a terminal workflow as it is. -/
theorem call_frozen {w : String} {row : WorkflowRow} (hrow : row.state ∈ terminalStates)
    (h : RowIs w row m) (c : LifecycleCall) :
    c.code.Meets exec 0 (fun _ => RowIs w row) (RowIs w row) m := by
  have wrap : ∀ {α : Type} {p : Code α} (f : α → LifecycleReply),
      p.Meets exec 0 (fun _ => RowIs w row) (RowIs w row) m →
      (p >>= fun a => .ret (f a)).Meets exec 0 (fun _ => RowIs w row) (RowIs w row) m :=
    fun f hp => Prog.meets_bind (hp.mono (fun _ _ hw _ => ⟨hw, hw⟩) fun _ hw => hw)
  cases c with
  | create w' provider title session =>
      exact wrap .row (h.keep (create_only w' provider title session))
  | transition w' next reason => exact wrap .row (transition_frozen hrow h w' next reason)
  | transitionOnDisconnect w' next reason =>
      refine wrap .row ?_
      unfold WorkflowManager.transitionOnDisconnect
      by_cases hc : next = .completed
      · rw [if_pos hc]
        exact ⟨h, h⟩
      · rw [if_neg hc]
        exact transition_frozen hrow h w' next reason
  | project w' => exact wrap .view (h.keep ((project_only w').mono fun _ hc => hc.writes))
  | reconcile w' => exact wrap .decision (reconcile_frozen hrow h w')
  | storeCreate w' provider title session =>
      exact wrap .stored (h.keep (storeCreate_only w' provider title session))
  | setState w' next => exact wrap .stored (setWorkflowState_frozen hrow h w' next)
  | bind w' session pointer => exact wrap .bound (h.keep (bind_only w' session pointer))
  | append d => exact wrap .appended (h.keep (appendEvent_writes d))
  | restart => exact ⟨h, fun o m₁ r hx => by cases hx; exact ⟨h, h⟩⟩

theorem frozen_run {w : String} {row : WorkflowRow} (hrow : row.state ∈ terminalStates)
    (h : m.db.getWorkflow w = some row) (ts : List (Prog.Try LifecycleCall Oracle)) :
    (lifecycleAfter m ts).db.getWorkflow w = some row :=
  Prog.afterAll_keep (I := RowIs w row)
    (fun (t : Prog.Try LifecycleCall Oracle) _ _ hw =>
      (Prog.meets_attempt (call_frozen hrow hw t.task) t.steps t.oracles).1) h

/-- A step of a disconnect or of a recovery does not write completed. -/
theorem disconnects_only {c : LifecycleCall} (h : c.disconnects = true) :
    c.code.Only (WritesOnly fun _ state => state ≠ 4) := by
  cases c with
  | transitionOnDisconnect w next reason =>
      refine Prog.Only.bind (transitionOnDisconnect_only reason fun hne _ => ?_) fun _ => trivial
      cases next <;> first | decide | exact absurd rfl hne
  | project w => exact ((project_only w).mono fun _ hc => hc.writes).bind fun _ => trivial
  | reconcile w => exact (reconcile_only (by decide)).bind fun _ => trivial
  | _ => cases h

/-- A workflow that ends, and a recovery that comes later. -/
def sampleLifecycle : List (Prog.Try LifecycleCall Oracle) :=
  [⟨.create "v" .claude "t" none, 9, fun _ => {}⟩,
    ⟨.transition "w" .completed "done", 9, fun _ => {}⟩,
    ⟨.transition "w" .running "again", 9, fun _ => {}⟩,
    ⟨.restart, 2, fun _ => {}⟩,
    ⟨.project "v", 9, fun _ => {}⟩,
    ⟨.reconcile "v", 20, fun _ => {}⟩]

end Law

end Calcar.Agent
