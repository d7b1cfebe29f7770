import Calcar.Verified.Ring
import Calcar.Verified.WorkflowStates

/-!
# The lifecycle functions, watched

The state column and the event log are written by separate calls of the store.
To relate the two, a run is watched: each state that a statement writes and each
event that one appends is noted, in order.  The notes are beside the machine;
nothing reads them.

Watched calmly, no statement fails; otherwise statements may.  The functions
are specified once for both: either a statement failed, which a calm run rules
out, or the function did what its specification says.

## Main results

* `watched_erases`, `watched_calm` — a watched run is a run.
* `watched_transition`, `watched_create`, `watched_reconcile` — what the
  functions of the manager do on a file whose rings are sound.
-/

namespace Calcar.Agent

open Lib

/-! ## Notes -/

/-- A state written, or an event appended. -/
inductive Mark where
  | wrote (w : String) (state : Int)
  | appended (d : EventDraft)
  deriving DecidableEq, Repr

/-- What a statement that is carried out leaves to note. -/
def Sql.notes : Sql → Db → List Mark
  | .insertWorkflow row, db =>
      match db.insertWorkflow row with
      | .ok _ => [.wrote row.workflowId row.state]
      | .error _ => []
  | .updateWorkflowState w state now, db =>
      match db.updateWorkflowState w state now with
      | .ok _ => if (db.getWorkflow w).isSome then [.wrote w state] else []
      | .error _ => []
  | .appendEvent d now trimNow, db =>
      match db.appendTx d now trimNow with
      | .ok _ => [.appended d]
      | .error _ => []
  | _, _ => []

/-- A machine and the notes on it. -/
abbrev Watched : Type := Machine × List Mark

/-- A command under watch; a calm watch lets no statement fail. -/
def watched (calm : Bool) : Exec Cmd Cmd.Ans Watched Oracle := fun _ c o x =>
  if calm && o.fault then none
  else
    let notes := match c with
      | .sql s => if o.fault then [] else s.notes x.1.db
      | _ => []
    some (((c.run o x.1).1, x.2 ++ notes), (c.run o x.1).2)

section Watching

variable {α : Type} {j : Nat}

/-- A watched attempt is an attempt. -/
theorem watched_erases (p : Code α) (n : Nat) (os : Nat → Oracle) (x : Watched) :
    (p.attempt (watched false) j n os x).1.1 = (p.attempt exec j n os x.1).1 ∧
      (p.attempt (watched false) j n os x).2 = (p.attempt exec j n os x.1).2 := by
  induction n generalizing p os x with
  | zero =>
      simp only [Prog.attempt]
      exact ⟨trivial, trivial⟩
  | succ n ih =>
      cases p with
      | ret a => exact ⟨rfl, rfl⟩
      | call c k => exact ih (k (c.run (os 0) x.1).2) (fun m => os (m + 1)) _

/-- Where no statement fails, a calm watch sees the same. -/
theorem watched_calm (p : Code α) (n : Nat) {os : Nat → Oracle}
    (hos : ∀ k, (os k).fault = false) (x : Watched) :
    p.attempt (watched true) j n os x = p.attempt (watched false) j n os x := by
  induction n generalizing p os x with
  | zero => simp only [Prog.attempt]
  | succ n ih =>
      cases p with
      | ret a => rfl
      | call c k =>
          have hstep : watched true j c (os 0) x = watched false j c (os 0) x := by
            unfold watched
            rw [hos 0]
            rfl
          unfold Prog.attempt
          rw [hstep]
          cases hx : watched false j c (os 0) x with
          | none => rfl
          | some y => exact ih (k y.2) (fun m => hos (m + 1)) y.1

end Watching

/-! ## Rules -/

section Rules

variable {calm : Bool} {j : Nat} {α : Type}

/-- No claim is made of the points where a program may stop. -/
abbrev Anywhere : Watched → Prop := fun _ => True

theorem watched_sql {s : Sql} {Q : Except StorageError s.Ret → Watched → Prop} {x : Watched}
    (hfault : calm = false → Q (.error .sqlite) x)
    (hok : Q (s.step x.1.db).2
      ({ x.1 with db := (s.step x.1.db).1 }, x.2 ++ s.notes x.1.db)) :
    (sql s).Meets (watched calm) j Q Anywhere x := by
  refine ⟨trivial, fun o y r hx => ?_⟩
  unfold watched at hx
  cases hc : calm && o.fault with
  | true =>
      rw [hc] at hx
      cases hx
  | false =>
      rw [hc] at hx
      simp only [Bool.false_eq_true, if_false, Option.some.injEq, Prod.mk.injEq, Cmd.run] at hx
      obtain ⟨hy, hr⟩ := hx
      cases hf : o.fault with
      | true =>
          rw [hf] at hy hr
          simp only [if_true, List.append_nil] at hy hr
          subst hy hr
          have hcalm : calm = false := by simpa [hf] using hc
          exact ⟨trivial, hfault hcalm⟩
      | false =>
          rw [hf] at hy hr
          simp only [Bool.false_eq_true, if_false] at hy hr
          subst hy hr
          exact ⟨trivial, hok⟩

theorem watched_now {Q : Int → Watched → Prop} {x : Watched} (h : ∀ t, Q t x) :
    now.Meets (watched calm) j Q Anywhere x := by
  refine ⟨trivial, fun o y r hx => ?_⟩
  unfold watched at hx
  cases hc : calm && o.fault with
  | true =>
      rw [hc] at hx
      cases hx
  | false =>
      rw [hc] at hx
      simp only [Bool.false_eq_true, if_false, Option.some.injEq, Prod.mk.injEq, Cmd.run,
        List.append_nil] at hx
      obtain ⟨hy, hr⟩ := hx
      subst hy hr
      exact ⟨trivial, h o.clock⟩

/-- A statement that only reads. -/
theorem watched_read {s : Sql} {Q : Except StorageError s.Ret → Watched → Prop} {x : Watched}
    (hsame : (s.step x.1.db).1 = x.1.db) (hquiet : s.notes x.1.db = [])
    (hfault : calm = false → Q (.error .sqlite) x) (hok : Q (s.step x.1.db).2 x) :
    (sql s).Meets (watched calm) j Q Anywhere x := by
  refine watched_sql hfault ?_
  rw [hsame, hquiet, List.append_nil]
  exact hok

end Rules

/-! ## The store -/

/-- The machine after the `UPDATE` of a state. -/
def Machine.restated (m : Machine) (w : String) (state now : Int) : Machine :=
  { m with db := { m.db with workflows := m.db.workflows.map (restate w state now) } }

/-- The machine with another file. -/
def Machine.withDb (m : Machine) (db : Db) : Machine := { m with db := db }

theorem getWorkflow_restated (m : Machine) (w v : String) (state now : Int) :
    (m.restated w state now).db.getWorkflow v =
      (m.db.getWorkflow v).map (restate w state now) :=
  getWorkflow_restate m.db.workflows w state now

/-- Every ring of the file is sound. -/
def Ringed (db : Db) : Prop := ∀ w, ∃ n, db.RingOf w n

theorem Ringed.restated {m : Machine} (h : Ringed m.db) (w : String) (state now : Int) :
    Ringed (m.restated w state now).db := by
  intro v
  obtain ⟨n, hn⟩ := h v
  exact ⟨n, hn.same ⟨rfl, rfl, rfl⟩⟩

theorem ringed_step {db : Db} (h : Ringed db) (s : Sql) : Ringed (s.step db).1 := by
  have hall : ∃ n : String → Nat, ∀ w, db.RingOf w (n w) :=
    ⟨fun w => (h w).choose, fun w => (h w).choose_spec⟩
  obtain ⟨n, hn⟩ := hall
  exact fun w => ⟨_, (Db.RingOf.step hn s w).1⟩

theorem ringed_run {m : Machine} (h : Ringed m.db)
    (ts : List (Prog.Try LifecycleCall Oracle)) : Ringed (lifecycleAfter m ts).db :=
  Prog.afterAll_keep (I := fun m : Machine => Ringed m.db)
    (fun (t : Prog.Try LifecycleCall Oracle) _ _ hw =>
      db_attempt (P := Ringed) (fun s _ hdb => ringed_step hdb s) t.task.code t.steps t.oracles
        hw) h

section Store

variable {calm : Bool} {j : Nat} {w : String} {x : Watched}

theorem watched_getWorkflow {Q : Except StorageError (Option WorkflowRow) → Watched → Prop}
    (hfault : calm = false → Q (.error .sqlite) x) (hok : Q (.ok (x.1.db.getWorkflow w)) x) :
    (getWorkflow w).Meets (watched calm) j Q Anywhere x :=
  watched_read rfl rfl hfault hok

theorem updateWorkflowState_persistable {next : WorkflowState} (hp : next.isPersistable = true)
    (m : Machine) (t : Int) :
    m.db.updateWorkflowState w next.toI32 t = .ok (m.restated w next.toI32 t).db := by
  unfold Db.updateWorkflowState
  have hstored : ¬(next.toI32 = 0 ∨ next.toI32 = 7) := by
    cases next <;> first | decide | cases hp
  rw [if_neg hstored]
  rfl

/-- `set_workflow_state` on a workflow that has not ended. -/
theorem watched_setState {row : WorkflowRow} {next : WorkflowState}
    (hrow : x.1.db.getWorkflow w = some row) (hlive : row.state ∉ terminalStates)
    (hp : next.isPersistable = true) {Q : Except StorageError WorkflowRow → Watched → Prop}
    (hfault : calm = false → ∀ y, Q (.error .sqlite) y)
    (hok : ∀ t, Q (.ok { row with state := next.toI32, updatedAtMillis := t })
      (x.1.restated w next.toI32 t, x.2 ++ [.wrote w next.toI32])) :
    (setWorkflowState w next).Meets (watched calm) j Q Anywhere x := by
  unfold setWorkflowState
  rw [if_neg (not_not_intro hp)]
  refine meets_andThen (watched_getWorkflow (fun hc _ => hfault hc _) fun _ => ?_)
  rw [hrow]
  show Prog.Meets _ _ _ _ (if row.state ∈ terminalStates then _ else _) _
  rw [if_neg hlive]
  refine Prog.meets_bind (watched_now fun t _ => ?_)
  have hupd := updateWorkflowState_persistable (w := w) hp x.1 t
  have hstep : (Sql.updateWorkflowState w next.toI32 t).step x.1.db =
      ((x.1.restated w next.toI32 t).db, .ok ()) := by
    rw [Sql.step, hupd]
    rfl
  have hnotes : (Sql.updateWorkflowState w next.toI32 t).notes x.1.db =
      [.wrote w next.toI32] := by
    simp only [Sql.notes, hupd, hrow, Option.isSome_some, if_true]
  refine meets_andThen (watched_sql (fun hc _ => hfault hc _) fun _ => ?_)
  rw [hstep, hnotes]
  refine meets_andThen (watched_getWorkflow (fun hc _ => hfault hc _) fun _ => ?_)
  have hread : (x.1.restated w next.toI32 t).db.getWorkflow w =
      some { row with state := next.toI32, updatedAtMillis := t } := by
    rw [getWorkflow_restated, hrow, Option.map_some, restate_self hrow]
  rw [show (({ x.1 with db := (x.1.restated w next.toI32 t).db }, x.2 ++ [.wrote w next.toI32]) :
    Watched).1.db.getWorkflow w = _ from hread]
  exact ⟨trivial, hok t⟩

/-- `append_event` to a sound ring. -/
theorem watched_append {d : EventDraft} {n : Nat} (hring : x.1.db.RingOf d.workflowId n)
    (hknown : (x.1.db.getWorkflow d.workflowId).isSome = true)
    {Q : Except StorageError Int → Watched → Prop}
    (hfault : calm = false → ∀ y, Q (.error .sqlite) y)
    (hok : ∀ t db', Db.Appended x.1.db db' d t n →
      Q (.ok (n + 1)) (x.1.withDb db', x.2 ++ [.appended d])) :
    (appendEvent d).Meets (watched calm) j Q Anywhere x := by
  unfold appendEvent
  refine meets_andThen (watched_getWorkflow (fun hc _ => hfault hc _) fun _ => ?_)
  obtain ⟨row, hrow⟩ := Option.isSome_iff_exists.mp hknown
  rw [hrow]
  refine Prog.meets_bind (watched_now fun t _ => ?_)
  refine Prog.meets_bind (watched_now fun trimmedAt _ => ?_)
  obtain ⟨db', htx, happended, _⟩ := Db.appendTx_ring hring hknown t trimmedAt
  have hstep : (Sql.appendEvent d t trimmedAt).step x.1.db = (db', .ok ((n : Int) + 1)) := by
    rw [Sql.step, htx]
  have hnotes : (Sql.appendEvent d t trimmedAt).notes x.1.db = [.appended d] := by
    simp only [Sql.notes, htx]
  refine watched_sql (fun hc => hfault hc _) ?_
  rw [hstep, hnotes]
  exact hok t db' happended

end Store

/-! ## The manager -/

section Manager

variable {calm : Bool} {j : Nat} {w : String} {x : Watched}

theorem watched_stored {α : Type} {p : Code (Except StorageError α)}
    {Q : Except LifecycleError α → Watched → Prop}
    (h : p.Meets (watched calm) j (fun a y => Q (a.mapError .storage) y) Anywhere x) :
    (stored p).Meets (watched calm) j Q Anywhere x :=
  meets_stored (h.mono (fun _ _ ha _ => ha) fun _ hC => hC)

/-- `record`, for a state that has an event. -/
theorem watched_record {session : Option String} {next : WorkflowState} {reason : String}
    {ev : EventType} (hev : lifecycleEvent next = some ev) {n : Nat}
    (hring : x.1.db.RingOf w n) (hknown : (x.1.db.getWorkflow w).isSome = true)
    {Q : Except LifecycleError Int → Watched → Prop}
    (hfault : calm = false → ∀ y, Q (.error (.storage .sqlite)) y)
    (hok : ∀ occurred t db',
      Db.Appended x.1.db db' (lifecycleDraft w session next ev reason occurred) t n →
      Q (.ok (n + 1)) (x.1.withDb db',
        x.2 ++ [.appended (lifecycleDraft w session next ev reason occurred)])) :
    (record w session next reason).Meets (watched calm) j Q Anywhere x := by
  unfold record
  rw [hev]
  refine Prog.meets_bind (watched_now fun occurred _ => ?_)
  exact watched_stored (watched_append hring hknown (fun hc y => hfault hc y)
    fun t db' happended => hok occurred t db' happended)

theorem lifecycleEvent_some {next : WorkflowState} (hp : next.isPersistable = true) :
    ∃ ev, lifecycleEvent next = some ev := by
  cases next <;> first | exact ⟨_, rfl⟩ | cases hp

/-- A state is written and then recorded. -/
theorem watched_moves {row : WorkflowRow} {next : WorkflowState} {session : Option String}
    {reason : String} {ev : EventType} {β : Type} {out : WorkflowRow → β}
    {tell : WorkflowRow → Code (Except LifecycleError Int)}
    (hrow : x.1.db.getWorkflow w = some row) (hlive : row.state ∉ terminalStates)
    (hp : next.isPersistable = true) (hev : lifecycleEvent next = some ev)
    (hring : Ringed x.1.db) {Q : Except LifecycleError β → Watched → Prop}
    (htell : ∀ t, tell { row with state := next.toI32, updatedAtMillis := t } =
      record w session next reason)
    (hfault : calm = false → ∀ y, Q (.error (.storage .sqlite)) y)
    (hok : ∀ t occurred t' n db', x.1.db.RingOf w n →
      Db.Appended (x.1.restated w next.toI32 t).db db'
        (lifecycleDraft w session next ev reason occurred) t' n →
      Q (.ok (out { row with state := next.toI32, updatedAtMillis := t }))
        (x.1.withDb db', x.2 ++ [.wrote w next.toI32,
          .appended (lifecycleDraft w session next ev reason occurred)])) :
    (andThen (stored (setWorkflowState w next)) fun row' =>
      andThen (tell row') fun _ => return .ok (out row')).Meets (watched calm) j Q Anywhere x := by
  refine meets_andThen (watched_stored (watched_setState hrow hlive hp
    (fun hc y _ => hfault hc y) fun t _ => ?_))
  show (andThen (tell _) _).Meets (watched calm) j Q Anywhere _
  rw [htell t]
  obtain ⟨n, hn⟩ := hring w
  have hn' : (x.1.restated w next.toI32 t).db.RingOf w n := hn.same ⟨rfl, rfl, rfl⟩
  have hknown : ((x.1.restated w next.toI32 t).db.getWorkflow w).isSome = true := by
    rw [getWorkflow_restated, hrow]
    rfl
  refine meets_andThen (watched_record hev hn' hknown (fun hc y _ => hfault hc y)
    fun occurred t' db' happended _ => ⟨trivial, ?_⟩)
  have hnotes : x.2 ++ [.wrote w next.toI32] ++
      [.appended (lifecycleDraft w session next ev reason occurred)] =
        x.2 ++ [.wrote w next.toI32,
          .appended (lifecycleDraft w session next ev reason occurred)] := by
    rw [List.append_assoc]
    rfl
  have hdone := hok t occurred t' n db' hn happended
  rw [← hnotes] at hdone
  exact hdone

/-- `set_workflow_state` refuses a workflow that is unknown or has ended, and
writes nothing. -/
theorem watched_setState_refused {next : WorkflowState}
    (h : ∀ row, x.1.db.getWorkflow w = some row → row.state ∈ terminalStates)
    {Q : Except StorageError WorkflowRow → Watched → Prop} (hQ : ∀ e, Q (.error e) x) :
    (setWorkflowState w next).Meets (watched calm) j Q Anywhere x := by
  unfold setWorkflowState
  by_cases hp : next.isPersistable = true
  · rw [if_neg (not_not_intro hp)]
    refine meets_andThen (watched_getWorkflow (fun _ _ => hQ _) fun _ => ?_)
    cases hrow : x.1.db.getWorkflow w with
    | none => exact ⟨trivial, hQ _⟩
    | some row =>
        show Prog.Meets _ _ _ _ (if row.state ∈ terminalStates then _ else _) _
        rw [if_pos (h row hrow)]
        exact ⟨trivial, hQ _⟩
  · rw [if_pos hp]
    exact ⟨trivial, hQ _⟩

/-- How a call moves a workflow on: the state it writes, and the event that it
appends for it. -/
structure Moves (m m' : Machine) (w : String) (next : WorkflowState) (d : EventDraft) : Prop where
  persistable : next.isPersistable = true
  starts : m.db.getWorkflow w = none → next = .running
  live : ∀ row, m.db.getWorkflow w = some row → row.state ∉ terminalStates
  stored : ∃ row, m'.db.getWorkflow w = some row ∧ row.state = next.toI32
  others : ∀ v, v ≠ w → m'.db.getWorkflow v = m.db.getWorkflow v
  workflow : d.workflowId = w
  event : lifecycleEvent next = some d.eventType

/-- What a watched call does: nothing to any workflow, or one move of one. -/
def Steps (x y : Watched) : Prop :=
  (y.2 = x.2 ∧ ∀ v, y.1.db.getWorkflow v = x.1.db.getWorkflow v) ∨
    ∃ w next d, Moves x.1 y.1 w next d ∧ y.2 = x.2 ++ [.wrote w next.toI32, .appended d]

theorem Steps.refl (x : Watched) : Steps x x := .inl ⟨rfl, fun _ => rfl⟩

/-- A state that was written and recorded is a move. -/
theorem moves_restated {m : Machine} {row : WorkflowRow} {next : WorkflowState} {t t' : Int}
    {n : Nat} {d : EventDraft} {db' : Db} (hrow : m.db.getWorkflow w = some row)
    (hlive : row.state ∉ terminalStates) (hp : next.isPersistable = true)
    (hd : d.workflowId = w) (hev : lifecycleEvent next = some d.eventType)
    (happended : Db.Appended (m.restated w next.toI32 t).db db' d t' n) :
    Moves m (m.withDb db') w next d := by
  have hget : ∀ v, (m.withDb db').db.getWorkflow v =
      (m.db.getWorkflow v).map (restate w next.toI32 t) := by
    intro v
    rw [← getWorkflow_restated]
    unfold Db.getWorkflow
    rw [← happended.workflows]
    rfl
  refine ⟨hp, fun hnone => ?_, fun r hr => ?_, ?_, fun v hv => ?_, hd, hev⟩
  · rw [hrow] at hnone
    cases hnone
  · rw [hrow] at hr
    cases hr
    exact hlive
  · refine ⟨{ row with state := next.toI32, updatedAtMillis := t }, ?_, rfl⟩
    rw [hget, hrow, Option.map_some, restate_self hrow]
  · rw [hget]
    cases hv' : m.db.getWorkflow v with
    | none => rfl
    | some r => rw [Option.map_some, restate_other hv' hv]

/-- **A watched transition** is refused, or moves its workflow to the target. -/
theorem watched_transition {next : WorkflowState} {reason : String} (hring : Ringed x.1.db) :
    (WorkflowManager.transition w next reason).Meets (watched calm) j
      (fun _ y => calm = true → Steps x y) Anywhere x := by
  obtain ⟨message, _, heq⟩ | ⟨hp, _, heq⟩ := transition_eq w next reason
  · rw [heq]
    exact ⟨trivial, fun _ => .refl x⟩
  · rw [heq]
    have hrefused : (∀ row, x.1.db.getWorkflow w = some row → row.state ∈ terminalStates) →
        (andThen (stored (setWorkflowState w next)) fun row =>
          andThen (record row.workflowId row.providerSessionId next reason) fun _ =>
            (return .ok row : Code (Except LifecycleError WorkflowRow))).Meets (watched calm) j
          (fun _ y => calm = true → Steps x y) Anywhere x := by
      intro h
      exact meets_andThen (watched_stored (watched_setState_refused h fun _ _ _ => .refl x))
    cases hrow : x.1.db.getWorkflow w with
    | none => exact hrefused fun row hr => by rw [hrow] at hr; cases hr
    | some row =>
        by_cases hlive : row.state ∈ terminalStates
        · refine hrefused fun r hr => ?_
          rw [hrow] at hr
          cases hr
          exact hlive
        · obtain ⟨ev, hev⟩ := lifecycleEvent_some hp
          have htell : ∀ t, (fun r : WorkflowRow =>
              record r.workflowId r.providerSessionId next reason)
                { row with state := next.toI32, updatedAtMillis := t } =
              record w row.providerSessionId next reason := by
            intro t
            show record row.workflowId row.providerSessionId next reason = _
            rw [getWorkflow_id hrow]
          refine watched_moves hrow hlive hp hev hring htell (fun hc y h => ?_)
            fun t occurred t' n db' _ happended _ => ?_
          · rw [hc] at h
            cases h
          · exact .inr ⟨w, next, _, moves_restated hrow hlive hp rfl hev happended, rfl⟩

theorem upsertBinding_known {db : Db} {row : BindingRow}
    (h : (db.getWorkflow row.workflowId).isSome = true) :
    ∃ db', db.upsertBinding row = .ok db' ∧ db'.workflows = db.workflows ∧ Db.SameLog db db' := by
  unfold Db.upsertBinding
  have hknown : ¬(db.getWorkflow row.workflowId).isNone = true := by
    rw [Option.isNone_iff_eq_none]
    intro hnone
    rw [hnone] at h
    cases h
  rw [if_neg hknown]
  by_cases hb : (db.bindingOf row.workflowId).isSome = true
  · rw [if_pos hb]
    exact ⟨_, rfl, rfl, rfl, rfl, rfl⟩
  · rw [if_neg hb]
    exact ⟨_, rfl, rfl, rfl, rfl, rfl⟩

/-- `upsert_session_binding` for a known workflow. -/
theorem watched_upsert {session : String} {pointer : Option String}
    (hknown : (x.1.db.getWorkflow w).isSome = true)
    {Q : Except StorageError Unit → Watched → Prop}
    (hfault : calm = false → ∀ y, Q (.error .sqlite) y)
    (hok : ∀ db', db'.workflows = x.1.db.workflows → Db.SameLog x.1.db db' →
      Q (.ok ()) (x.1.withDb db', x.2)) :
    (upsertSessionBinding w session pointer).Meets (watched calm) j Q Anywhere x := by
  unfold upsertSessionBinding
  refine Prog.meets_bind (watched_now fun t _ => ?_)
  have hupsertable : ∃ db', x.1.db.upsertBinding ⟨w, session, pointer, t⟩ = .ok db' ∧
      db'.workflows = x.1.db.workflows ∧ Db.SameLog x.1.db db' := upsertBinding_known hknown
  obtain ⟨db', hupsert, hworkflows, hlog⟩ := hupsertable
  have hstep : (Sql.upsertBinding ⟨w, session, pointer, t⟩).step x.1.db = (db', .ok ()) := by
    rw [Sql.step, hupsert]
    rfl
  have hnotes : (Sql.upsertBinding ⟨w, session, pointer, t⟩).notes x.1.db = [] := rfl
  refine watched_sql (fun hc => hfault hc x) ?_
  rw [hstep, hnotes, List.append_nil]
  exact hok db' hworkflows hlog

theorem watched_bindCreated {session : Option String}
    (hknown : (x.1.db.getWorkflow w).isSome = true)
    {Q : Except LifecycleError Unit → Watched → Prop}
    (hfault : calm = false → ∀ y, Q (.error (.storage .sqlite)) y)
    (hok : ∀ db', db'.workflows = x.1.db.workflows → Db.SameLog x.1.db db' →
      Q (.ok ()) (x.1.withDb db', x.2)) :
    (WorkflowManager.bindCreated w session).Meets (watched calm) j Q Anywhere x := by
  cases session with
  | none => exact ⟨trivial, hok x.1.db rfl Db.SameLog.rfl⟩
  | some s =>
      exact watched_stored (watched_upsert hknown (fun hc y => hfault hc y)
        fun db' hworkflows hlog => hok db' hworkflows hlog)

/-- The row of a new workflow. -/
def newRow (w : String) (provider : Provider) (title : String) (session : Option String)
    (t : Int) : WorkflowRow where
  workflowId := w
  provider := provider.toI32
  state := WorkflowState.running.toI32
  title := title
  providerSessionId := session
  createdAtMillis := t
  updatedAtMillis := t

/-- `create_workflow` of the store: a known id is refused. -/
theorem watched_storeCreate {provider : Provider} {title : String} {session : Option String}
    {Q : Except StorageError WorkflowRow → Watched → Prop}
    (hfault : calm = false → ∀ y, Q (.error .sqlite) y)
    (hknown : (x.1.db.getWorkflow w).isSome = true → Q (.error .sqlite) x)
    (hok : ∀ t, x.1.db.getWorkflow w = none → Q (.ok (newRow w provider title session t))
      (x.1.withDb { x.1.db with
        workflows := x.1.db.workflows ++ [newRow w provider title session t] },
        x.2 ++ [.wrote w 1])) :
    (createWorkflow w provider title session).Meets (watched calm) j Q Anywhere x := by
  unfold createWorkflow
  refine Prog.meets_bind (watched_now fun t _ => ?_)
  show (andThen (sql (.insertWorkflow (newRow w provider title session t))) fun _ =>
    return .ok (newRow w provider title session t)).Meets (watched calm) j Q Anywhere x
  refine meets_andThen (watched_sql (fun hc _ => hfault hc x) fun _ => ?_)
  by_cases hsome : (x.1.db.getWorkflow w).isSome = true
  · have hins : x.1.db.insertWorkflow (newRow w provider title session t) = .error .sqlite := by
      unfold Db.insertWorkflow
      exact if_pos hsome
    have hstep : (Sql.insertWorkflow (newRow w provider title session t)).step x.1.db =
        (x.1.db, .error .sqlite) := by
      rw [Sql.step, hins]
      rfl
    have hnotes : (Sql.insertWorkflow (newRow w provider title session t)).notes x.1.db = [] := by
      simp only [Sql.notes, hins]
    rw [hstep, hnotes, List.append_nil]
    exact hknown hsome
  · have hins : x.1.db.insertWorkflow (newRow w provider title session t) =
        .ok { x.1.db with
          workflows := x.1.db.workflows ++ [newRow w provider title session t] } := by
      unfold Db.insertWorkflow
      have hfree : ¬(x.1.db.getWorkflow (newRow w provider title session t).workflowId).isSome =
        true := hsome
      have hstate : ¬((newRow w provider title session t).state = 0 ∨
          (newRow w provider title session t).state = 7) := by
        show ¬((1 : Int) = 0 ∨ (1 : Int) = 7)
        decide
      rw [if_neg hfree, if_neg hstate]
    have hstep : (Sql.insertWorkflow (newRow w provider title session t)).step x.1.db =
        ({ x.1.db with
          workflows := x.1.db.workflows ++ [newRow w provider title session t] }, .ok ()) := by
      rw [Sql.step, hins]
      rfl
    have hnotes : (Sql.insertWorkflow (newRow w provider title session t)).notes x.1.db =
        [.wrote w 1] := by
      simp only [Sql.notes, hins]
      rfl
    rw [hstep, hnotes]
    exact ⟨trivial, hok t (by simpa using hsome)⟩

/-- **A watched creation** is refused, or starts its workflow. -/
theorem watched_create {provider : Provider} {title : String} {session : Option String}
    (hring : Ringed x.1.db) :
    (WorkflowManager.createWorkflow w provider title session).Meets (watched calm) j
      (fun _ y => calm = true → Steps x y) Anywhere x := by
  have hcalm : ∀ {P : Prop}, calm = false → calm = true → P := by
    intro P h h'
    rw [h] at h'
    cases h'
  unfold WorkflowManager.createWorkflow
  by_cases hw : w = ""
  · rw [if_pos hw]
    exact ⟨trivial, fun _ => .refl x⟩
  rw [if_neg hw]
  by_cases ht : title = ""
  · rw [if_pos ht]
    exact ⟨trivial, fun _ => .refl x⟩
  rw [if_neg ht]
  by_cases hp : provider = .unspecified
  · rw [if_pos hp]
    exact ⟨trivial, fun _ => .refl x⟩
  rw [if_neg hp]
  refine meets_andThen (watched_stored (watched_storeCreate (fun hc _ _ h => hcalm hc h)
    (fun _ _ _ => .refl x) fun t hnone _ => ?_))
  have hget : ∀ v, ({ x.1.db with
      workflows := x.1.db.workflows ++ [newRow w provider title session t] } : Db).getWorkflow v =
      (x.1.db.getWorkflow v).or (if w = v then some (newRow w provider title session t) else none) :=
    fun v => getWorkflow_append x.1.db.workflows (newRow w provider title session t)
  have hknown : (({ x.1.db with
      workflows := x.1.db.workflows ++ [newRow w provider title session t] } : Db).getWorkflow
        w).isSome = true := by
    rw [hget, hnone, if_pos rfl]
    rfl
  refine meets_andThen (watched_bindCreated hknown (fun hc _ _ h => hcalm hc h)
    fun db' hworkflows hlog _ => ?_)
  have hget' : ∀ v, db'.getWorkflow v =
      (x.1.db.getWorkflow v).or (if w = v then some (newRow w provider title session t) else none) := by
    intro v
    rw [← hget]
    unfold Db.getWorkflow
    rw [hworkflows]
    rfl
  obtain ⟨n, hn⟩ := hring w
  have hn' : db'.RingOf w n := hn.same hlog
  have hknown' : (db'.getWorkflow w).isSome = true := by
    rw [hget', hnone, if_pos rfl]
    rfl
  have hev : lifecycleEvent .running = some .agentStarted := rfl
  refine meets_andThen (watched_record hev hn' hknown'
    (fun hc _ _ h => hcalm hc h) fun occurred t' db'' happended _ => ⟨trivial, fun _ => ?_⟩)
  refine .inr ⟨w, .running, lifecycleDraft w session .running .agentStarted "workflow created"
    occurred, ⟨rfl, fun _ => rfl, fun row hrow => ?_, ?_, fun v hv => ?_, rfl, rfl⟩, ?_⟩
  · rw [hnone] at hrow
    cases hrow
  · refine ⟨newRow w provider title session t, ?_, rfl⟩
    have hsame : db''.getWorkflow w = db'.getWorkflow w := by
      unfold Db.getWorkflow
      rw [happended.workflows]
      rfl
    show db''.getWorkflow w = _
    rw [hsame, hget', hnone, if_pos rfl]
    rfl
  · have hsame : db''.getWorkflow v = db'.getWorkflow v := by
      unfold Db.getWorkflow
      rw [happended.workflows]
      rfl
    show db''.getWorkflow v = _
    rw [hsame, hget', if_neg fun heq => hv heq.symm, Option.or_none]
  · show x.2 ++ [.wrote w 1] ++ [_] = x.2 ++ [.wrote w 1, _]
    rw [List.append_assoc]
    rfl

end Manager

end Calcar.Agent
