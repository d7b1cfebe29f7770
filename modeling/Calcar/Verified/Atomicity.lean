import Calcar.Verified.LifecycleLog

/-!
# Errors of the lifecycle

A function of the manager commits its statements one by one, the state first and
the event that says why last.  When a call of the store fails, what was committed
before it stays.  So an error leaves the workflow as it was exactly if the call
that failed does not come after the one that wrote the state.

The commands of a function are numbered from zero, the readings of the clock
among them; `LateFailure` names the numbers that come after the write.

## Main results

* `run_moves` — the ends of a function that writes a state and records it.
* `lifecycle_errors_atomic_iff` — when an error leaves the workflow as it was.
* `failed_append_keeps_state` — a state change without its why.
-/

namespace Calcar.Agent

open Lib

/-! ## The operations -/

/-- The functions of the manager that write. -/
inductive LifecycleOp where
  | create (w : String) (provider : Provider) (title : String) (session : Option String)
  | transition (w : String) (next : WorkflowState) (reason : String)
  | reconcile (w : String)

/-- The workflow that an operation is about. -/
def LifecycleOp.workflow : LifecycleOp → String
  | .create w _ _ _ => w
  | .transition w _ _ => w
  | .reconcile w => w

/-- The program of an operation, its value left aside. -/
def LifecycleOp.code : LifecycleOp → Code (Except LifecycleError Unit)
  | .create w provider title session => do
      return (← WorkflowManager.createWorkflow w provider title session).map fun _ => ()
  | .transition w next reason => do
      return (← WorkflowManager.transition w next reason).map fun _ => ()
  | .reconcile w => do
      return (← WorkflowManager.reconcile w).map fun _ => ()

/-- The stored state, the binding and the event log of a workflow are as they
were. -/
structure Unchanged (w : String) (m m' : Machine) : Prop where
  state : (m'.db.getWorkflow w).map WorkflowRow.state =
    (m.db.getWorkflow w).map WorkflowRow.state
  binding : m'.db.bindingOf w = m.db.bindingOf w
  events : m'.db.eventsOf w = m.db.eventsOf w

/-- An operation that returns an error has left its workflow as it was. -/
def Atomic (op : LifecycleOp) (m : Machine) (o : Nat → Oracle) : Prop :=
  ∀ e m' n, op.code.runFrom exec 0 o 0 m = some (.error e, m', n) →
    Unchanged op.workflow m m'

/-- The operation writes a new state, and a call of the store fails after that
write and none before it.  `f n` says that command `n` fails. -/
def LateFailure : LifecycleOp → Db → (Nat → Bool) → Prop
  | .create w provider title session, db, f =>
      (w ≠ "" ∧ title ≠ "" ∧ provider ≠ .unspecified ∧ db.getWorkflow w = none) ∧
        f 1 = false ∧
        if session.isSome then f 3 = true ∨ f 5 = true ∨ f 8 = true
        else f 3 = true ∨ f 6 = true
  | .transition w next reason, db, f =>
      (next.isPersistable = true ∧ reason ≠ "" ∧
        ∃ row, db.getWorkflow w = some row ∧ row.state ∉ terminalStates ∧
          row.state ≠ next.toI32) ∧
        (f 0 = false ∧ f 2 = false) ∧ (f 3 = true ∨ f 5 = true ∨ f 8 = true)
  | .reconcile w, db, f =>
      ((∃ row, db.getWorkflow w = some row ∧ row.state ∉ terminalStates) ∧
        db.bindingOf w = none) ∧
        ((f 0 = false ∧ f 1 = false ∧ f 2 = false) ∧ f 3 = false ∧ f 5 = false) ∧
        (f 6 = true ∨ f 8 = true ∨ f 11 = true)

/-! ## Runs of the store's functions -/

section Store

variable {o : Nat → Oracle} {n : Nat} {m m' : Machine} {w : String} {α β ε : Type} {k : Nat}

theorem run_fault {s : Sql} (hf : (o n).fault = true) :
    (sql s).runFrom exec 0 o n m = some (.error .sqlite, m, n + 1) := by
  have hrun : (Cmd.sql s).run (o n) m = (m, .error .sqlite) := by
    rw [Cmd.run]
    exact if_pos hf
  show some (((Cmd.sql s).run (o n) m).2, ((Cmd.sql s).run (o n) m).1, n + 1) = _
  rw [hrun]

theorem run_sql {s : Sql} (hf : (o n).fault = false) :
    (sql s).runFrom exec 0 o n m =
      some ((s.step m.db).2, m.withDb (s.step m.db).1, n + 1) := by
  have hno : ¬(o n).fault = true := by
    rw [hf]
    decide
  have hrun : (Cmd.sql s).run (o n) m = (m.withDb (s.step m.db).1, (s.step m.db).2) := by
    rw [Cmd.run]
    exact if_neg hno
  show some (((Cmd.sql s).run (o n) m).2, ((Cmd.sql s).run (o n) m).1, n + 1) = _
  rw [hrun]

theorem run_now : now.runFrom exec 0 o n m = some ((o n).clock, m, n + 1) := rfl

theorem run_andThen_error {p : Code (Except ε α)} {f : α → Code (Except ε β)} {e : ε}
    (h : p.runFrom exec 0 o n m = some (.error e, m', k)) :
    (andThen p f).runFrom exec 0 o n m = some (.error e, m', k) := by
  unfold andThen
  rw [Prog.runFrom_bind, h]
  rfl

theorem run_andThen_ok {p : Code (Except ε α)} {f : α → Code (Except ε β)} {a : α}
    (h : p.runFrom exec 0 o n m = some (.ok a, m', k)) :
    (andThen p f).runFrom exec 0 o n m = (f a).runFrom exec 0 o k m' := by
  unfold andThen
  rw [Prog.runFrom_bind, h]
  rfl

theorem run_stored {p : Code (Except StorageError α)} {a : Except StorageError α}
    (h : p.runFrom exec 0 o n m = some (a, m', k)) :
    (stored p).runFrom exec 0 o n m = some (a.mapError .storage, m', k) := by
  unfold stored
  rw [Prog.runFrom_bind, h]
  rfl

/-- `set_workflow_state` on a live workflow: it fails before its write, after it,
or not at all. -/
theorem run_setState {row : WorkflowRow} {next : WorkflowState}
    (hrow : m.db.getWorkflow w = some row) (hlive : row.state ∉ terminalStates)
    (hp : next.isPersistable = true) :
    ((o n).fault = true ∨ (o (n + 2)).fault = true) ∧
        (∃ k, (setWorkflowState w next).runFrom exec 0 o n m =
          some (.error .sqlite, m, k)) ∨
      ((o n).fault = false ∧ (o (n + 2)).fault = false) ∧
        ((o (n + 3)).fault = true ∧
            (setWorkflowState w next).runFrom exec 0 o n m =
              some (.error .sqlite, m.restated w next.toI32 (o (n + 1)).clock, n + 4) ∨
          (o (n + 3)).fault = false ∧
            (setWorkflowState w next).runFrom exec 0 o n m =
              some (.ok { row with
                  state := next.toI32, updatedAtMillis := (o (n + 1)).clock },
                m.restated w next.toI32 (o (n + 1)).clock, n + 4)) := by
  unfold setWorkflowState getWorkflow
  rw [if_neg (not_not_intro hp)]
  cases h₀ : (o n).fault with
  | true => exact .inl ⟨.inl rfl, n + 1, run_andThen_error (run_fault h₀)⟩
  | false =>
      have hread : (sql (.selectWorkflow w)).runFrom exec 0 o n m = some (.ok (some row), m, n + 1) := by
        rw [run_sql h₀]
        exact congrArg (fun r => some (Except.ok r, m, n + 1)) hrow
      rw [run_andThen_ok hread]
      show _ ∧ (∃ k, (if row.state ∈ terminalStates then _ else _ : Code _).runFrom _ _ _ _ _ = _) ∨
        _ ∧ (_ ∧ (if row.state ∈ terminalStates then _ else _ : Code _).runFrom _ _ _ _ _ = _ ∨
          _ ∧ (if row.state ∈ terminalStates then _ else _ : Code _).runFrom _ _ _ _ _ = _)
      rw [if_neg hlive, Prog.runFrom_bind, run_now]
      have hupd := updateWorkflowState_persistable (w := w) hp m (o (n + 1)).clock
      cases h₂ : (o (n + 2)).fault with
      | true => exact .inl ⟨.inr rfl, n + 3, run_andThen_error (run_fault h₂)⟩
      | false =>
          have hwrite : (sql (.updateWorkflowState w next.toI32 (o (n + 1)).clock)).runFrom exec 0
              o (n + 2) m =
              some (.ok (), m.restated w next.toI32 (o (n + 1)).clock, n + 3) := by
            rw [run_sql h₂, Sql.step, hupd]
            rfl
          refine .inr ⟨⟨rfl, rfl⟩, ?_⟩
          simp only [Option.bind_some]
          rw [run_andThen_ok hwrite]
          cases h₃ : (o (n + 3)).fault with
          | true => exact .inl ⟨rfl, run_andThen_error (run_fault h₃)⟩
          | false =>
              have hback : (m.restated w next.toI32 (o (n + 1)).clock).db.getWorkflow w =
                  some { row with
                    state := next.toI32, updatedAtMillis := (o (n + 1)).clock } := by
                rw [getWorkflow_restated, hrow, Option.map_some, restate_self hrow]
              have hreread : (sql (.selectWorkflow w)).runFrom exec 0 o (n + 3)
                  (m.restated w next.toI32 (o (n + 1)).clock) =
                  some (.ok (some { row with
                    state := next.toI32, updatedAtMillis := (o (n + 1)).clock }),
                    m.restated w next.toI32 (o (n + 1)).clock, n + 4) := by
                rw [run_sql h₃]
                exact congrArg (fun r => some (Except.ok r,
                  m.restated w next.toI32 (o (n + 1)).clock, n + 4)) hback
              refine .inr ⟨rfl, ?_⟩
              rw [run_andThen_ok hreread]
              rfl

/-- `record` on a sound ring: an error leaves the machine as it was. -/
theorem run_record (session : Option String) {next : WorkflowState} (reason : String)
    {ev : EventType} (hev : lifecycleEvent next = some ev) (hring : Ringed m.db)
    (hknown : (m.db.getWorkflow w).isSome = true) :
    ((o (n + 1)).fault = true ∨ (o (n + 4)).fault = true) ∧
        (∃ k, (record w session next reason).runFrom exec 0 o n m =
          some (.error (.storage .sqlite), m, k)) ∨
      ((o (n + 1)).fault = false ∧ (o (n + 4)).fault = false) ∧
        ∃ a m' k, (record w session next reason).runFrom exec 0 o n m = some (.ok a, m', k) := by
  unfold record appendEvent getWorkflow
  rw [hev]
  simp only
  rw [Prog.runFrom_bind, run_now]
  simp only [Option.bind_some]
  cases h₁ : (o (n + 1)).fault with
  | true => exact .inl ⟨.inl rfl, n + 2, run_stored (run_andThen_error (run_fault h₁))⟩
  | false =>
      obtain ⟨row, hrow⟩ := Option.isSome_iff_exists.mp hknown
      obtain ⟨j, hj⟩ := hring w
      have hread : (sql (.selectWorkflow w)).runFrom exec 0 o (n + 1) m =
          some (.ok (some row), m, n + 2) := by
        rw [run_sql h₁]
        exact congrArg (fun r => some (Except.ok r, m, n + 2)) hrow
      obtain ⟨db', htx, _, _⟩ := Db.appendTx_ring
        (d := lifecycleDraft w session next ev reason (o n).clock) hj hknown
        (o (n + 2)).clock (o (n + 3)).clock
      cases h₄ : (o (n + 4)).fault with
      | true =>
          refine .inl ⟨.inr rfl, n + 5, ?_⟩
          exact run_stored (a := .error .sqlite) ((run_andThen_ok hread).trans (run_fault h₄))
      | false =>
          refine .inr ⟨⟨rfl, rfl⟩, (j : Int) + 1, m.withDb db', n + 5, ?_⟩
          have happend : (sql (.appendEvent (lifecycleDraft w session next ev reason (o n).clock)
              (o (n + 2)).clock (o (n + 3)).clock)).runFrom exec 0 o (n + 4) m =
              some (.ok ((j : Int) + 1), m.withDb db', n + 5) := by
            rw [run_sql h₄, Sql.step, htx]
          exact run_stored (a := .ok ((j : Int) + 1)) ((run_andThen_ok hread).trans happend)

end Store

/-! ## How an operation may end -/

/-- A complete run: its result, the machine it leaves, the number of the next
command. -/
abbrev Outcome (β : Type) : Type := Option (Except LifecycleError β × Machine × Nat)

/-- A function that writes fails early and has changed nothing, fails late and
leaves a machine that `moved` describes, or succeeds. -/
inductive Fate {β : Type} (early late : Prop) (m : Machine) (moved : Machine → Prop) :
    Outcome β → Prop where
  | early (h : early) (e : LifecycleError) (k : Nat) :
      Fate early late m moved (some (.error e, m, k))
  | late (h : ¬early) (h' : late) (e : LifecycleError) (m' : Machine) (k : Nat)
      (hm : moved m') : Fate early late m moved (some (.error e, m', k))
  | done (h : ¬early) (h' : ¬late) (a : β) (m' : Machine) (k : Nat) :
      Fate early late m moved (some (.ok a, m', k))

/-- An error leaves workflow `w` as it was. -/
def AtomicRun {β : Type} (w : String) (m : Machine) (r : Outcome β) : Prop :=
  ∀ e m' k, r = some (.error e, m', k) → Unchanged w m m'

theorem Unchanged.refl (w : String) (m : Machine) : Unchanged w m m := ⟨rfl, rfl, rfl⟩

section Fates

variable {β : Type} {early late : Prop} {m : Machine} {moved : Machine → Prop} {r : Outcome β}
  {w : String}

theorem Fate.atomic_iff (h : Fate early late m moved r)
    (hm : ∀ m', moved m' → ¬Unchanged w m m') : AtomicRun w m r ↔ ¬(¬early ∧ late) := by
  cases h with
  | early he e k =>
      refine ⟨fun _ hl => hl.1 he, fun _ e' m' k' heq => ?_⟩
      cases heq
      exact .refl w m
  | late he hl e m' k hmoved =>
      refine ⟨fun hatomic _ => hm m' hmoved (hatomic e m' k rfl), fun hno => ?_⟩
      exact absurd ⟨he, hl⟩ hno
  | done he hl a m' k =>
      refine ⟨fun _ h => hl h.2, fun _ e' m'' k' heq => ?_⟩
      cases heq

theorem Fate.atomic (h : Fate early late m moved r) (hm : ∀ m', moved m' → Unchanged w m m') :
    AtomicRun w m r := by
  cases h with
  | early he e k =>
      intro e' m' k' heq
      cases heq
      exact .refl w m
  | late he hl e m' k hmoved =>
      intro e' m'' k' heq
      cases heq
      exact hm m' hmoved
  | done he hl a m' k =>
      intro e' m'' k' heq
      cases heq

/-- A run that refuses changes nothing. -/
theorem atomic_refused {e : LifecycleError} {k : Nat} (h : r = some (.error e, m, k)) :
    AtomicRun w m r := by
  intro e' m' k' heq
  rw [h] at heq
  cases heq
  exact .refl w m

end Fates

theorem atomic_done {β : Type} {m m' : Machine} {r : Outcome β} {w : String} {a : β} {k : Nat}
    (h : r = some (.ok a, m', k)) : AtomicRun w m r := by
  intro e' m'' k' heq
  rw [h] at heq
  cases heq

section Moves

variable {o : Nat → Oracle} {n : Nat} {m m' : Machine} {w : String} {β : Type}

theorem Fate.after {early late late' : Prop} {moved : Machine → Prop} {r : Outcome β}
    (h : Fate False late' m' (fun m => m = m') r) (hearly : ¬early) (hmoved : moved m')
    (hlate : late' ↔ late) : Fate early late m moved r := by
  cases h with
  | early h e k => exact absurd h id
  | late _ h' e m'' k hm => exact .late hearly (hlate.mp h') e m'' k (hm ▸ hmoved)
  | done _ h' a m'' k => exact .done hearly (fun hl => h' (hlate.mpr hl)) a m'' k

/-- A function that ends by recording a state. -/
theorem run_recorded {session : Option String} {next : WorkflowState} {reason : String}
    {ev : EventType} (hev : lifecycleEvent next = some ev) (hring : Ringed m.db)
    (hknown : (m.db.getWorkflow w).isSome = true) (out : β) :
    Fate False ((o (n + 1)).fault = true ∨ (o (n + 4)).fault = true) m (fun m' => m' = m)
      ((andThen (record w session next reason) fun _ =>
        return .ok out).runFrom exec 0 o n m) := by
  obtain ⟨hf, k, hrun⟩ | ⟨⟨h₁, h₄⟩, a, m', k, hrun⟩ :=
    run_record (o := o) (n := n) session reason hev hring hknown
  · rw [run_andThen_error hrun]
    exact .late id hf _ m k rfl
  · rw [run_andThen_ok hrun]
    refine .done id ?_ out m' k
    rw [h₁, h₄]
    simp

/-- A state is written and then recorded. -/
theorem run_moves {row : WorkflowRow} {next : WorkflowState} {session : Option String}
    {reason : String} {ev : EventType} {out : WorkflowRow → β}
    {tell : WorkflowRow → Code (Except LifecycleError Int)}
    (hrow : m.db.getWorkflow w = some row) (hlive : row.state ∉ terminalStates)
    (hp : next.isPersistable = true) (hev : lifecycleEvent next = some ev)
    (hring : Ringed m.db)
    (htell : ∀ t, tell { row with state := next.toI32, updatedAtMillis := t } =
      record w session next reason) :
    Fate ((o n).fault = true ∨ (o (n + 2)).fault = true)
      ((o (n + 3)).fault = true ∨ (o (n + 5)).fault = true ∨ (o (n + 8)).fault = true) m
      (fun m' => ∃ t, m' = m.restated w next.toI32 t)
      ((andThen (stored (setWorkflowState w next)) fun row' =>
        andThen (tell row') fun _ => return .ok (out row')).runFrom exec 0 o n m) := by
  obtain ⟨hf, k, hrun⟩ | ⟨⟨h₀, h₂⟩, ⟨h₃, hrun⟩ | ⟨h₃, hrun⟩⟩ :=
    run_setState (o := o) (n := n) hrow hlive hp
  · rw [run_andThen_error (run_stored hrun)]
    exact .early hf _ k
  · rw [run_andThen_error (run_stored hrun)]
    refine .late ?_ (.inl h₃) _ _ _ ⟨_, rfl⟩
    rw [h₀, h₂]
    simp
  · rw [run_andThen_ok (run_stored hrun)]
    have hknown : ((m.restated w next.toI32 (o (n + 1)).clock).db.getWorkflow w).isSome = true := by
      rw [getWorkflow_restated, hrow]
      rfl
    rw [htell]
    have hearly : ¬((o n).fault = true ∨ (o (n + 2)).fault = true) := by
      rw [h₀, h₂]
      simp
    refine (run_recorded (n := n + 4) hev (hring.restated w next.toI32 _) hknown _).after hearly
      ⟨_, rfl⟩ ?_
    rw [h₃]
    simp

theorem restated_unchanged_iff {row : WorkflowRow} {state t : Int}
    (hrow : m.db.getWorkflow w = some row) :
    Unchanged w m (m.restated w state t) ↔ row.state = state := by
  have hget : (m.restated w state t).db.getWorkflow w =
      some { row with state := state, updatedAtMillis := t } := by
    rw [getWorkflow_restated, hrow, Option.map_some, restate_self hrow]
  constructor
  · intro h
    have hstate := h.state
    rw [hget, hrow] at hstate
    simpa using hstate.symm
  · intro h
    refine ⟨?_, rfl, rfl⟩
    rw [hget, hrow]
    simp [h]

end Moves

/-! ## The three operations -/

section Operations

variable {o : Nat → Oracle} {n : Nat} {m : Machine} {w : String}

/-- The machine after the `INSERT` of a new workflow. -/
def Machine.inserted (m : Machine) (row : WorkflowRow) : Machine :=
  m.withDb { m.db with workflows := m.db.workflows ++ [row] }

theorem inserted_known {provider : Provider} {title : String} {session : Option String} {t : Int}
    (hnone : m.db.getWorkflow w = none) :
    (m.inserted (newRow w provider title session t)).db.getWorkflow w =
      some (newRow w provider title session t) := by
  have hget : (m.inserted (newRow w provider title session t)).db.getWorkflow w =
      (m.db.getWorkflow w).or
        (if w = w then some (newRow w provider title session t) else none) :=
    getWorkflow_append m.db.workflows (newRow w provider title session t)
  rw [hget, hnone, if_pos rfl]
  rfl

theorem insertWorkflow_new {provider : Provider} {title : String} {session : Option String}
    {t : Int} (hnone : m.db.getWorkflow w = none) :
    m.db.insertWorkflow (newRow w provider title session t) =
      .ok (m.inserted (newRow w provider title session t)).db := by
  have hfree : ¬(m.db.getWorkflow (newRow w provider title session t).workflowId).isSome =
      true := by
    rw [show m.db.getWorkflow (newRow w provider title session t).workflowId = none from hnone]
    decide
  have hstate : ¬((newRow w provider title session t).state = 0 ∨
      (newRow w provider title session t).state = 7) := by
    show ¬((1 : Int) = 0 ∨ (1 : Int) = 7)
    decide
  unfold Db.insertWorkflow
  rw [if_neg hfree, if_neg hstate]
  rfl

/-- `upsert_session_binding` leaves a known workflow and the rings alone. -/
theorem run_upsert (session : String) (pointer : Option String)
    (hknown : (m.db.getWorkflow w).isSome = true) (hring : Ringed m.db) :
    (o (n + 1)).fault = true ∧
        (upsertSessionBinding w session pointer).runFrom exec 0 o n m =
          some (.error .sqlite, m, n + 2) ∨
      (o (n + 1)).fault = false ∧ ∃ m',
        (upsertSessionBinding w session pointer).runFrom exec 0 o n m =
          some (.ok (), m', n + 2) ∧
        (m'.db.getWorkflow w).isSome = true ∧ Ringed m'.db := by
  unfold upsertSessionBinding
  rw [Prog.runFrom_bind, run_now]
  simp only [Option.bind_some]
  cases h₁ : (o (n + 1)).fault with
  | true => exact .inl ⟨rfl, run_fault h₁⟩
  | false =>
      have hup : ∃ db', m.db.upsertBinding ⟨w, session, pointer, (o n).clock⟩ = .ok db' ∧
          db'.workflows = m.db.workflows ∧ Db.SameLog m.db db' := upsertBinding_known hknown
      obtain ⟨db', hupsert, hworkflows, hlog⟩ := hup
      refine .inr ⟨rfl, m.withDb db', ?_, ?_, fun v => ?_⟩
      · rw [run_sql h₁, Sql.step, hupsert]
        rfl
      · have hsame : db'.getWorkflow w = m.db.getWorkflow w := by
          unfold Db.getWorkflow
          rw [hworkflows]
        exact (congrArg Option.isSome hsame).trans hknown
      · obtain ⟨k, hk⟩ := hring v
        exact ⟨k, hk.same hlog⟩

/-- What a creation goes on to do once its row is stored. -/
theorem run_created {session : Option String} {row : WorkflowRow}
    (hid : row.workflowId = w) (hknown : (m.db.getWorkflow w).isSome = true)
    (hring : Ringed m.db) {early : Prop} (hearly : ¬early) {m₀ : Machine} :
    Fate early
      (if session.isSome then (o (n + 1)).fault = true ∨ (o (n + 3)).fault = true ∨
          (o (n + 6)).fault = true
        else (o (n + 1)).fault = true ∨ (o (n + 4)).fault = true) m₀
      (fun m' => (m'.db.getWorkflow w).isSome = true)
      ((andThen (WorkflowManager.bindCreated w session) fun _ =>
        andThen (record row.workflowId row.providerSessionId .running "workflow created") fun _ =>
          return .ok row).runFrom exec 0 o n m) := by
  have hev : lifecycleEvent .running = some .agentStarted := rfl
  rw [hid]
  cases session with
  | none =>
      have hbound : (WorkflowManager.bindCreated w none).runFrom exec 0 o n m =
          some (.ok (), m, n) := rfl
      rw [run_andThen_ok hbound]
      exact (run_recorded hev hring hknown row).after hearly hknown Iff.rfl
  | some s =>
      obtain ⟨h₁, hrun⟩ | ⟨h₁, m', hrun, hknown', hring'⟩ :=
        run_upsert (o := o) (n := n) s none hknown hring
      · have hbound : (WorkflowManager.bindCreated w (some s)).runFrom exec 0 o n m =
            some (.error (.storage .sqlite), m, n + 2) := run_stored hrun
        rw [run_andThen_error hbound]
        exact .late hearly (.inl h₁) _ m _ hknown
      · have hbound : (WorkflowManager.bindCreated w (some s)).runFrom exec 0 o n m =
            some (.ok (), m', n + 2) := run_stored hrun
        rw [run_andThen_ok hbound]
        refine (run_recorded (n := n + 2) hev hring' hknown' row).after hearly hknown' ?_
        rw [h₁]
        simp

theorem run_create {provider : Provider} {title : String} (session : Option String)
    (hw : w ≠ "") (ht : title ≠ "") (hp : provider ≠ .unspecified)
    (hnone : m.db.getWorkflow w = none) (hring : Ringed m.db) :
    Fate ((o 1).fault = true)
      (if session.isSome then (o 3).fault = true ∨ (o 5).fault = true ∨ (o 8).fault = true
        else (o 3).fault = true ∨ (o 6).fault = true) m
      (fun m' => (m'.db.getWorkflow w).isSome = true)
      ((WorkflowManager.createWorkflow w provider title session).runFrom exec 0 o 0 m) := by
  unfold WorkflowManager.createWorkflow
  rw [if_neg hw, if_neg ht, if_neg hp]
  have hstart : (createWorkflow w provider title session).runFrom exec 0 o 0 m =
      (andThen (sql (.insertWorkflow (newRow w provider title session (o 0).clock))) fun _ =>
        return .ok (newRow w provider title session (o 0).clock)).runFrom exec 0 o 1 m := rfl
  cases h₁ : (o 1).fault with
  | true =>
      have hrun := hstart.trans (run_andThen_error (run_fault h₁))
      rw [run_andThen_error (run_stored hrun)]
      exact .early rfl _ _
  | false =>
      have hinsert : (sql (.insertWorkflow (newRow w provider title session
          (o 0).clock))).runFrom exec 0 o 1 m =
          some (.ok (), m.inserted (newRow w provider title session (o 0).clock), 2) := by
        rw [run_sql h₁, Sql.step, insertWorkflow_new hnone]
        rfl
      have hrun := hstart.trans (run_andThen_ok hinsert)
      rw [run_andThen_ok (run_stored hrun)]
      have hknown : ((m.inserted (newRow w provider title session (o 0).clock)).db.getWorkflow
          w).isSome = true := by
        rw [inserted_known hnone]
        rfl
      have hring' : Ringed (m.inserted (newRow w provider title session (o 0).clock)).db := by
        intro v
        obtain ⟨k, hk⟩ := hring v
        exact ⟨k, hk.same ⟨rfl, rfl, rfl⟩⟩
      have hid : (newRow w provider title session (o 0).clock).workflowId = w := rfl
      have hearly : ¬(false = true) := by decide
      exact run_created (n := 2) hid hknown hring' hearly

/-- The value of an operation does not matter. -/
theorem atomic_code {β : Type} {p : Code (Except LifecycleError β)} :
    (∀ e m' k, (p >>= fun r => .ret (r.map fun _ => ())).runFrom exec 0 o 0 m =
      some (.error e, m', k) → Unchanged w m m') ↔ AtomicRun w m (p.runFrom exec 0 o 0 m) := by
  unfold AtomicRun
  rw [Prog.runFrom_bind]
  cases h : p.runFrom exec 0 o 0 m with
  | none => simp
  | some x =>
      obtain ⟨a, m', k⟩ := x
      cases a with
      | error e =>
          constructor
          · intro hno e' m'' k' heq
            cases heq
            exact hno e m' k rfl
          · intro hno e' m'' k' heq
            cases heq
            exact hno e m' k rfl
      | ok a =>
          constructor
          · intro _ e' m'' k' heq
            cases heq
          · intro _ e' m'' k' heq
            cases heq

theorem create_atomic_iff {provider : Provider} {title : String} {session : Option String}
    (hring : Ringed m.db) :
    Atomic (.create w provider title session) m o ↔
      ¬LateFailure (.create w provider title session) m.db fun n => (o n).fault := by
  refine atomic_code.trans ?_
  by_cases hargs : w ≠ "" ∧ title ≠ "" ∧ provider ≠ .unspecified ∧ m.db.getWorkflow w = none
  · have hfate := run_create (o := o) session hargs.1 hargs.2.1 hargs.2.2.1
      hargs.2.2.2 hring
    refine (hfate.atomic_iff fun m' hm' hsame => ?_).trans ?_
    · have hstate : (m'.db.getWorkflow w).map WorkflowRow.state =
          (m.db.getWorkflow w).map WorkflowRow.state := hsame.state
      obtain ⟨row, hrow⟩ := Option.isSome_iff_exists.mp hm'
      rw [hrow, hargs.2.2.2] at hstate
      cases hstate
    · rw [Bool.not_eq_true]
      exact not_congr ⟨fun h => ⟨hargs, h.1, h.2⟩, fun h => ⟨h.2.1, h.2.2⟩⟩
  · refine ⟨fun _ h => hargs h.1, fun _ => ?_⟩
    unfold WorkflowManager.createWorkflow
    by_cases hw : w = ""
    · rw [if_pos hw]
      exact atomic_refused rfl
    rw [if_neg hw]
    by_cases ht : title = ""
    · rw [if_pos ht]
      exact atomic_refused rfl
    rw [if_neg ht]
    by_cases hp : provider = .unspecified
    · rw [if_pos hp]
      exact atomic_refused rfl
    rw [if_neg hp]
    have hsome : (m.db.getWorkflow w).isSome = true := by
      rw [Option.isSome_iff_ne_none]
      exact fun hnone => hargs ⟨hw, ht, hp, hnone⟩
    have hstart : (createWorkflow w provider title session).runFrom exec 0 o 0 m =
        (andThen (sql (.insertWorkflow (newRow w provider title session (o 0).clock))) fun _ =>
          return .ok (newRow w provider title session (o 0).clock)).runFrom exec 0 o 1 m := rfl
    have hrefused : (sql (.insertWorkflow (newRow w provider title session
        (o 0).clock))).runFrom exec 0 o 1 m = some (.error .sqlite, m, 2) := by
      cases h₁ : (o 1).fault with
      | true => exact run_fault h₁
      | false =>
          have hins : m.db.insertWorkflow (newRow w provider title session (o 0).clock) =
              .error .sqlite := by
            unfold Db.insertWorkflow
            exact if_pos hsome
          rw [run_sql h₁, Sql.step, hins]
          rfl
    exact atomic_refused
      (run_andThen_error (run_stored (hstart.trans (run_andThen_error hrefused))))

theorem setState_refused (next : WorkflowState)
    (h : ∀ row, m.db.getWorkflow w = some row → row.state ∈ terminalStates) :
    ∃ e k, (setWorkflowState w next).runFrom exec 0 o 0 m = some (.error e, m, k) := by
  unfold setWorkflowState getWorkflow
  by_cases hp : next.isPersistable = true
  · rw [if_neg (not_not_intro hp)]
    cases h₀ : (o 0).fault with
    | true => exact ⟨_, _, run_andThen_error (run_fault h₀)⟩
    | false =>
        have hread : (sql (.selectWorkflow w)).runFrom exec 0 o 0 m =
            some (.ok (m.db.getWorkflow w), m, 1) := run_sql h₀
        rw [run_andThen_ok hread]
        cases hrow : m.db.getWorkflow w with
        | none => exact ⟨_, _, rfl⟩
        | some row =>
            show ∃ e k, (if row.state ∈ terminalStates then _ else _ : Code _).runFrom _ _ _ _ _ = _
            rw [if_pos (h row hrow)]
            exact ⟨_, _, rfl⟩
  · rw [if_pos hp]
    exact ⟨_, _, rfl⟩

theorem transition_atomic_iff {next : WorkflowState} {reason : String} (hring : Ringed m.db) :
    Atomic (.transition w next reason) m o ↔
      ¬LateFailure (.transition w next reason) m.db fun n => (o n).fault := by
  refine atomic_code.trans ?_
  obtain ⟨message, hbad, heq⟩ | ⟨hp, hr, heq⟩ := transition_eq w next reason
  · have hno : ¬LateFailure (.transition w next reason) m.db fun n => (o n).fault := by
      intro h
      cases hbad with
      | inl hp =>
          have hp' : next.isPersistable = true := h.1.1
          rw [hp] at hp'
          cases hp'
      | inr hr => exact h.1.2.1 hr
    rw [heq]
    exact ⟨fun _ => hno, fun _ => atomic_refused rfl⟩
  · rw [heq]
    by_cases hlive : ∃ row, m.db.getWorkflow w = some row ∧ row.state ∉ terminalStates
    · obtain ⟨row, hrow, hlive⟩ := hlive
      obtain ⟨ev, hev⟩ := lifecycleEvent_some hp
      have htell : ∀ t, (fun r : WorkflowRow =>
          record r.workflowId r.providerSessionId next reason)
            { row with state := next.toI32, updatedAtMillis := t } =
          record w row.providerSessionId next reason := by
        intro t
        show record row.workflowId row.providerSessionId next reason = _
        rw [getWorkflow_id hrow]
      have hfate : Fate ((o 0).fault = true ∨ (o 2).fault = true)
          ((o 3).fault = true ∨ (o 5).fault = true ∨ (o 8).fault = true) m
          (fun m' => ∃ t, m' = m.restated w next.toI32 t)
          ((andThen (stored (setWorkflowState w next)) fun row =>
            andThen (record row.workflowId row.providerSessionId next reason) fun _ =>
              return .ok row).runFrom exec 0 o 0 m) :=
        run_moves hrow hlive hp hev hring htell
      by_cases hstate : row.state = next.toI32
      · refine ⟨fun _ h => ?_, fun _ => hfate.atomic fun m' hm' => ?_⟩
        · obtain ⟨r, hr', _, hne⟩ := h.1.2.2
          rw [hrow] at hr'
          cases hr'
          exact hne hstate
        · obtain ⟨t, rfl⟩ := hm'
          exact (restated_unchanged_iff hrow).mpr hstate
      · refine (hfate.atomic_iff fun m' hm' hsame => ?_).trans (not_congr ?_)
        · obtain ⟨t, rfl⟩ := hm'
          exact hstate ((restated_unchanged_iff hrow).mp hsame)
        · rw [not_or, Bool.not_eq_true, Bool.not_eq_true]
          exact ⟨fun h => ⟨⟨hp, hr, row, hrow, hlive, hstate⟩, h.1, h.2⟩, fun h => h.2⟩
    · have hended : ∀ row, m.db.getWorkflow w = some row → row.state ∈ terminalStates := by
        intro row hrow
        by_cases h : row.state ∈ terminalStates
        · exact h
        · exact absurd ⟨row, hrow, h⟩ hlive
      obtain ⟨e, k, hrun⟩ := setState_refused (o := o) next hended
      refine ⟨fun _ h => ?_, fun _ => atomic_refused (run_andThen_error (run_stored hrun))⟩
      obtain ⟨row, hrow, hl, _⟩ := h.1.2.2
      exact hlive ⟨row, hrow, hl⟩

theorem recover_atomic_iff {row : WorkflowRow} (hring : Ringed m.db)
    (hrow : m.db.getWorkflow w = some row) (hlive : row.state ∉ terminalStates)
    (h₀ : (o 0).fault = false) :
    AtomicRun w m ((WorkflowManager.recover w row).runFrom exec 0 o 1 m) ↔
      ¬LateFailure (.reconcile w) m.db fun n => (o n).fault := by
  unfold WorkflowManager.recover getSessionBinding eventsAfter
  cases h₁ : (o 1).fault with
  | true =>
      refine ⟨fun _ h => ?_, fun _ => atomic_refused (run_andThen_error (run_stored (run_fault h₁)))⟩
      have hno : (o 1).fault = false := h.2.1.1.2.1
      rw [h₁] at hno
      cases hno
  | false =>
      have hbinding : (stored (sql (.selectBinding w))).runFrom exec 0 o 1 m =
          some (.ok ((m.db.bindingOf w).map fun b => (b.providerSessionId, b.resumePointer)), m,
            2) := run_stored (run_sql h₁)
      rw [run_andThen_ok hbinding]
      cases h₂ : (o 2).fault with
      | true =>
          refine ⟨fun _ h => ?_,
            fun _ => atomic_refused (run_andThen_error (run_stored (run_fault h₂)))⟩
          have hno : (o 2).fault = false := h.2.1.1.2.2
          rw [h₂] at hno
          cases hno
      | false =>
          have hreplay : (stored (sql (.selectEventsAfter w 0 WorkflowManager.maxU32))).runFrom exec
              0 o 2 m = some (.ok (m.db.eventsAfter w 0 WorkflowManager.maxU32), m, 3) :=
            run_stored (run_sql h₂)
          rw [run_andThen_ok hreplay]
          cases hb : m.db.bindingOf w with
          | some b =>
              refine ⟨fun _ h => ?_, fun _ => atomic_done rfl⟩
              have hnone : m.db.bindingOf w = none := h.1.2
              rw [hb] at hnone
              cases hnone
          | none =>
              have hp : WorkflowState.failed.isPersistable = true := rfl
              have hev : lifecycleEvent .failed = some .errorOccurred := rfl
              have hne : row.state ≠ WorkflowState.failed.toI32 := by
                intro heq
                rw [heq] at hlive
                exact hlive (by decide)
              have hfate : Fate ((o 3).fault = true ∨ (o 5).fault = true)
                  ((o 6).fault = true ∨ (o 8).fault = true ∨ (o 11).fault = true) m
                  (fun m' => ∃ t, m' = m.restated w WorkflowState.failed.toI32 t)
                  ((andThen (stored (setWorkflowState w .failed)) fun _ =>
                    andThen (record w row.providerSessionId .failed
                      (WorkflowManager.unboundReason w)) fun _ =>
                        return .ok (RecoveryDecision.cleanFailed
                          (WorkflowManager.unboundReason w))).runFrom exec 0 o 3 m) :=
                run_moves hrow hlive hp hev hring fun _ => rfl
              refine (hfate.atomic_iff fun m' hm' hsame => ?_).trans (not_congr ?_)
              · obtain ⟨t, rfl⟩ := hm'
                exact hne ((restated_unchanged_iff hrow).mp hsame)
              · rw [not_or, Bool.not_eq_true, Bool.not_eq_true]
                exact ⟨fun h => ⟨⟨⟨row, hrow, hlive⟩, hb⟩, ⟨⟨h₀, h₁, h₂⟩, h.1⟩, h.2⟩,
                  fun h => ⟨h.2.1.2, h.2.2⟩⟩

theorem reconcile_atomic_iff (hring : Ringed m.db) (hstored : StatesStored m.db) :
    Atomic (.reconcile w) m o ↔ ¬LateFailure (.reconcile w) m.db fun n => (o n).fault := by
  refine atomic_code.trans ?_
  unfold WorkflowManager.reconcile getWorkflow
  cases h₀ : (o 0).fault with
  | true =>
      refine ⟨fun _ h => ?_, fun _ => atomic_refused (run_andThen_error (run_stored (run_fault h₀)))⟩
      have hno : (o 0).fault = false := h.2.1.1.1
      rw [h₀] at hno
      cases hno
  | false =>
      have hread : (stored (sql (.selectWorkflow w))).runFrom exec 0 o 0 m =
          some (.ok (m.db.getWorkflow w), m, 1) := run_stored (run_sql h₀)
      rw [run_andThen_ok hread]
      cases hrow : m.db.getWorkflow w with
      | none =>
          refine ⟨fun _ h => ?_, fun _ => atomic_refused rfl⟩
          obtain ⟨row, hr, _⟩ := h.1.1
          rw [hrow] at hr
          cases hr
      | some row =>
          have hmem : row ∈ m.db.workflows := List.mem_of_find?_eq_some hrow
          obtain ⟨state, hstate, _, hended, hone⟩ | ⟨state, hstate, hlive, hone⟩ :=
            storable_cases (hstored row hmem)
          · have hno : ¬LateFailure (.reconcile w) m.db fun n => (o n).fault := by
              intro h
              obtain ⟨r, hr, hl⟩ := h.1.1
              rw [hrow] at hr
              cases hr
              exact hl hended
            simp only [hstate]
            rcases hone with rfl | rfl | rfl <;>
              exact ⟨fun _ => hno, fun _ => atomic_done rfl⟩
          · simp only [hstate]
            rcases hone with rfl | rfl | rfl <;> exact recover_atomic_iff hring hrow hlive h₀

end Operations

/-- **When an error leaves the workflow as it was**, on every file that a run can
leave: exactly if no call of the store fails after the one that wrote a new
state. -/
theorem lifecycle_errors_atomic_iff (ts : List (Prog.Try LifecycleCall Oracle))
    (op : LifecycleOp) (o : Nat → Oracle) :
    Atomic op (lifecycleAfter {} ts) o ↔
      ¬LateFailure op (lifecycleAfter {} ts).db fun n => (o n).fault := by
  have hring : Ringed (lifecycleAfter {} ts).db :=
    ringed_run (fun v => ⟨0, Db.ringOf_empty v⟩) ts
  have hstored : StatesStored (lifecycleAfter {} ts).db := stored_run (by decide)
  cases op with
  | create w provider title session => exact create_atomic_iff hring
  | transition w next reason => exact transition_atomic_iff hring
  | reconcile w => exact reconcile_atomic_iff hring hstored

/-- One call of the store fails. -/
def failsAt (n : Nat) : Nat → Oracle := fun k => { fault := k = n }

/-- **A state change without its why**: the event of a transition is not
appended, and the workflow has completed. -/
theorem failed_append_keeps_state :
    ¬Atomic (.transition "w" .completed "done") (oneWorkflow "w") (failsAt 8) := by
  intro h
  have hrun : ((LifecycleOp.transition "w" .completed "done").code.runFrom exec 0 (failsAt 8) 0
      (oneWorkflow "w")).map (fun x => (x.1.isOk, (x.2.1.db.getWorkflow "w").map
        WorkflowRow.state)) = some (false, some 4) := by decide
  obtain ⟨x, hx, heq⟩ := Option.map_eq_some_iff.mp hrun
  obtain ⟨a, m', k⟩ := x
  cases a with
  | ok a => cases heq
  | error e =>
      have hstate := (h e m' k hx).state
      have hfour : (m'.db.getWorkflow "w").map WorkflowRow.state = some 4 :=
        congrArg Prod.snd heq
      rw [show (LifecycleOp.transition "w" .completed "done").workflow = "w" from rfl, hfour]
        at hstate
      cases hstate

end Calcar.Agent
