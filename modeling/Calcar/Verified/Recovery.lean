import Calcar.Verified.LifecycleLog
import Calcar.Verified.Replay

/-!
# Recovery after a restart

A process may die between any two statements, so recovery starts from whatever
the calls of the last life left: a workflow without its binding, a binding
without its event, a state without its reason.  What recovery needs of the file
survives all of that: states are storable and rings are sound.

## Main results

* `reconcile_verdict` — what a reconcile that comes to an answer did.
* `restart_recovery` — the law of recovery, for every file a run can leave.
-/

namespace Calcar.Agent

open Lib

/-! ## What is replayed -/

section Replayed

variable {db : Db} {w : String} {n : Nat}

/-- A read of that many rows reads the ring. -/
theorem replay_reads (h : db.RingOf w n) {limit : Nat} (hlimit : 5000 ≤ limit) :
    db.eventsAfter w 0 limit = db.retained w := by
  have hcut := h.cut_nonneg
  rw [h.eventsAfter_page]
  unfold pageAfter
  have hall : (db.retained w).filter (fun e => 0 < e.seqNo) = db.retained w := by
    rw [List.filter_eq_self]
    intro e he
    have := (h.retained_window.bounds he).1
    exact decide_eq_true (by omega)
  have hlimits := h.law.limits.1
  have hlen : (db.retained w).length = (db.eventsOf w).length := List.length_map ..
  rw [hall]
  apply List.take_of_length_le
  simp only [Db.ringStats, maxRingEvents] at hlimits
  omega

/-- The last event that is read is the newest. -/
theorem replay_newest (h : db.RingOf w n) :
    (db.retained w).getLast?.map WorkflowEvent.seqNo = (db.ringStats w).newestSeq := by
  have hnewest : (db.ringStats w).newestSeq = ((db.eventsOf w).map EventRow.seqNo).max? := rfl
  rw [hnewest]
  by_cases hempty : db.eventsOf w = []
  · unfold Db.retained
    rw [hempty]
    rfl
  · rw [h.window.max?_keys hempty]
    cases hlast : (db.retained w).getLast? with
    | none =>
        have hnil : (db.eventsOf w).map Db.mapEvent = [] := List.getLast?_eq_none_iff.mp hlast
        exact absurd (List.map_eq_nil_iff.mp hnil) hempty
    | some e =>
        have hkey := h.retained_window.last_key hlast
        have hlen : (db.retained w).length = (db.eventsOf w).length := List.length_map ..
        rw [Option.map_some, hkey, hlen]

end Replayed

/-! ## Verdicts -/

/-- What a reconcile of workflow `w` decides about the machine it finds, and the
machine that it leaves. -/
inductive RecoveryVerdict (w : String) (m : Machine) : RecoveryDecision → Machine → Prop where
  | alreadyTerminal (row : WorkflowRow) (state : WorkflowState)
      (hrow : m.db.getWorkflow w = some row) (hended : row.state ∈ terminalStates)
      (hstate : row.state = state.toI32) : RecoveryVerdict w m (.alreadyTerminal state) m
  | reattach (row : WorkflowRow) (b : BindingRow) (hrow : m.db.getWorkflow w = some row)
      (hlive : row.state ∉ terminalStates) (hb : m.db.bindingOf w = some b) :
      RecoveryVerdict w m
        (.reattach b.providerSessionId b.resumePointer (m.db.eventsOf w).length
          (m.db.ringStats w).newestSeq) m
  | cleanFailed (row : WorkflowRow) (hrow : m.db.getWorkflow w = some row)
      (hlive : row.state ∉ terminalStates) (hb : m.db.bindingOf w = none)
      (t occurred t' : Int) (n : Nat) (db' : Db)
      (happended : Db.Appended (m.restated w WorkflowState.failed.toI32 t).db db'
        (lifecycleDraft w row.providerSessionId .failed .errorOccurred
          (WorkflowManager.unboundReason w) occurred) t' n) :
      RecoveryVerdict w m (.cleanFailed (WorkflowManager.unboundReason w)) (m.withDb db')

/-- What a watched reconcile may come to. -/
def Reconciled (calm : Bool) (w : String) (x : Watched)
    (a : Except LifecycleError RecoveryDecision) (y : Watched) : Prop :=
  (calm = false ∧ a = .error (.storage .sqlite)) ∨
    (x.1.db.getWorkflow w = none ∧ a = .error (.storage (.notFound ("workflow " ++ w))) ∧
      y = x) ∨
    ∃ d, a = .ok d ∧ RecoveryVerdict w x.1 d y.1 ∧ Steps x y

section Verdicts

variable {calm : Bool} {j : Nat} {w : String} {x : Watched}

theorem watched_recover {row : WorkflowRow} (hring : Ringed x.1.db)
    (hrow : x.1.db.getWorkflow w = some row) (hlive : row.state ∉ terminalStates) :
    (WorkflowManager.recover w row).Meets (watched calm) j (Reconciled calm w x) Anywhere x := by
  obtain ⟨n, hn⟩ := hring w
  have hfault : calm = false → ∀ y, Reconciled calm w x (.error (.storage .sqlite)) y :=
    fun hc _ => .inl ⟨hc, rfl⟩
  unfold WorkflowManager.recover getSessionBinding eventsAfter
  refine meets_andThen (watched_stored (watched_read rfl rfl (fun hc _ => hfault hc x)
    fun _ => ?_))
  refine meets_andThen (watched_stored (watched_read rfl rfl (fun hc _ => hfault hc x)
    fun _ => ?_))
  have hreplay : x.1.db.eventsAfter w 0 WorkflowManager.maxU32 = x.1.db.retained w :=
    replay_reads hn (by decide)
  cases hb : x.1.db.bindingOf w with
  | some b =>
      have hlen : (x.1.db.retained w).length = (x.1.db.eventsOf w).length := List.length_map ..
      have hdecision : RecoveryVerdict w x.1
          (.reattach b.providerSessionId b.resumePointer
            (x.1.db.eventsAfter w 0 WorkflowManager.maxU32).length
            ((x.1.db.eventsAfter w 0 WorkflowManager.maxU32).getLast?.map
              WorkflowEvent.seqNo)) x.1 := by
        rw [hreplay, replay_newest hn, hlen]
        exact .reattach row b hrow hlive hb
      exact ⟨trivial, .inr (.inr ⟨_, rfl, hdecision, .refl x⟩)⟩
  | none =>
      have hp : WorkflowState.failed.isPersistable = true := rfl
      refine watched_moves hrow hlive hp rfl hring (fun _ => rfl) hfault
        fun t occurred t' k db' _ happended => ?_
      exact .inr (.inr ⟨_, rfl, .cleanFailed row hrow hlive hb t occurred t' k db' happended,
        .inr ⟨w, .failed, _, moves_restated hrow hlive hp rfl rfl happended, rfl⟩⟩)

/-- **A watched reconcile.** -/
theorem watched_reconcile (hring : Ringed x.1.db) (hstored : StatesStored x.1.db) :
    (WorkflowManager.reconcile w).Meets (watched calm) j (Reconciled calm w x) Anywhere x := by
  unfold WorkflowManager.reconcile
  refine meets_andThen (watched_stored (watched_getWorkflow (fun hc _ => .inl ⟨hc, rfl⟩)
    fun _ => ?_))
  cases hrow : x.1.db.getWorkflow w with
  | none => exact ⟨trivial, .inr (.inl ⟨hrow, rfl, rfl⟩)⟩
  | some row =>
      have hmem : row ∈ x.1.db.workflows := List.mem_of_find?_eq_some hrow
      obtain ⟨state, hstate, hcode, hended, hone⟩ | ⟨state, hstate, hlive, hone⟩ :=
        storable_cases (hstored row hmem)
      · simp only [mapError_ok, hstate]
        rcases hone with rfl | rfl | rfl <;>
          exact ⟨trivial, .inr (.inr ⟨_, rfl, .alreadyTerminal row _ hrow hended hcode, .refl x⟩)⟩
      · simp only [mapError_ok, hstate]
        rcases hone with rfl | rfl | rfl <;> exact watched_recover hring hrow hlive

end Verdicts

/-! ## The law -/

/-- An attempt at a reconcile. -/
def reconcileAt (w : String) (m : Machine) (n : Nat) (os : Nat → Oracle) :
    Machine × Option (Except LifecycleError RecoveryDecision) :=
  (WorkflowManager.reconcile w).attempt exec 0 n os m

/-- The law of recovery on machine `m`, for workflow `w`. -/
structure RecoveryLaw (m : Machine) (w : String) : Prop where
  /-- Wherever it stops, nothing is completed by it. -/
  completes : ∀ n os, CompletesNone m.db (reconcileAt w m n os).1.db
  /-- On a known workflow it comes to a decision, unless a statement fails. -/
  decides : ∀ n os a, (∀ k, (os k).fault = false) → (m.db.getWorkflow w).isSome = true →
    (reconcileAt w m n os).2 = some a → ∃ d, a = .ok d
  /-- A terminal workflow is left alone. -/
  terminal : ∀ n os d row, m.db.getWorkflow w = some row → row.state ∈ terminalStates →
    (reconcileAt w m n os).2 = some (.ok d) →
    (reconcileAt w m n os).1 = m ∧ ∃ state, d = .alreadyTerminal state ∧
      row.state = state.toI32
  /-- A live workflow with a binding is reattached to it at its newest event. -/
  bound : ∀ n os d row b, m.db.getWorkflow w = some row → row.state ∉ terminalStates →
    m.db.bindingOf w = some b → (reconcileAt w m n os).2 = some (.ok d) →
    (reconcileAt w m n os).1 = m ∧
      d = .reattach b.providerSessionId b.resumePointer (m.db.eventsOf w).length
        (m.db.ringStats w).newestSeq
  /-- One without is failed, with one event that says why. -/
  unbound : ∀ n os d row, m.db.getWorkflow w = some row → row.state ∉ terminalStates →
    m.db.bindingOf w = none → (reconcileAt w m n os).2 = some (.ok d) →
    d = .cleanFailed (WorkflowManager.unboundReason w) ∧
      (∃ t, (reconcileAt w m n os).1.db.getWorkflow w =
        some { row with state := WorkflowState.failed.toI32, updatedAtMillis := t }) ∧
      ∃ e t, e.workflowId = w ∧ e.type = EventType.errorOccurred.toI32 ∧
        e.summary = WorkflowManager.unboundReason w ∧
        (reconcileAt w m n os).1.db.eventsOf w = evict Fits (m.db.eventsOf w ++ [e]) ∧
        ((reconcileAt w m n os).1.db.eventsOf w).getLast? = some e ∧
        (reconcileAt w m n os).1.db.outbox = m.db.outbox ++ [⟨w, e.seqNo, t, none⟩]
  /-- Run again it changes nothing, and decides the same of what it reattaches. -/
  again : ∀ n os n' os' d d', (reconcileAt w m n os).2 = some (.ok d) →
    (reconcileAt w (reconcileAt w m n os).1 n' os').2 = some (.ok d') →
    (reconcileAt w (reconcileAt w m n os).1 n' os').1 = (reconcileAt w m n os).1 ∧
      ∀ session pointer count last, d = .reattach session pointer count last → d' = d

section Law

variable {m m' : Machine} {w : String}

/-- What a reconcile that came to a decision did. -/
theorem reconcile_verdict (hring : Ringed m.db) (hstored : StatesStored m.db) {n : Nat}
    {os : Nat → Oracle} {d : RecoveryDecision} (h : (reconcileAt w m n os).2 = some (.ok d)) :
    RecoveryVerdict w m d (reconcileAt w m n os).1 := by
  have hmeets : (WorkflowManager.reconcile w).Meets (watched false) 0 (Reconciled false w (m, []))
      Anywhere (m, []) := watched_reconcile hring hstored
  have herase := watched_erases (j := 0) (WorkflowManager.reconcile w) n os (m, [])
  have hdone := (Prog.meets_attempt hmeets n os).2 (.ok d) (herase.2.trans h)
  obtain ⟨_, hc⟩ | ⟨_, hc, _⟩ | ⟨d', hd, hverdict, _⟩ := hdone
  · cases hc
  · cases hc
  · cases hd
    rw [herase.1] at hverdict
    exact hverdict

theorem reconcile_decides (hring : Ringed m.db) (hstored : StatesStored m.db) {n : Nat}
    {os : Nat → Oracle} (hos : ∀ k, (os k).fault = false)
    (hknown : (m.db.getWorkflow w).isSome = true) {a : Except LifecycleError RecoveryDecision}
    (h : (reconcileAt w m n os).2 = some a) : ∃ d, a = .ok d := by
  have hmeets : (WorkflowManager.reconcile w).Meets (watched true) 0 (Reconciled true w (m, []))
      Anywhere (m, []) := watched_reconcile hring hstored
  have herase := watched_erases (j := 0) (WorkflowManager.reconcile w) n os (m, [])
  have hsame := watched_calm (j := 0) (WorkflowManager.reconcile w) n hos (m, [])
  rw [← hsame] at herase
  have hdone := (Prog.meets_attempt hmeets n os).2 a (herase.2.trans h)
  obtain ⟨hc, _⟩ | ⟨hnone, _, _⟩ | ⟨d, hd, _, _⟩ := hdone
  · cases hc
  · rw [show m.db.getWorkflow w = none from hnone] at hknown
    cases hknown
  · exact ⟨d, hd⟩

/-- A verdict is the only one of its machine. -/
theorem RecoveryVerdict.bound {d : RecoveryDecision} {row : WorkflowRow} {b : BindingRow}
    (h : RecoveryVerdict w m d m') (hrow : m.db.getWorkflow w = some row)
    (hlive : row.state ∉ terminalStates) (hb : m.db.bindingOf w = some b) :
    m' = m ∧ d = .reattach b.providerSessionId b.resumePointer (m.db.eventsOf w).length
      (m.db.ringStats w).newestSeq := by
  cases h with
  | alreadyTerminal r state hrow' hended hstate =>
      rw [hrow] at hrow'
      cases hrow'
      exact absurd hended hlive
  | reattach r b' hrow' hlive' hb' =>
      rw [hb] at hb'
      cases hb'
      exact ⟨rfl, rfl⟩
  | cleanFailed r hrow' hlive' hb' t occurred t' n db' happended =>
      rw [hb] at hb'
      cases hb'

theorem RecoveryVerdict.terminal {d : RecoveryDecision} {row : WorkflowRow}
    (h : RecoveryVerdict w m d m') (hrow : m.db.getWorkflow w = some row)
    (hended : row.state ∈ terminalStates) :
    m' = m ∧ ∃ state, d = .alreadyTerminal state ∧ row.state = state.toI32 := by
  cases h with
  | alreadyTerminal r state hrow' hended' hstate =>
      rw [hrow] at hrow'
      cases hrow'
      exact ⟨rfl, state, rfl, hstate⟩
  | reattach r b hrow' hlive hb =>
      rw [hrow] at hrow'
      cases hrow'
      exact absurd hended hlive
  | cleanFailed r hrow' hlive hb t occurred t' n db' happended =>
      rw [hrow] at hrow'
      cases hrow'
      exact absurd hended hlive

theorem getWorkflow_appended {db' : Db} {d : EventDraft} {t t' : Int} {n : Nat} {state : Int}
    (happended : Db.Appended (m.restated w state t).db db' d t' n) {row : WorkflowRow}
    (hrow : m.db.getWorkflow w = some row) :
    db'.getWorkflow w = some { row with state := state, updatedAtMillis := t } := by
  have hget : db'.getWorkflow w = (m.restated w state t).db.getWorkflow w := by
    unfold Db.getWorkflow
    rw [happended.workflows]
  rw [hget, getWorkflow_restated, hrow, Option.map_some, restate_self hrow]

theorem RecoveryVerdict.again {d d' : RecoveryDecision} {m'' : Machine}
    (h : RecoveryVerdict w m d m') (h' : RecoveryVerdict w m' d' m'') :
    m'' = m' ∧ ∀ session pointer count last, d = .reattach session pointer count last →
      d' = d := by
  cases h with
  | alreadyTerminal row state hrow hended hstate =>
      refine ⟨(h'.terminal hrow hended).1, fun session pointer count last hd => ?_⟩
      cases hd
  | reattach row b hrow hlive hb =>
      have hsame := h'.bound hrow hlive hb
      exact ⟨hsame.1, fun _ _ _ _ _ => hsame.2⟩
  | cleanFailed row hrow hlive hb t occurred t' n db' happended =>
      have hended : (m.withDb db').db.getWorkflow w =
          some { row with state := WorkflowState.failed.toI32, updatedAtMillis := t } :=
        getWorkflow_appended happended hrow
      have hfive : WorkflowState.failed.toI32 ∈ terminalStates := by decide
      refine ⟨(h'.terminal hended hfive).1, fun session pointer count last hd => ?_⟩
      cases hd

theorem RecoveryVerdict.unbound {d : RecoveryDecision} {row : WorkflowRow}
    (h : RecoveryVerdict w m d m') (hrow : m.db.getWorkflow w = some row)
    (hlive : row.state ∉ terminalStates) (hb : m.db.bindingOf w = none) :
    d = .cleanFailed (WorkflowManager.unboundReason w) ∧
      (∃ t, m'.db.getWorkflow w =
        some { row with state := WorkflowState.failed.toI32, updatedAtMillis := t }) ∧
      ∃ e t, e.workflowId = w ∧ e.type = EventType.errorOccurred.toI32 ∧
        e.summary = WorkflowManager.unboundReason w ∧
        m'.db.eventsOf w = evict Fits (m.db.eventsOf w ++ [e]) ∧
        (m'.db.eventsOf w).getLast? = some e ∧
        m'.db.outbox = m.db.outbox ++ [⟨w, e.seqNo, t, none⟩] := by
  cases h with
  | alreadyTerminal r state hrow' hended hstate =>
      rw [hrow] at hrow'
      cases hrow'
      exact absurd hended hlive
  | reattach r b hrow' hlive' hb' =>
      rw [hb] at hb'
      cases hb'
  | cleanFailed r hrow' hlive' hb' t occurred t' n db' happended =>
      rw [hrow] at hrow'
      cases hrow'
      have hrows : db'.eventsOf w = evict Fits (m.db.eventsOf w ++
          [Db.eventRow (lifecycleDraft w row.providerSessionId .failed .errorOccurred
            (WorkflowManager.unboundReason w) occurred) (n + 1)]) := happended.rows
      refine ⟨rfl, ⟨t, getWorkflow_appended happended hrow⟩,
        Db.eventRow (lifecycleDraft w row.providerSessionId .failed .errorOccurred
          (WorkflowManager.unboundReason w) occurred) (n + 1), t', rfl, rfl, rfl, hrows, ?_,
        happended.enqueued⟩
      obtain ⟨l, hl⟩ := evict_concat Fits fits_single (m.db.eventsOf w)
        (Db.eventRow (lifecycleDraft w row.providerSessionId .failed .errorOccurred
          (WorkflowManager.unboundReason w) occurred) (n + 1))
      show (db'.eventsOf w).getLast? = _
      rw [hrows, hl, List.getLast?_append]
      rfl

/-- **Recovery on a sound file.** -/
theorem recoveryLaw (hring : Ringed m.db) (hstored : StatesStored m.db) : RecoveryLaw m w where
  completes := fun n os =>
    (Prog.meets_attempt (meets_writes (reconcile_only (by decide))
      (fun _ _ hs hdb => completes_step hs hdb)
      fun _ row hrow hfour => ⟨row, hrow, hfour⟩) n os).1
  decides := fun n os a hos hknown h => reconcile_decides hring hstored hos hknown h
  terminal := fun n os d row hrow hended h =>
    (reconcile_verdict hring hstored h).terminal hrow hended
  bound := fun n os d row b hrow hlive hb h =>
    (reconcile_verdict hring hstored h).bound hrow hlive hb
  unbound := fun n os d row hrow hlive hb h =>
    (reconcile_verdict hring hstored h).unbound hrow hlive hb
  again := by
    intro n os n' os' d d' h h'
    have hring' : Ringed (reconcileAt w m n os).1.db :=
      db_attempt (P := Ringed) (fun s _ hdb => ringed_step hdb s) _ n os hring
    have hstored' : StatesStored (reconcileAt w m n os).1.db :=
      (Prog.meets_attempt (meets_writes (reconcile_only (by decide))
        (fun _ _ hs hdb => stored_step hs hdb) hstored) n os).1
    exact (reconcile_verdict hring hstored h).again (reconcile_verdict hring' hstored' h')

end Law

/-- **Recovery after a restart**, on every file that a run can leave whose calls
were cut short or failed anywhere. -/
theorem restart_recovery (ts : List (Prog.Try LifecycleCall Oracle)) (w : String) :
    RecoveryLaw (lifecycleAfter {} ts) w :=
  recoveryLaw (ringed_run (fun v => ⟨0, Db.ringOf_empty v⟩) ts) (stored_run (by decide))

end Calcar.Agent
