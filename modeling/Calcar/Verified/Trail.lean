import Calcar.Verified.Recovery

/-!
# The trail of a workflow

The manager writes a state and then appends the event that says why.  Where no
statement fails and every call comes to its end, the two tables tell one story:
the notes on a workflow are pairs of a write and its event, and the events alone
give the state back.

## Main results

* `call_steps` — every call of the manager makes one move, or none.
* `trail_refines_state` — the trail, over every fault-free run.
-/

namespace Calcar.Agent

open Lib

/-! ## Notes on one workflow -/

/-- The notes on workflow `w`. -/
def Mark.on (w : String) : Mark → Bool
  | .wrote v _ => v = w
  | .appended d => d.workflowId = w

/-- A move: the state that is written, and the event that is appended for it. -/
abbrev Move : Type := WorkflowState × EventDraft

/-- The notes on a move. -/
def Move.marks (w : String) (p : Move) : List Mark := [.wrote w p.1.toI32, .appended p.2]

/-- The state that a lifecycle event stands for. -/
def stateOf : EventType → Option WorkflowState
  | .agentStarted => some .running
  | .inputRequired => some .waitingInput
  | .approvalRequired => some .waitingApproval
  | .workflowCompleted => some .completed
  | .errorOccurred => some .failed
  | .workflowStopped => some .stopped
  | _ => none

/-- The events that end a workflow. -/
def EventDraft.terminal (d : EventDraft) : Bool :=
  d.eventType = .workflowCompleted ∨ d.eventType = .errorOccurred ∨ d.eventType = .workflowStopped

theorem stateOf_lifecycleEvent {state : WorkflowState} {ev : EventType}
    (h : lifecycleEvent state = some ev) : stateOf ev = some state := by
  cases state <;> cases h <;> rfl

theorem terminal_lifecycleEvent {state : WorkflowState} {d : EventDraft}
    (h : lifecycleEvent state = some d.eventType) :
    d.terminal = true ↔ state.toI32 ∈ terminalStates := by
  unfold EventDraft.terminal
  generalize d.eventType = ev at h ⊢
  cases state <;> cases h <;> decide

/-- The trail of workflow `w`: what was noted on it, and the state it is in. -/
structure TrailLaw (w : String) (m : Machine) (log : List Mark) (moves : List Move) : Prop where
  /-- Each write is followed by its event before the next write. -/
  paired : log.filter (Mark.on w) = moves.flatMap (Move.marks w)
  /-- The event of a move is the one for its state. -/
  matched : ∀ p, p ∈ moves → lifecycleEvent p.1 = some p.2.eventType
  /-- One event ends the workflow at most, -/
  once : moves.countP (fun p => p.2.terminal) ≤ 1
  /-- and it is the last. -/
  last : ∀ pre p post, moves = pre ++ p :: post → p.2.terminal = true → post = []
  /-- The events from creation on give the stored state. -/
  folds : moves.foldl (fun _ p => stateOf p.2.eventType) none =
    (m.db.getWorkflow w).bind fun row => WorkflowState.fromI32 row.state

/-! ## What a run keeps -/

/-- The trail so far: only the last move may have ended the workflow. -/
structure Trailing (w : String) (x : Watched) (moves : List Move) : Prop where
  paired : x.2.filter (Mark.on w) = moves.flatMap (Move.marks w)
  matched : ∀ p, p ∈ moves → lifecycleEvent p.1 = some p.2.eventType
  open_ : ∀ p, p ∈ moves.dropLast → p.2.terminal = false
  stored : (x.1.db.getWorkflow w).map WorkflowRow.state = moves.getLast?.map fun p => p.1.toI32

section Trailing

variable {w : String} {x y : Watched} {moves : List Move}

theorem Trailing.law (h : Trailing w x moves) : TrailLaw w x.1 x.2 moves := by
  refine ⟨h.paired, h.matched, ?_, fun pre p post heq hp => ?_, ?_⟩
  · have hopen : moves.dropLast.countP (fun p => p.2.terminal) = 0 := by
      rw [List.countP_eq_zero]
      intro p hp hc
      rw [h.open_ p hp] at hc
      cases hc
    by_cases hnil : moves = []
    · rw [hnil]
      exact Nat.zero_le 1
    · rw [← List.dropLast_concat_getLast hnil, List.countP_append, hopen, Nat.zero_add]
      exact List.countP_le_length
  · cases post with
    | nil => rfl
    | cons q qs =>
        have hmem : p ∈ moves.dropLast := by
          rw [heq, List.dropLast_append_of_ne_nil (by simp), List.dropLast_cons_of_ne_nil (by simp)]
          exact List.mem_append_right _ List.mem_cons_self
        rw [h.open_ p hmem] at hp
        cases hp
  · have hstored := h.stored
    by_cases hnil : moves = []
    · subst hnil
      have hnone : x.1.db.getWorkflow w = none := by simpa using hstored
      rw [hnone]
      rfl
    · obtain ⟨pre, p, rfl⟩ : ∃ pre p, moves = pre ++ [p] :=
        ⟨moves.dropLast, moves.getLast hnil, (List.dropLast_concat_getLast hnil).symm⟩
      rw [List.getLast?_append, List.getLast?_singleton, Option.some_or, Option.map_some] at hstored
      obtain ⟨row, hrow, hstate⟩ := Option.map_eq_some_iff.mp hstored
      have hmatched := h.matched p (List.mem_append_right pre List.mem_cons_self)
      rw [List.foldl_append, hrow, Option.bind_some, hstate, WorkflowState.fromI32_toI32]
      exact stateOf_lifecycleEvent hmatched

/-- A move of another workflow is not noted on this one. -/
theorem Trailing.other (h : Trailing w x moves) {v : String} {next : WorkflowState}
    {d : EventDraft} (hmoves : Moves x.1 y.1 v next d)
    (hlog : y.2 = x.2 ++ [.wrote v next.toI32, .appended d]) (hv : v ≠ w) :
    Trailing w y moves := by
  have hd : ¬d.workflowId = w := hmoves.workflow ▸ hv
  refine ⟨?_, h.matched, h.open_, ?_⟩
  · rw [hlog, List.filter_append, h.paired]
    have hnone : [Mark.wrote v next.toI32, Mark.appended d].filter (Mark.on w) = [] := by
      simp [Mark.on, hv, hd]
    rw [hnone, List.append_nil]
  · rw [hmoves.others w fun heq => hv heq.symm]
    exact h.stored

/-- A move of this one comes after moves that did not end it. -/
theorem Trailing.move (h : Trailing w x moves) {next : WorkflowState} {d : EventDraft}
    (hmoves : Moves x.1 y.1 w next d)
    (hlog : y.2 = x.2 ++ [.wrote w next.toI32, .appended d]) :
    Trailing w y (moves ++ [(next, d)]) := by
  have hd : d.workflowId = w := hmoves.workflow
  refine ⟨?_, fun p hp => ?_, fun p hp => ?_, ?_⟩
  · rw [hlog, List.filter_append, h.paired, List.flatMap_append]
    simp [Mark.on, Move.marks, hd]
  · rw [List.mem_append, List.mem_singleton] at hp
    cases hp with
    | inl hp => exact h.matched p hp
    | inr hp => rw [hp]; exact hmoves.event
  · rw [List.dropLast_concat] at hp
    have hstored := h.stored
    by_cases hlast : moves.getLast? = some p
    · rw [hlast, Option.map_some] at hstored
      obtain ⟨row, hrow, hstate⟩ := Option.map_eq_some_iff.mp hstored
      have hlive := hmoves.live row hrow
      rw [hstate] at hlive
      have hiff := terminal_lifecycleEvent (h.matched p hp)
      cases ht : p.2.terminal with
      | false => rfl
      | true => exact absurd (hiff.mp ht) hlive
    · have hmem : p ∈ moves.dropLast := by
        have hnil : moves ≠ [] := List.ne_nil_of_mem hp
        rw [← List.dropLast_concat_getLast hnil, List.mem_append, List.mem_singleton] at hp
        rcases hp with hp | hp
        · exact hp
        · rw [List.getLast?_eq_some_getLast hnil] at hlast
          exact absurd (congrArg some hp.symm) hlast
      exact h.open_ p hmem
  · obtain ⟨row, hrow, hstate⟩ := hmoves.stored
    rw [hrow, List.getLast?_append, List.getLast?_singleton, Option.some_or, Option.map_some,
      Option.map_some, hstate]

theorem Trailing.steps (h : Trailing w x moves) (hsteps : Steps x y) :
    ∃ moves', Trailing w y moves' := by
  obtain ⟨hlog, hsame⟩ | ⟨v, next, d, hmoves, hlog⟩ := hsteps
  · refine ⟨moves, ?_, h.matched, h.open_, ?_⟩
    · rw [hlog]
      exact h.paired
    · rw [hsame]
      exact h.stored
  · by_cases hv : v = w
    · subst hv
      exact ⟨_, h.move hmoves hlog⟩
    · exact ⟨moves, h.other hmoves hlog hv⟩

end Trailing

/-! ## Calls -/

/-- The calls of the manager, and new starts of the process. -/
def LifecycleCall.managed : LifecycleCall → Bool
  | .create _ _ _ _ => true
  | .transition _ _ _ => true
  | .transitionOnDisconnect _ _ _ => true
  | .project _ => true
  | .reconcile _ => true
  | .restart => true
  | _ => false

section Calls

variable {x y : Watched} {w : String}

theorem ReadsOnly.watched_same {c : Cmd} (hc : ReadsOnly c) {calm : Bool} {j : Nat} {o : Oracle}
    {r : c.Ans} (h : watched calm j c o x = some (y, r)) : y = x := by
  have hsame := hc.same o x.1
  unfold watched at h
  cases hf : calm && o.fault with
  | true =>
      rw [hf] at h
      cases h
  | false =>
      rw [hf] at h
      simp only [Bool.false_eq_true, if_false, Option.some.injEq, Prod.mk.injEq] at h
      rw [← h.1, hsame]
      cases c with
      | now => exact Prod.ext rfl (List.append_nil x.2)
      | sql s =>
          cases s with
          | selectWorkflow w => cases o.fault <;> exact Prod.ext rfl (List.append_nil x.2)
          | selectBinding w => cases o.fault <;> exact Prod.ext rfl (List.append_nil x.2)
          | selectEventsAfter w afterSeq limit =>
              cases o.fault <;> exact Prod.ext rfl (List.append_nil x.2)
          | _ => exact absurd hc id
      | _ => exact absurd hc id

theorem watched_project :
    (WorkflowManager.projectOnDisconnect w).Meets (watched true) 0 (fun _ y => Steps x y)
      Anywhere x := by
  have hkeep : (WorkflowManager.projectOnDisconnect w).Meets (watched true) 0
      (fun _ y => y = x) (fun y => y = x) x :=
    (project_only w).meets (fun c o y y' r hc hx hy => (hc.watched_same hx).trans hy) rfl
  exact hkeep.mono (fun _ y hy => hy ▸ .refl x) fun _ _ => trivial

/-- **Every call of the manager makes one move, or none.** -/
theorem call_steps (hring : Ringed x.1.db) (hstored : StatesStored x.1.db) {c : LifecycleCall}
    (hc : c.managed = true) :
    c.code.Meets (watched true) 0 (fun _ y => Steps x y) Anywhere x := by
  have wrap : ∀ {α : Type} {p : Code α} (f : α → LifecycleReply),
      p.Meets (watched true) 0 (fun _ y => Steps x y) Anywhere x →
      (p >>= fun a => .ret (f a)).Meets (watched true) 0 (fun _ y => Steps x y) Anywhere x :=
    fun f hp => Prog.meets_bind (hp.mono (fun _ _ hy _ => ⟨trivial, hy⟩) fun _ hy => hy)
  have htransition : ∀ w next reason, (WorkflowManager.transition w next reason).Meets
      (watched true) 0 (fun _ y => Steps x y) Anywhere x :=
    fun w next reason =>
      (watched_transition hring).mono (fun _ _ hy => hy rfl) fun _ _ => trivial
  cases c with
  | create w provider title session =>
      exact wrap .row ((watched_create hring).mono (fun _ _ hy => hy rfl) fun _ _ => trivial)
  | transition w next reason => exact wrap .row (htransition w next reason)
  | transitionOnDisconnect w next reason =>
      refine wrap .row ?_
      unfold WorkflowManager.transitionOnDisconnect
      by_cases hcompleted : next = .completed
      · rw [if_pos hcompleted]
        exact ⟨trivial, .refl x⟩
      · rw [if_neg hcompleted]
        exact htransition w next reason
  | project w => exact wrap .view watched_project
  | reconcile w =>
      refine wrap .decision ((watched_reconcile hring hstored).mono (fun a y hy => ?_)
        fun _ _ => trivial)
      obtain ⟨hfalse, _⟩ | ⟨_, _, hsame⟩ | ⟨_, _, _, hsteps⟩ := hy
      · cases hfalse
      · exact hsame ▸ .refl x
      · exact hsteps
  | restart =>
      refine ⟨trivial, fun o y r hx => ⟨trivial, ?_⟩⟩
      unfold watched at hx
      cases hf : o.fault with
      | true =>
          rw [hf] at hx
          cases hx
      | false =>
          rw [hf] at hx
          cases hx
          exact .inl ⟨List.append_nil x.2, fun _ => rfl⟩
  | _ => cases hc

end Calls

/-! ## Runs -/

/-- What is noted of a run of calls. -/
def lifecycleLog (m : Machine) (ts : List (Prog.Try LifecycleCall Oracle)) : List Mark :=
  (Prog.afterAll (watched false) LifecycleCall.code (m, []) ts).2

/-- A run of the manager in which no statement fails and every call returns. -/
structure FaultFree (m : Machine) (ts : List (Prog.Try LifecycleCall Oracle)) : Prop where
  managed : ∀ t, t ∈ ts → t.task.managed = true
  calm : ∀ t, t ∈ ts → ∀ k, (t.oracles k).fault = false
  done : ∀ r, r ∈ Prog.replies exec LifecycleCall.code m ts → r.2.isSome = true

section Runs

variable {w : String}

theorem watched_at (t : Prog.Try LifecycleCall Oracle) (x : Watched) :
    (t.at (watched false) LifecycleCall.code x).1.1 = (t.at exec LifecycleCall.code x.1).1 ∧
      (t.at (watched false) LifecycleCall.code x).2 = (t.at exec LifecycleCall.code x.1).2 :=
  watched_erases t.task.code t.steps t.oracles x

theorem watched_after (ts : List (Prog.Try LifecycleCall Oracle)) (x : Watched) :
    (Prog.afterAll (watched false) LifecycleCall.code x ts).1 = lifecycleAfter x.1 ts := by
  induction ts generalizing x with
  | nil => rfl
  | cons t ts ih =>
      have hrest := ih (t.at (watched false) LifecycleCall.code x).1
      rw [(watched_at t x).1] at hrest
      exact hrest

/-- One complete call keeps the trail. -/
theorem trailing_at {x : Watched} {moves : List Move} (hring : Ringed x.1.db)
    (hstored : StatesStored x.1.db) (h : Trailing w x moves)
    {t : Prog.Try LifecycleCall Oracle} (hmanaged : t.task.managed = true)
    (hcalm : ∀ k, (t.oracles k).fault = false)
    (hdone : (t.at exec LifecycleCall.code x.1).2.isSome = true) :
    ∃ moves', Trailing w (t.at (watched false) LifecycleCall.code x).1 moves' := by
  obtain ⟨a, ha⟩ := Option.isSome_iff_exists.mp hdone
  have hsame := watched_calm (j := 0) t.task.code t.steps hcalm x
  have hwatch : (t.task.code.attempt (watched true) 0 t.steps t.oracles x).2 = some a := by
    rw [hsame]
    exact (watched_at t x).2.trans ha
  have hsteps := (Prog.meets_attempt (call_steps hring hstored hmanaged) t.steps t.oracles).2 a
    hwatch
  rw [hsame] at hsteps
  exact h.steps hsteps

theorem trailing_run {ts : List (Prog.Try LifecycleCall Oracle)} {x : Watched}
    {moves : List Move} (hring : Ringed x.1.db) (hstored : StatesStored x.1.db)
    (h : Trailing w x moves) (hts : FaultFree x.1 ts) :
    ∃ moves', Trailing w (Prog.afterAll (watched false) LifecycleCall.code x ts) moves' := by
  induction ts generalizing x moves with
  | nil => exact ⟨moves, h⟩
  | cons t ts ih =>
      have hnext : (t.at (watched false) LifecycleCall.code x).1.1 =
          lifecycleAfter x.1 [t] := (watched_at t x).1
      obtain ⟨moves', h'⟩ := trailing_at hring hstored h (hts.managed t List.mem_cons_self)
        (hts.calm t List.mem_cons_self) (hts.done (t.task, _) List.mem_cons_self)
      refine ih ?_ ?_ h' ⟨fun u hu => hts.managed u (List.mem_cons_of_mem t hu),
        fun u hu => hts.calm u (List.mem_cons_of_mem t hu), fun r hr => ?_⟩
      · rw [hnext]
        exact ringed_run hring [t]
      · rw [hnext]
        exact stored_run hstored
      · rw [hnext] at hr
        exact hts.done r (List.mem_cons_of_mem _ hr)

/-- **The trail refines the state.**  In a run of the manager in which nothing
fails, the notes on a workflow that is new to the file are its state writes, each
followed by its event; one event ends it at most and is the last; and the events
from creation on give the stored state. -/
theorem trail_refines_state (m : Machine) (hring : Ringed m.db) (hstored : StatesStored m.db)
    (ts : List (Prog.Try LifecycleCall Oracle)) (hts : FaultFree m ts) (w : String)
    (hnew : m.db.getWorkflow w = none) :
    ∃ moves, TrailLaw w (lifecycleAfter m ts) (lifecycleLog m ts) moves := by
  have hstart : Trailing w (m, []) [] := by
    refine ⟨rfl, fun p hp => ?_, fun p hp => ?_, ?_⟩
    · cases hp
    · cases hp
    · show (m.db.getWorkflow w).map WorkflowRow.state = none
      rw [hnew]
      rfl
  obtain ⟨moves, h⟩ := trailing_run (x := (m, [])) hring hstored hstart hts
  have hlaw := h.law
  rw [watched_after] at hlaw
  exact ⟨moves, hlaw⟩

/-- A workflow that waits, stays where it is, and ends by recovery. -/
def sampleTrail : List (Prog.Try LifecycleCall Oracle) :=
  [⟨.create "w" .claude "t" none, 20, fun _ => {}⟩,
    ⟨.transition "w" .waitingInput "asks", 20, fun _ => {}⟩,
    ⟨.transition "w" .waitingInput "asks again", 20, fun _ => {}⟩,
    ⟨.reconcile "w", 20, fun _ => {}⟩,
    ⟨.transition "w" .running "late", 20, fun _ => {}⟩]

theorem trail_refines_state_sample :
    (∃ moves, TrailLaw "w" (lifecycleAfter {} sampleTrail) (lifecycleLog {} sampleTrail) moves) ∧
      (lifecycleAfter {} sampleTrail).db.events.map EventRow.type = [1, 6, 6, 7] := by
  have hmanaged : ∀ t, t ∈ sampleTrail → t.task.managed = true := by
    intro t ht
    simp only [sampleTrail, List.mem_cons, List.not_mem_nil, or_false] at ht
    rcases ht with rfl | rfl | rfl | rfl | rfl <;> rfl
  have hcalm : ∀ t, t ∈ sampleTrail → ∀ k, (t.oracles k).fault = false := by
    intro t ht k
    simp only [sampleTrail, List.mem_cons, List.not_mem_nil, or_false] at ht
    rcases ht with rfl | rfl | rfl | rfl | rfl <;> rfl
  have hdone : ∀ r, r ∈ Prog.replies exec LifecycleCall.code {} sampleTrail →
      r.2.isSome = true := by
    have hall : (Prog.replies exec LifecycleCall.code {} sampleTrail).all
        (fun r => r.2.isSome) = true := by decide
    exact fun r hr => List.all_eq_true.mp hall r hr
  exact ⟨trail_refines_state {} (fun v => ⟨0, Db.ringOf_empty v⟩) (by decide) sampleTrail
    ⟨hmanaged, hcalm, hdone⟩ "w" rfl, by decide⟩

end Runs

end Calcar.Agent
