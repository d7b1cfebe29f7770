import Mathlib.Algebra.Ring.Nat
import Calcar.Phone.Backoff

/-!
# The backoff of the socket client

A failed dial is to double the delay before the next one.  The counter of the policy is
reset when the factory has handed a channel over, before it is known whether a connection
comes of it, and it counts the failures of a client from its first one on, which has waited
for nothing yet.

## Main results

* `nextDelay_eq` — the delay of the policy.
* `dialer_simulates` — the client that dials is the one of the other modules.
* `tracked_next` — no more than one timer is ever active, and the client knows it.
* `backoff_iff` — in a run the delays and the counter are right just when no step of it is
  one of four kinds.
-/

namespace Calcar.Phone.Socket

open Lib

/-! ## Delays -/

/-- The delay after so many failed dials. -/
def delayAfter (failed : Nat) : Nat :=
  min ReconnectPolicy.maxDelay (ReconnectPolicy.initialDelay * 2 ^ failed)

attribute [grind =] delayAfter

theorem grown_eq (attempts : Nat) :
    ReconnectPolicy.grown attempts = ReconnectPolicy.initialDelay * 2 ^ attempts := by
  induction attempts with
  | zero => rfl
  | succ n ih =>
      rw [ReconnectPolicy.grown, ih, Nat.pow_succ, Nat.mul_left_comm, Nat.mul_comm 2]

/-- **The delay of the policy.** -/
theorem nextDelay_eq (p : ReconnectPolicy) :
    p.nextDelay = (delayAfter p.attempts, ⟨p.attempts + 1⟩) := by
  rw [ReconnectPolicy.nextDelay, grown_eq, delayAfter, Nat.min_def]

theorem delayAfter_zero : delayAfter 0 = ReconnectPolicy.initialDelay := by decide

theorem delayAfter_one : delayAfter 1 = 2 * ReconnectPolicy.initialDelay := by decide

theorem delayAfter_succ (n : Nat) :
    delayAfter (n + 1) = min ReconnectPolicy.maxDelay (2 * delayAfter n) := by
  unfold delayAfter
  rw [Nat.pow_succ, ← Nat.mul_assoc]
  omega

theorem delayAfter_pos (n : Nat) : 0 < delayAfter n := by
  induction n with
  | zero => decide
  | succ n ih =>
      rw [delayAfter_succ]
      simp [ReconnectPolicy.maxDelay]
      omega

theorem delayAfter_le (n : Nat) : delayAfter n ≤ ReconnectPolicy.maxDelay := Nat.min_le_left _ _

/-- Only the largest delay is followed by itself. -/
theorem delayAfter_same (n : Nat) :
    delayAfter n = delayAfter (n + 1) ↔ delayAfter n = ReconnectPolicy.maxDelay := by
  have hpos := delayAfter_pos n
  rw [delayAfter_succ]
  omega

namespace Dialer

variable {d d' : Dialer} {e : DialEvent}

/-! ## One timer -/

/-- At most one timer is active, and it is the one of the field. -/
def Tracked (d : Dialer) : Prop := d.timers = d.reconnectTimer.toList

/-- The client may still dial. -/
def Alive (d : Dialer) : Prop := ¬(d.mounted = false ∨ d.disposed = true)

section Schedule

@[simp] theorem schedule_channel : d.scheduleReconnect.channel = d.channel := by
  unfold scheduleReconnect
  split
  · rfl
  · split <;> rfl

@[simp] theorem schedule_failed : d.scheduleReconnect.failed = d.failed := by
  unfold scheduleReconnect
  split
  · rfl
  · split <;> rfl

@[simp] theorem schedule_dials : d.scheduleReconnect.dials = d.dials := by
  unfold scheduleReconnect
  split
  · rfl
  · split <;> rfl

@[simp] theorem schedule_mounted : d.scheduleReconnect.mounted = d.mounted := by
  unfold scheduleReconnect
  split
  · rfl
  · split <;> rfl

@[simp] theorem schedule_disposed : d.scheduleReconnect.disposed = d.disposed := by
  unfold scheduleReconnect
  split
  · rfl
  · split <;> rfl

theorem timerActive_eq (h : Tracked d) : d.timerActive = d.reconnectTimer.isSome := by
  unfold timerActive
  rw [h]
  cases d.reconnectTimer <;> simp

/-- The delay that the next dial is left with when one has to be scheduled. -/
def owed (d : Dialer) : Nat :=
  match d.reconnectTimer with
  | some timer => timer.delay
  | none => delayAfter d.reconnects.attempts

/-- Scheduling where a timer is active. -/
theorem schedule_active (h : Tracked d) {timer : Timer} (htimer : d.reconnectTimer = some timer) :
    d.scheduleReconnect = d := by
  have hactive : d.timerActive = true := by simp [timerActive_eq h, htimer]
  unfold scheduleReconnect
  rw [if_pos hactive, ite_self]

/-- Scheduling where none is. -/
theorem schedule_idle (h : Tracked d) (halive : Alive d) (hnone : d.reconnectTimer = none) :
    d.scheduleReconnect =
      { d with
        reconnects := ⟨d.reconnects.attempts + 1⟩
        reconnectTimer := some ⟨d.made, delayAfter d.reconnects.attempts⟩
        timers := [⟨d.made, delayAfter d.reconnects.attempts⟩]
        made := d.made + 1 } := by
  have hactive : ¬d.timerActive = true := by simp [timerActive_eq h, hnone]
  have htimers : d.timers = [] := by rw [h, hnone]; rfl
  unfold scheduleReconnect
  rw [if_neg halive, if_neg hactive, nextDelay_eq, htimers]
  rfl

/-- **Scheduling** leaves the timer there is, or makes one. -/
theorem schedule_timer (h : Tracked d) (halive : Alive d) :
    ∃ timer, d.scheduleReconnect.reconnectTimer = some timer ∧ timer.delay = d.owed := by
  unfold owed
  cases htimer : d.reconnectTimer with
  | some timer =>
      rw [schedule_active h htimer]
      exact ⟨timer, htimer, rfl⟩
  | none =>
      rw [schedule_idle h halive htimer]
      exact ⟨_, rfl, rfl⟩

/-- What it counts. -/
theorem schedule_attempts (h : Tracked d) (halive : Alive d) :
    d.scheduleReconnect.reconnects.attempts =
      if d.reconnectTimer = none then d.reconnects.attempts + 1 else d.reconnects.attempts := by
  cases htimer : d.reconnectTimer with
  | some timer =>
      rw [schedule_active h htimer]
      rfl
  | none =>
      rw [schedule_idle h halive htimer]
      rfl

theorem tracked_schedule (h : Tracked d) : Tracked d.scheduleReconnect := by
  by_cases halive : Alive d
  · cases htimer : d.reconnectTimer with
    | some timer => rwa [schedule_active h htimer]
    | none =>
        rw [schedule_idle h halive htimer]
        rfl
  · have hgone : d.scheduleReconnect = d := if_pos (Decidable.not_not.mp halive)
    rw [hgone]
    exact h

end Schedule

theorem tracked_dial (h : Tracked d) (outcome : Dial) : Tracked (d.dial outcome) := by
  cases outcome with
  | threw => exact tracked_schedule (d := { d with dials := d.dials + 1, failed := d.failed + 1 }) h
  | opening => exact h
  | opened => exact h

theorem tracked_connect (h : Tracked d) (outcome : Dial) : Tracked (d.connect outcome) := by
  unfold connect
  split
  · exact h
  · split
    · exact h
    · exact tracked_dial h outcome

theorem tracked_drop (h : Tracked d) : Tracked d.handleDrop := by
  unfold handleDrop
  split
  · exact h
  · exact tracked_schedule (by exact h)

/-- The client whose timer has fired. -/
def fired (d : Dialer) : Dialer := { d with timers := [], reconnectTimer := none }

theorem tracked_fired (d : Dialer) : Tracked d.fired := rfl

/-- No timer is active beside the one that fires. -/
theorem erase_timer (h : Tracked d) {timer : Timer} (htimer : timer ∈ d.timers) :
    d.timers.erase timer = [] := by
  rw [h] at htimer ⊢
  cases hfield : d.reconnectTimer with
  | none => simp [hfield] at htimer
  | some other =>
      rw [hfield, Option.toList_some, List.mem_singleton] at htimer
      simp [htimer]

theorem fire_eq (h : Tracked d) {timer : Timer} (htimer : timer ∈ d.timers) (outcome : Dial) :
    d.fire timer outcome = d.fired.connect outcome := by
  unfold fire
  rw [erase_timer h htimer]
  dsimp only
  split
  · rename_i hgone
    exact (if_pos hgone).symm
  · rfl

theorem tracked_tick (h : Tracked d) (sent : Bool) : Tracked (d.onHeartbeatTick sent) := by
  unfold onHeartbeatTick
  split
  · exact h
  · split
    · exact tracked_drop h
    · dsimp only
      split
      · exact tracked_drop (d := { d with heartbeats := d.heartbeats.tick.1 }) h
      · exact h

theorem tracked_dispose (h : Tracked d) : Tracked d.dispose := by
  unfold dispose
  split
  · exact h
  · unfold Tracked at h ⊢
    rw [h]
    cases d.reconnectTimer <;> simp

/-- **No more than one timer** is active after any step. -/
theorem tracked_next (h : Tracked d) (hnext : d.next e = some d') : Tracked d' := by
  cases e with
  | connect outcome =>
      cases hnext
      exact tracked_connect h outcome
  | established =>
      simp only [next, Option.ite_none_right_eq_some, Option.some.injEq] at hnext
      rcases hnext with ⟨-, rfl⟩
      exact h
  | frame =>
      simp only [next, Option.ite_none_right_eq_some, Option.some.injEq] at hnext
      rcases hnext with ⟨-, rfl⟩
      unfold onRaw
      split <;> exact h
  | closed =>
      simp only [next, Option.ite_none_right_eq_some, Option.some.injEq] at hnext
      rcases hnext with ⟨-, rfl⟩
      exact tracked_drop h
  | tick sent =>
      simp only [next, Option.ite_none_right_eq_some, Option.some.injEq] at hnext
      rcases hnext with ⟨-, rfl⟩
      exact tracked_tick h sent
  | fire timer outcome =>
      simp only [next, Option.ite_none_right_eq_some, Option.some.injEq] at hnext
      rcases hnext with ⟨htimer, rfl⟩
      rw [fire_eq h htimer]
      exact tracked_connect (tracked_fired d) outcome
  | dispose =>
      cases hnext
      exact tracked_dispose h

/-! ## What is claimed of a step, and what it depends on -/

/-- The client has dialled, may dial again, and has no channel. -/
def Waiting (d : Dialer) : Prop := Alive d ∧ d.channel = none ∧ 0 < d.dials

/-- **The backoff law** of a step: no two timers are active, a client that waits has one
whose delay is that of the dials that failed, and the counter goes back to zero only where
a connection is established. -/
structure BacksOff (d : Dialer) (_ : DialEvent) (d' : Dialer) : Prop where
  one : d'.timers.length ≤ 1
  delay : Waiting d' → ∃ timer, d'.timers = [timer] ∧ timer.delay = delayAfter d'.failed
  reset : d.reconnects.attempts ≠ 0 → d'.reconnects.attempts = 0 →
    d'.channel = some .established

/-- The dial that the event comes to, if the client may dial and has no channel. -/
def dialled (d : Dialer) : DialEvent → Option Dial
  | .connect outcome | .fire _ outcome =>
      if d.mounted = true ∧ d.disposed = false ∧ d.channel = none then some outcome else none
  | _ => none

/-- The event loses the channel. -/
def loses (d : Dialer) : DialEvent → Bool
  | .closed => d.mounted && !d.disposed && d.channel.isSome
  | .tick sent =>
      d.mounted && !d.disposed && d.channel.isSome && (!sent || d.heartbeats.tick.2)
  | _ => false

/-- The timers that are active beside the one that fires. -/
def others (d : Dialer) : DialEvent → List Timer
  | .fire timer _ => d.timers.erase timer
  | _ => d.timers

/-- The step is none of four kinds: a channel that is still opening is handed over after
failures; a dial throws before there was anything to count; a dial throws while a timer is
active that is not at the largest delay; a channel is lost that was not established, or
while a timer is active that is not at the first delay. -/
structure Smooth (d : Dialer) (e : DialEvent) (_ : Dialer) : Prop where
  opening : d.dialled e = some .opening → d.reconnects.attempts = 0
  counted : d.dialled e = some .threw → d.reconnects.attempts ≠ 0
  largest : d.dialled e = some .threw →
    ∀ timer ∈ d.others e, timer.delay = ReconnectPolicy.maxDelay
  lost : d.loses e = true → d.channel = some .established ∧
    ∀ timer ∈ d.timers, timer.delay = ReconnectPolicy.initialDelay

/-! ## The invariant -/

/-- How the counter of the policy stands to the dials that failed. -/
structure Counts (d : Dialer) : Prop where
  zero : d.reconnects.attempts = 0 → d.failed = 0
  grown : d.reconnects.attempts ≠ 0 →
    delayAfter d.reconnects.attempts = delayAfter (d.failed + 1)

/-- What holds of a client whose steps have all been smooth. -/
structure Steady (d : Dialer) : Prop where
  tracked : Tracked d
  counts : Counts d
  fresh : d.dials = 0 → d.reconnectTimer = none
  attached : d.channel ≠ none → d.reconnects.attempts = 0 ∧ 0 < d.dials
  waiting : Waiting d → ∃ timer, d.reconnectTimer = some timer ∧
    timer.delay = delayAfter d.failed
  opening : d.channel = some .opening → ∀ timer, d.reconnectTimer = some timer →
    timer.delay = ReconnectPolicy.initialDelay

/-- A client that is about to dial. -/
structure Ready (d : Dialer) : Prop where
  tracked : Tracked d
  counts : Counts d
  alive : Alive d
  idle : d.channel = none
  delay : ∀ timer, d.reconnectTimer = some timer → timer.delay = delayAfter d.failed

/-! ## A dial -/

/-- A client that goes on to wait, with so many dials failed. -/
theorem waits_law {d₀ : Dialer} (h : Tracked d₀) (halive : Alive d₀) :
    (∃ timer, d₀.scheduleReconnect.timers = [timer] ∧ timer.delay = delayAfter d₀.failed) ↔
      d₀.owed = delayAfter d₀.failed := by
  obtain ⟨timer, hfield, hdelay⟩ := schedule_timer h halive
  have htimers : d₀.scheduleReconnect.timers = [timer] := by
    rw [tracked_schedule h, hfield]
    rfl
  rw [htimers, ← hdelay]
  simp

theorem Ready.owed_iff (h : Ready d) :
    d.owed = delayAfter (d.failed + 1) ↔ d.reconnects.attempts ≠ 0 ∧
      ∀ timer ∈ d.timers, timer.delay = ReconnectPolicy.maxDelay := by
  have hzero := h.counts.zero
  have hfirst := delayAfter_zero
  have hsecond := delayAfter_one
  have hinitial : ReconnectPolicy.initialDelay = 1000 := rfl
  have hmax : ReconnectPolicy.maxDelay = 30000 := rfl
  rw [h.tracked]
  unfold owed
  cases htimer : d.reconnectTimer with
  | some timer =>
      have hdelay := h.delay timer htimer
      have hsame := delayAfter_same d.failed
      simp only [Option.toList_some, List.mem_singleton, forall_eq]
      rw [hdelay, hsame, iff_and_self]
      intro hlargest hattempts
      rw [hzero hattempts] at hlargest
      omega
  | none =>
      simp only [Option.toList_none, List.not_mem_nil, false_implies, implies_true, and_true]
      constructor
      · intro howed hattempts
        rw [hattempts, hzero hattempts] at howed
        have hsame : delayAfter 0 = delayAfter 1 := howed
        omega
      · exact h.counts.grown

/-- The counts after a dial that threw with the right delay. -/
theorem Ready.counts_threw (h : Ready d) (howed : d.owed = delayAfter (d.failed + 1)) :
    Counts (d.dial .threw) := by
  have hready : (d.dial .threw).reconnects.attempts =
      if d.reconnectTimer = none then d.reconnects.attempts + 1 else d.reconnects.attempts :=
    schedule_attempts (d := { d with dials := d.dials + 1, failed := d.failed + 1 })
      h.tracked h.alive
  have hfailed : (d.dial .threw).failed = d.failed + 1 := schedule_failed
  have hattempts := (h.owed_iff.mp howed).1
  have hgrown := h.counts.grown hattempts
  constructor
  · intro hzero
    rw [hready] at hzero
    split at hzero <;> omega
  · intro _
    rw [hready, hfailed, delayAfter_succ (d.failed + 1), ← hgrown]
    cases htimer : d.reconnectTimer with
    | some timer =>
        -- the delay is the largest one already
        have hlargest : timer.delay = ReconnectPolicy.maxDelay :=
          (h.owed_iff.mp howed).2 timer (by rw [h.tracked, htimer]; simp)
        have hdelay := h.delay timer htimer
        have hsucc := delayAfter_succ d.failed
        have hle := delayAfter_le d.failed
        rw [if_neg (by simp)]
        omega
    | none => rw [if_pos rfl, delayAfter_succ]

/-- A client that waits after scheduling. -/
theorem waiting_schedule {d₀ : Dialer} (halive : Alive d₀) (hidle : d₀.channel = none)
    (hdials : 0 < d₀.dials) : Waiting d₀.scheduleReconnect := by
  unfold Waiting Alive
  simpa using ⟨by simpa [Alive] using halive, hidle, hdials⟩

theorem tracked_field (h : Tracked d) {timer : Timer} (htimers : d.timers = [timer]) :
    d.reconnectTimer = some timer := by
  rw [h] at htimers
  cases hfield : d.reconnectTimer with
  | none => simp [hfield] at htimers
  | some other => simpa [hfield] using htimers

theorem tracked_one (h : Tracked d) : d.timers.length ≤ 1 := by
  rw [h]
  cases d.reconnectTimer <;> simp

/-- **A dial that throws.** -/
theorem threw_step {d₁ : Dialer} (h : Ready d₁) (hsame : d.reconnects = d₁.reconnects) :
    (BacksOff d e (d₁.dial .threw) ↔ d₁.owed = delayAfter (d₁.failed + 1)) ∧
      (BacksOff d e (d₁.dial .threw) → Steady (d₁.dial .threw)) := by
  let d₀ : Dialer := { d₁ with dials := d₁.dials + 1, failed := d₁.failed + 1 }
  have hdial : d₁.dial .threw = d₀.scheduleReconnect := rfl
  have htracked : Tracked d₀ := h.tracked
  have halive : Alive d₀ := h.alive
  have hwaiting := waiting_schedule halive h.idle (Nat.succ_pos d₁.dials)
  have hwaits := waits_law htracked halive
  have hattempts := schedule_attempts htracked halive
  have hiff : BacksOff d e d₀.scheduleReconnect ↔ d₁.owed = delayAfter (d₁.failed + 1) := by
    constructor
    · intro hbacks
      have hdelay := hbacks.delay hwaiting
      rw [schedule_failed] at hdelay
      exact hwaits.mp hdelay
    · intro howed
      refine ⟨tracked_one (tracked_schedule htracked), fun _ => ?_, fun hne hzero => ?_⟩
      · rw [schedule_failed]
        exact hwaits.mpr howed
      · rw [hsame] at hne
        rw [hattempts] at hzero
        exfalso
        split at hzero
        · omega
        · exact hne hzero
  rw [hdial]
  refine ⟨hiff, fun hbacks => ?_⟩
  have hdelay := hbacks.delay hwaiting
  have hfield := tracked_schedule htracked
  refine ⟨hfield, h.counts_threw (hiff.mp hbacks), ?_, ?_, fun _ => ?_, ?_⟩
  · intro hzero
    exact absurd hzero (Nat.ne_of_gt hwaiting.2.2)
  · intro hchannel
    exact absurd hwaiting.2.1 hchannel
  · rcases hdelay with ⟨timer, htimers, htimer⟩
    exact ⟨timer, tracked_field hfield htimers, htimer⟩
  · intro hopening
    rw [hwaiting.2.1] at hopening
    cases hopening

/-- **A dial that hands over a channel** that is still opening. -/
theorem opening_step {d₁ : Dialer} (h : Ready d₁) (hsame : d.reconnects = d₁.reconnects) :
    (BacksOff d e (d₁.dial .opening) ↔ d.reconnects.attempts = 0) ∧
      (BacksOff d e (d₁.dial .opening) → Steady (d₁.dial .opening)) := by
  have hiff : BacksOff d e (d₁.dial .opening) ↔ d.reconnects.attempts = 0 := by
    constructor
    · intro hbacks
      refine Decidable.byContradiction fun hne => ?_
      have hestablished := hbacks.reset hne rfl
      cases hestablished
    · intro hzero
      refine ⟨tracked_one h.tracked, ?_, fun hne => absurd hzero hne⟩
      rintro ⟨-, hchannel, -⟩
      cases hchannel
  refine ⟨hiff, fun hbacks => ?_⟩
  have hfailed : d₁.failed = 0 := h.counts.zero (by rw [← hsame]; exact hiff.mp hbacks)
  refine ⟨h.tracked, ⟨fun _ => hfailed, fun hne => absurd rfl hne⟩, ?_, ?_, ?_, ?_⟩
  · intro hzero
    exact absurd hzero (Nat.succ_ne_zero d₁.dials)
  · intro _
    exact ⟨rfl, Nat.succ_pos d₁.dials⟩
  · rintro ⟨-, hchannel, -⟩
    cases hchannel
  · intro _ timer htimer
    have hdelay := h.delay timer htimer
    rwa [hfailed, delayAfter_zero] at hdelay

/-- **A dial that connects.** -/
theorem opened_step {d₁ : Dialer} (h : Ready d₁) :
    BacksOff d e (d₁.dial .opened) ∧ Steady (d₁.dial .opened) := by
  constructor
  · refine ⟨tracked_one h.tracked, ?_, fun _ _ => rfl⟩
    rintro ⟨-, hchannel, -⟩
    cases hchannel
  · refine ⟨h.tracked, ⟨fun _ => rfl, fun hne => absurd rfl hne⟩, ?_, ?_, ?_, ?_⟩
    · intro hzero
      exact absurd hzero (Nat.succ_ne_zero d₁.dials)
    · intro _
      exact ⟨rfl, Nat.succ_pos d₁.dials⟩
    · rintro ⟨-, hchannel, -⟩
      cases hchannel
    · intro hopening
      cases hopening

/-! ## A loss -/

/-- The client whose channel is gone. -/
def dropped (d : Dialer) : Dialer :=
  { d with
    channel := none
    failed := if d.channel = some Channel.opening then d.failed + 1 else d.failed }

/-- What is owed behind a loss: the first delay, where a connection was lost. -/
theorem Steady.owed_dropped (h : Steady d) (hchannel : d.channel ≠ none) :
    d.dropped.owed = delayAfter d.dropped.failed ↔ d.channel = some .established ∧
      ∀ timer ∈ d.timers, timer.delay = ReconnectPolicy.initialDelay := by
  have hzero := (h.attached hchannel).1
  have hfailed := h.counts.zero hzero
  have howed : d.dropped.owed =
      match d.reconnectTimer with
      | some timer => timer.delay
      | none => ReconnectPolicy.initialDelay := by
    unfold owed
    cases htimer : d.reconnectTimer with
    | some timer => simp [dropped, htimer]
    | none => simp [dropped, htimer, hzero, delayAfter_zero]
  rw [howed, h.tracked]
  cases hstate : d.channel with
  | none => exact absurd hstate hchannel
  | some channel =>
      cases channel with
      | opening =>
          -- a dial has failed, and what is owed is the delay that no dial has failed for
          have hcount : d.dropped.failed = 1 := by simp [dropped, hstate, hfailed]
          have hone := delayAfter_one
          have hinitial : ReconnectPolicy.initialDelay = 1000 := rfl
          rw [hcount]
          refine iff_of_false (fun hdelay => ?_) (by simp)
          cases htimer : d.reconnectTimer with
          | some timer =>
              have hfirst := h.opening hstate timer htimer
              simp only [htimer] at hdelay
              omega
          | none =>
              simp only [htimer] at hdelay
              omega
      | established =>
          have hcount : d.dropped.failed = 0 := by simp [dropped, hstate, hfailed]
          rw [hcount, delayAfter_zero]
          cases d.reconnectTimer <;> simp

/-- **A channel is lost.** -/
theorem drop_step {d₁ : Dialer} (h : Steady d₁) (halive : Alive d₁) (hchannel : d₁.channel ≠ none)
    (hsame : d.reconnects = d₁.reconnects) :
    (BacksOff d e d₁.handleDrop ↔ d₁.channel = some .established ∧
        ∀ timer ∈ d₁.timers, timer.delay = ReconnectPolicy.initialDelay) ∧
      (BacksOff d e d₁.handleDrop → Steady d₁.handleDrop) := by
  have hdrop : d₁.handleDrop = d₁.dropped.scheduleReconnect := if_neg halive
  have htracked : Tracked d₁.dropped := h.tracked
  have hgone : Alive d₁.dropped := halive
  obtain ⟨hzero, hdials⟩ := h.attached hchannel
  have hfailed := h.counts.zero hzero
  have hwaiting := waiting_schedule hgone rfl hdials
  have hwaits := waits_law htracked hgone
  have hattempts := schedule_attempts htracked hgone
  have hfield := tracked_schedule htracked
  have hiff : BacksOff d e d₁.dropped.scheduleReconnect ↔
      d₁.dropped.owed = delayAfter d₁.dropped.failed := by
    constructor
    · intro hbacks
      have hdelay := hbacks.delay hwaiting
      rw [schedule_failed] at hdelay
      exact hwaits.mp hdelay
    · intro howed
      refine ⟨tracked_one hfield, fun _ => ?_, fun hne => ?_⟩
      · rw [schedule_failed]
        exact hwaits.mpr howed
      · rw [hsame] at hne
        exact absurd hzero hne
  have howed := h.owed_dropped hchannel
  rw [hdrop]
  refine ⟨hiff.trans howed, fun hbacks => ?_⟩
  have hestablished := (howed.mp (hiff.mp hbacks)).1
  have hnone : d₁.dropped.failed = 0 := by simp [dropped, hestablished, hfailed]
  refine ⟨hfield, ⟨fun _ => ?_, fun hne => ?_⟩, ?_, ?_, fun _ => ?_, ?_⟩
  · rw [schedule_failed, hnone]
  · have hone : d₁.dropped.scheduleReconnect.reconnects.attempts = 1 := by
      have hstart : d₁.dropped.reconnects.attempts = 0 := hzero
      rw [hattempts, hstart] at hne ⊢
      split at hne
      · rename_i hidle
        rw [if_pos hidle]
      · exact absurd rfl hne
    rw [hone, schedule_failed, hnone]
  · intro hno
    exact absurd hno (Nat.ne_of_gt hwaiting.2.2)
  · intro hsome
    exact absurd hwaiting.2.1 hsome
  · rcases hbacks.delay hwaiting with ⟨timer, htimers, htimer⟩
    exact ⟨timer, tracked_field hfield htimers, htimer⟩
  · intro hopening
    rw [hwaiting.2.1] at hopening
    cases hopening

/-! ## Steps -/

/-- A step that neither dials nor loses a channel is smooth. -/
theorem smooth_quiet (hdialled : d.dialled e = none) (hloses : d.loses e = false) :
    Smooth d e d' := by
  constructor <;> simp [hdialled, hloses]

/-- Nothing is claimed of a client that does not wait, but of its timers and its counter. -/
theorem backs_quiet (htracked : Tracked d') (hwaiting : ¬Waiting d')
    (hcount : d.reconnects.attempts ≠ 0 → d'.reconnects.attempts ≠ 0) : BacksOff d e d' :=
  ⟨tracked_one htracked, fun h => absurd h hwaiting, fun hne hzero => absurd hzero (hcount hne)⟩

/-- A steady client backs off by itself. -/
theorem Steady.backs (h : Steady d') (hsame : d.reconnects = d'.reconnects) : BacksOff d e d' := by
  refine ⟨tracked_one h.tracked, fun hwaiting => ?_, fun hne hzero => ?_⟩
  · rcases h.waiting hwaiting with ⟨timer, hfield, hdelay⟩
    exact ⟨timer, by rw [h.tracked, hfield]; rfl, hdelay⟩
  · rw [hsame] at hne
    exact absurd hzero hne

/-- A client that may dial and has no channel. -/
def Idle (d : Dialer) : Prop := d.mounted = true ∧ d.disposed = false ∧ d.channel = none

instance : Decidable (Idle d) :=
  inferInstanceAs (Decidable (d.mounted = true ∧ d.disposed = false ∧ d.channel = none))

theorem Idle.alive (h : Idle d) : Alive d := by
  simp [Alive, h.1, h.2.1]

theorem connect_eq (outcome : Dial) :
    d.connect outcome = if Idle d then d.dial outcome else d := by
  by_cases hidle : Idle d
  · have hnone : ¬d.channel.isSome = true := by simp [hidle.2.2]
    rw [if_pos hidle, connect, if_neg hidle.alive, if_neg hnone]
  · rw [if_neg hidle, connect]
    by_cases halive : d.mounted = false ∨ d.disposed = true
    · rw [if_pos halive]
    · have hsome : d.channel.isSome = true := by
        rw [Option.isSome_iff_ne_none]
        intro hnone
        simp only [not_or, Bool.not_eq_false, Bool.not_eq_true] at halive
        exact hidle ⟨halive.1, halive.2, hnone⟩
      rw [if_neg halive, if_pos hsome]

/-- Between its dials a steady client is ready for the next. -/
theorem Steady.ready (h : Steady d) (hidle : Idle d) : Ready d := by
  refine ⟨h.tracked, h.counts, hidle.alive, hidle.2.2, fun timer htimer => ?_⟩
  have hdials : 0 < d.dials := by
    refine Nat.pos_of_ne_zero fun hzero => ?_
    rw [h.fresh hzero] at htimer
    cases htimer
  rcases h.waiting ⟨hidle.alive, hidle.2.2, hdials⟩ with ⟨other, hother, hdelay⟩
  cases htimer.symm.trans hother
  exact hdelay

theorem Ready.fired (h : Ready d) : Ready d.fired :=
  ⟨rfl, ⟨h.counts.zero, h.counts.grown⟩, h.alive, h.idle, by simp [Dialer.fired]⟩

/-- **Any dial** of a client that is ready. -/
theorem dial_step {d₁ : Dialer} {outcome : Dial} (h : Ready d₁)
    (hsame : d.reconnects = d₁.reconnects) (hdialled : d.dialled e = some outcome)
    (hothers : d.others e = d₁.timers) (hloses : d.loses e = false) :
    (BacksOff d e (d₁.dial outcome) ↔ Smooth d e (d₁.dial outcome)) ∧
      (BacksOff d e (d₁.dial outcome) → Steady (d₁.dial outcome)) := by
  cases outcome with
  | threw =>
      obtain ⟨hiff, hsteady⟩ := threw_step (d := d) (e := e) h hsame
      refine ⟨hiff.trans (h.owed_iff.trans ?_), hsteady⟩
      rw [← hsame, ← hothers]
      constructor
      · rintro ⟨hcounted, hlargest⟩
        exact ⟨by simp [hdialled], fun _ => hcounted, fun _ => hlargest, by simp [hloses]⟩
      · intro hsmooth
        exact ⟨hsmooth.counted hdialled, hsmooth.largest hdialled⟩
  | opening =>
      obtain ⟨hiff, hsteady⟩ := opening_step (d := d) (e := e) h hsame
      refine ⟨hiff.trans ?_, hsteady⟩
      constructor
      · intro hzero
        exact ⟨fun _ => hzero, by simp [hdialled], by simp [hdialled], by simp [hloses]⟩
      · intro hsmooth
        exact hsmooth.opening hdialled
  | opened =>
      obtain ⟨hbacks, hsteady⟩ := opened_step (d := d) (e := e) h
      refine ⟨iff_of_true hbacks ?_, fun _ => hsteady⟩
      constructor <;> simp [hdialled, hloses]

/-- Heartbeats are no matter of the backoff. -/
theorem Steady.heartbeats (h : Steady d) (t : HeartbeatTracker) : Steady { d with heartbeats := t } :=
  ⟨h.tracked, ⟨h.counts.zero, h.counts.grown⟩, h.fresh, h.attached, h.waiting, h.opening⟩

/-- **A loss** is smooth where it backs off. -/
theorem loss_step {d₁ : Dialer} (hsteady : Steady d₁) (hsame : d.reconnects = d₁.reconnects)
    (hchannels : d.channel = d₁.channel) (htimers : d.timers = d₁.timers) (halive : Alive d₁)
    (hchannel : d₁.channel ≠ none) (hdialled : d.dialled e = none) (hloses : d.loses e = true) :
    (BacksOff d e d₁.handleDrop ↔ Smooth d e d₁.handleDrop) ∧
      (BacksOff d e d₁.handleDrop → Steady d₁.handleDrop) := by
  obtain ⟨hiff, hafter⟩ := drop_step (d := d) (e := e) hsteady halive hchannel hsame
  refine ⟨hiff.trans ?_, hafter⟩
  rw [← hchannels, ← htimers]
  constructor
  · intro hlost
    exact ⟨by simp [hdialled], by simp [hdialled], by simp [hdialled], fun _ => hlost⟩
  · intro hsmooth
    exact hsmooth.lost hloses

section Events

variable (h : Steady d)
include h

theorem connect_step {outcome : Dial} (hnext : d.next (.connect outcome) = some d') :
    (BacksOff d (.connect outcome) d' ↔ Smooth d (.connect outcome) d') ∧
      (BacksOff d (.connect outcome) d' → Steady d') := by
  rw [next, connect_eq, Option.some.injEq] at hnext
  subst hnext
  by_cases hidle : Idle d
  · rw [if_pos hidle]
    exact dial_step (h.ready hidle) rfl (if_pos hidle) rfl rfl
  · rw [if_neg hidle]
    exact ⟨iff_of_true (h.backs rfl) (smooth_quiet (if_neg hidle) rfl), fun _ => h⟩

theorem fire_step {timer : Timer} {outcome : Dial}
    (hnext : d.next (.fire timer outcome) = some d') :
    (BacksOff d (.fire timer outcome) d' ↔ Smooth d (.fire timer outcome) d') ∧
      (BacksOff d (.fire timer outcome) d' → Steady d') := by
  simp only [next, Option.ite_none_right_eq_some, Option.some.injEq] at hnext
  rcases hnext with ⟨htimer, rfl⟩
  rw [fire_eq h.tracked htimer, connect_eq]
  have hothers : d.others (.fire timer outcome) = [] := erase_timer h.tracked htimer
  by_cases hidle : Idle d
  · have hfired : Idle d.fired := hidle
    rw [if_pos hfired]
    exact dial_step (h.ready hidle).fired rfl (if_pos hidle) hothers rfl
  · have hfired : ¬Idle d.fired := hidle
    rw [if_neg hfired]
    have hwaiting : ¬Waiting d.fired := by
      rintro ⟨halive, hnone, -⟩
      simp only [Alive, not_or, Bool.not_eq_false, Bool.not_eq_true] at halive
      exact hfired ⟨halive.1, halive.2, hnone⟩
    have hsteady : Steady d.fired :=
      ⟨rfl, ⟨h.counts.zero, h.counts.grown⟩, fun _ => rfl, h.attached,
        fun hwait => absurd hwait hwaiting, by simp [fired]⟩
    exact ⟨iff_of_true (hsteady.backs rfl) (smooth_quiet (if_neg hidle) rfl), fun _ => hsteady⟩

theorem established_step (hnext : d.next .established = some d') :
    (BacksOff d .established d' ↔ Smooth d .established d') ∧
      (BacksOff d .established d' → Steady d') := by
  simp only [next, Option.ite_none_right_eq_some, Option.some.injEq] at hnext
  rcases hnext with ⟨hopening, rfl⟩
  have hattached := h.attached (by simp [hopening])
  have hsteady : Steady { d with channel := some .established, failed := 0 } := by
    refine ⟨h.tracked, ⟨fun _ => rfl, fun hne => absurd hattached.1 hne⟩, h.fresh,
      fun _ => hattached, ?_, by simp⟩
    rintro ⟨-, hnone, -⟩
    cases hnone
  exact ⟨iff_of_true (hsteady.backs rfl) (smooth_quiet rfl rfl), fun _ => hsteady⟩

theorem frame_step (hnext : d.next .frame = some d') :
    (BacksOff d .frame d' ↔ Smooth d .frame d') ∧ (BacksOff d .frame d' → Steady d') := by
  simp only [next, Option.ite_none_right_eq_some, Option.some.injEq] at hnext
  rcases hnext with ⟨-, rfl⟩
  unfold onRaw
  split
  · exact ⟨iff_of_true (h.backs rfl) (smooth_quiet rfl rfl), fun _ => h⟩
  · have hsteady := h.heartbeats d.heartbeats.markMessage
    exact ⟨iff_of_true (hsteady.backs rfl) (smooth_quiet rfl rfl), fun _ => hsteady⟩

theorem closed_step (hnext : d.next .closed = some d') :
    (BacksOff d .closed d' ↔ Smooth d .closed d') ∧ (BacksOff d .closed d' → Steady d') := by
  simp only [next, Option.ite_none_right_eq_some, Option.some.injEq] at hnext
  rcases hnext with ⟨hsome, rfl⟩
  have hchannel : d.channel ≠ none := Option.isSome_iff_ne_none.mp hsome
  by_cases halive : Alive d
  · refine loss_step h rfl rfl rfl halive hchannel rfl ?_
    simp only [Alive, not_or, Bool.not_eq_false, Bool.not_eq_true] at halive
    simp [loses, halive, hsome]
  · have hsame : d.handleDrop = d := if_pos (Decidable.not_not.mp halive)
    have hquiet : d.loses .closed = false := by
      rcases Decidable.not_not.mp halive with hgone | hgone <;> simp [loses, hgone]
    rw [hsame]
    exact ⟨iff_of_true (h.backs rfl) (smooth_quiet rfl hquiet), fun _ => h⟩

theorem tick_step {sent : Bool} (hnext : d.next (.tick sent) = some d') :
    (BacksOff d (.tick sent) d' ↔ Smooth d (.tick sent) d') ∧
      (BacksOff d (.tick sent) d' → Steady d') := by
  simp only [next, Option.ite_none_right_eq_some, Option.some.injEq] at hnext
  rcases hnext with ⟨-, rfl⟩
  by_cases hdead : d.mounted = false ∨ d.disposed = true ∨ d.channel = none
  · have hsame : d.onHeartbeatTick sent = d := if_pos hdead
    have hquiet : d.loses (.tick sent) = false := by
      rcases hdead with hgone | hgone | hgone <;> simp [loses, hgone]
    rw [hsame]
    exact ⟨iff_of_true (h.backs rfl) (smooth_quiet rfl hquiet), fun _ => h⟩
  · have hlive := hdead
    simp only [not_or, Bool.not_eq_false, Bool.not_eq_true] at hlive
    have halive : Alive d := by simp [Alive, hlive.1, hlive.2.1]
    have hsome : d.channel.isSome = true := Option.isSome_iff_ne_none.mpr hlive.2.2
    have hloses : d.loses (.tick sent) = (!sent || d.heartbeats.tick.2) := by
      simp [loses, hlive.1, hlive.2.1, hsome]
    unfold onHeartbeatTick
    rw [if_neg hdead]
    cases sent with
    | false =>
        rw [if_pos rfl]
        exact loss_step h rfl rfl rfl halive hlive.2.2 rfl (by simp [hloses])
    | true =>
        have hsteady := h.heartbeats d.heartbeats.tick.1
        rw [if_neg (by simp)]
        dsimp only
        by_cases hdrop : d.heartbeats.tick.2 = true
        · rw [if_pos hdrop]
          exact loss_step hsteady rfl rfl rfl halive hlive.2.2 rfl (by simp [hloses, hdrop])
        · rw [if_neg hdrop]
          exact ⟨iff_of_true (hsteady.backs rfl) (smooth_quiet rfl (by simp [hloses, hdrop])),
            fun _ => hsteady⟩

theorem dispose_step (hnext : d.next .dispose = some d') :
    (BacksOff d .dispose d' ↔ Smooth d .dispose d') ∧ (BacksOff d .dispose d' → Steady d') := by
  have htracked := tracked_next h.tracked hnext
  rw [next, Option.some.injEq] at hnext
  subst hnext
  suffices hsteady : Steady d.dispose ∧ d.reconnects = d.dispose.reconnects from
    ⟨iff_of_true (hsteady.1.backs hsteady.2) (smooth_quiet rfl rfl), fun _ => hsteady.1⟩
  unfold dispose at htracked ⊢
  by_cases hdisposed : d.disposed = true
  · rw [if_pos hdisposed]
    exact ⟨h, rfl⟩
  · rw [if_neg hdisposed] at htracked ⊢
    refine ⟨⟨htracked, ⟨h.counts.zero, h.counts.grown⟩, fun _ => rfl, ?_, ?_, ?_⟩, rfl⟩
    · exact fun hsome => absurd rfl hsome
    · rintro ⟨halive, -, -⟩
      exact absurd (.inl rfl) halive
    · exact fun hopening => absurd hopening (by simp)

end Events

/-- **One step** of a steady client backs off just when it is smooth. -/
theorem backs_step (h : Steady d) (hnext : d.next e = some d') :
    (BacksOff d e d' ↔ Smooth d e d') ∧ (BacksOff d e d' → Steady d') := by
  cases e with
  | connect outcome => exact connect_step h hnext
  | established => exact established_step h hnext
  | frame => exact frame_step h hnext
  | closed => exact closed_step h hnext
  | tick sent => exact tick_step h hnext
  | fire timer outcome => exact fire_step h hnext
  | dispose => exact dispose_step h hnext

/-- **The backoff law.**  In a run of a new client every step backs off, that is, no two
timers are active, a client that waits has a timer of the delay for as many dials as have
failed since a connection was established, and the counter goes back to zero only with a
connection, if and only if every step is smooth. -/
theorem backoff_iff (events : List DialEvent) :
    Every Dialer.next BacksOff {} events ↔ Every Dialer.next Smooth {} events := by
  refine every_iff (P := BacksOff) (Q := Smooth) Steady (fun d e d' h hnext => backs_step h hnext)
    ?_ events
  refine ⟨rfl, ⟨fun _ => rfl, fun hne => absurd rfl hne⟩, fun _ => rfl,
    fun hsome => absurd rfl hsome, ?_, ?_⟩
  · rintro ⟨-, -, hdials⟩
    cases hdials
  · exact fun hopening => absurd hopening (by simp)

namespace Silent

/-- Two channels in a row that are handed over and never open. -/
def events : List DialEvent :=
  [.connect .opening, .closed, .fire ⟨0, 1000⟩ .opening]

/-- The second one, with the counter at zero again. -/
def redialled : Dialer where
  channel := some .opening
  heartbeatTimer := true
  made := 1
  dials := 2
  failed := 1

/-- Two dials have failed, and the next one is due after the first delay. -/
def waiting : Dialer where
  reconnects := ⟨1⟩
  heartbeatTimer := true
  reconnectTimer := some ⟨1, 1000⟩
  timers := [⟨1, 1000⟩]
  made := 2
  dials := 2
  failed := 2

end Silent

/-- Behind two dials that failed in the background the delay is the first one. -/
theorem silent_dials_hurry :
    ¬∀ events : List DialEvent, Every Dialer.next BacksOff {} events := by
  intro h
  have hrun : follow Dialer.next {} Silent.events = some Silent.redialled := by decide
  have hnext : Silent.redialled.next .closed = some Silent.waiting := by decide
  have hbacks := (h (Silent.events ++ [.closed])).last hrun hnext
  have hwaiting : Waiting Silent.waiting := ⟨by simp [Alive, Silent.waiting], rfl, by decide⟩
  rcases hbacks.delay hwaiting with ⟨timer, htimers, hdelay⟩
  cases htimers
  exact absurd hdelay (by decide)

end Dialer

end Calcar.Phone.Socket
