import Calcar.Verified.Backoff

/-!
# The dialer and the client

The dialer is the socket client with its timers and the state of its channel; the client
of the other modules knows the delay of its timer only, and takes a channel for connected
as soon as it is there.  Each step of the dialer is one of the client, but for the moment
at which a connection is established, which the client does not see.

## Main results

* `shadow_next` — one step of both.
* `shadow_run`, `shadow_new` — a run of the dialer is one of the client.
-/

namespace Calcar.Phone.Socket

open Lib

variable {E : Type}

/-- The client holds what the dialer does. -/
structure Shadow (d : Dialer) (c : Client E) : Prop where
  reconnects : c.reconnects = d.reconnects
  heartbeats : c.heartbeats = d.heartbeats
  connected : c.connected = d.channel.isSome
  heartbeatTimer : c.heartbeatTimer = d.heartbeatTimer
  reconnectTimer : c.reconnectTimer = d.reconnectTimer.map Timer.delay
  mounted : c.mounted = d.mounted
  disposed : c.disposed = d.disposed
  dials : c.dials = d.dials

/-- The dial goes through. -/
def Dial.through : Dial → Bool
  | .threw => false
  | .opening => true
  | .opened => true

/-- What the event is to the client. -/
def DialEvent.shadow : DialEvent → Option (Event E)
  | .connect outcome => some (.connect outcome.through)
  | .established => none
  | .frame => some (.frame .ignored)
  | .closed => some .closed
  | .tick sent => some (.tick sent)
  | .fire _ outcome => some (.fire outcome.through)
  | .dispose => some .dispose

section Steps

variable {d d' : Dialer} {c : Client E}

theorem Shadow.gone (h : Shadow d c) :
    (c.mounted = false ∨ c.disposed = true) ↔ (d.mounted = false ∨ d.disposed = true) := by
  rw [h.mounted, h.disposed]

theorem schedule_shadow (h : Shadow d c) (htracked : d.Tracked) :
    Shadow d.scheduleReconnect c.scheduleReconnect := by
  unfold Client.scheduleReconnect
  by_cases hgone : d.mounted = false ∨ d.disposed = true
  · have hsame : d.scheduleReconnect = d := if_pos hgone
    rw [if_pos (h.gone.mpr hgone), hsame]
    exact h
  · have hdelay := h.reconnectTimer
    rw [if_neg (fun hc => hgone (h.gone.mp hc))]
    cases htimer : d.reconnectTimer with
    | some timer =>
        rw [htimer] at hdelay
        rw [Dialer.schedule_active htracked htimer, if_pos (by simp [hdelay])]
        exact h
    | none =>
        rw [htimer] at hdelay
        rw [Dialer.schedule_idle htracked hgone htimer, if_neg (by simp [hdelay]), nextDelay_eq,
          h.reconnects]
        exact ⟨rfl, h.heartbeats, h.connected, h.heartbeatTimer, rfl, h.mounted, h.disposed,
          h.dials⟩

theorem dial_shadow (h : Shadow d c) (htracked : d.Tracked) (outcome : Dial)
    (halive : ¬(c.mounted = false ∨ c.disposed = true)) (hfree : ¬c.connected = true) :
    Shadow (d.dial outcome) (c.connect outcome.through) := by
  have hdials : c.dials + 1 = d.dials + 1 := congrArg (· + 1) h.dials
  unfold Client.connect
  rw [if_neg halive, if_neg hfree]
  cases outcome with
  | threw =>
      refine schedule_shadow (d := { d with dials := d.dials + 1, failed := d.failed + 1 })
        (c := { c with dials := c.dials + 1 }) ?_ htracked
      exact ⟨h.reconnects, h.heartbeats, h.connected, h.heartbeatTimer, h.reconnectTimer,
        h.mounted, h.disposed, hdials⟩
  | opening =>
      exact ⟨rfl, rfl, rfl, rfl, h.reconnectTimer, h.mounted, h.disposed, hdials⟩
  | opened =>
      exact ⟨rfl, rfl, rfl, rfl, h.reconnectTimer, h.mounted, h.disposed, hdials⟩

theorem connect_shadow (h : Shadow d c) (htracked : d.Tracked) (outcome : Dial) :
    Shadow (d.connect outcome) (c.connect outcome.through) := by
  unfold Dialer.connect
  by_cases hgone : d.mounted = false ∨ d.disposed = true
  · have hsame : c.connect outcome.through = c := if_pos (h.gone.mpr hgone)
    rw [if_pos hgone, hsame]
    exact h
  · have halive : ¬(c.mounted = false ∨ c.disposed = true) := fun hc => hgone (h.gone.mp hc)
    rw [if_neg hgone]
    by_cases hsome : d.channel.isSome = true
    · have hsame : c.connect outcome.through = c := by
        rw [Client.connect, if_neg halive, if_pos (by rw [h.connected, hsome])]
      rw [if_pos hsome, hsame]
      exact h
    · rw [if_neg hsome]
      exact dial_shadow h htracked outcome halive (by rw [h.connected]; exact hsome)

theorem drop_shadow (h : Shadow d c) (htracked : d.Tracked) :
    Shadow d.handleDrop c.handleDrop.1 := by
  unfold Dialer.handleDrop Client.handleDrop
  by_cases hgone : d.mounted = false ∨ d.disposed = true
  · rw [if_pos hgone, if_pos (h.gone.mpr hgone)]
    exact h
  · rw [if_neg hgone, if_neg (fun hc => hgone (h.gone.mp hc))]
    refine schedule_shadow (d := d.dropped) (c := { c with connected := false }) ?_ htracked
    exact ⟨h.reconnects, h.heartbeats, rfl, h.heartbeatTimer, h.reconnectTimer, h.mounted,
      h.disposed, h.dials⟩

theorem tick_shadow (h : Shadow d c) (htracked : d.Tracked) (sent : Bool) :
    Shadow (d.onHeartbeatTick sent) (c.onHeartbeatTick sent).1 := by
  have hbeaten : Shadow { d with heartbeats := d.heartbeats.tick.1 }
      { c with heartbeats := c.heartbeats.tick.1 } :=
    ⟨h.reconnects, by rw [h.heartbeats], h.connected, h.heartbeatTimer, h.reconnectTimer,
      h.mounted, h.disposed, h.dials⟩
  have hdead : (c.mounted = false ∨ c.disposed = true ∨ c.connected = false) ↔
      (d.mounted = false ∨ d.disposed = true ∨ d.channel = none) := by
    rw [h.mounted, h.disposed, h.connected]
    cases d.channel <;> simp
  unfold Dialer.onHeartbeatTick Client.onHeartbeatTick
  by_cases hgone : d.mounted = false ∨ d.disposed = true ∨ d.channel = none
  · rw [if_pos hgone, if_pos (hdead.mpr hgone)]
    exact h
  · rw [if_neg hgone, if_neg (fun hc => hgone (hdead.mp hc))]
    cases sent with
    | false => exact drop_shadow h htracked
    | true =>
        simp only [Bool.true_eq_false, if_false]
        by_cases hdrop : d.heartbeats.tick.2 = true
        · rw [if_pos hdrop, if_pos (by rw [h.heartbeats]; exact hdrop)]
          exact drop_shadow hbeaten htracked
        · rw [if_neg hdrop, if_neg (by rw [h.heartbeats]; exact hdrop)]
          exact hbeaten

theorem fire_shadow (h : Shadow d c) (htracked : d.Tracked) {timer : Timer}
    (htimer : timer ∈ d.timers) (outcome : Dial) :
    Shadow (d.fire timer outcome) (c.fire outcome.through) := by
  have hfired : Shadow d.fired { c with reconnectTimer := none } :=
    ⟨h.reconnects, h.heartbeats, h.connected, h.heartbeatTimer, rfl, h.mounted, h.disposed, h.dials⟩
  have hconnect := connect_shadow hfired (Dialer.tracked_fired d) outcome
  rw [Dialer.fire_eq htracked htimer]
  unfold Client.fire
  by_cases hgone : c.mounted = false ∨ c.disposed = true
  · have hsame : ({ c with reconnectTimer := none } : Client E).connect outcome.through =
        { c with reconnectTimer := none } := if_pos hgone
    rw [if_pos hgone, ← hsame]
    exact hconnect
  · rw [if_neg hgone]
    exact hconnect

theorem dispose_shadow (h : Shadow d c) : Shadow d.dispose c.dispose := by
  unfold Dialer.dispose Client.dispose
  by_cases hdisposed : d.disposed = true
  · rw [if_pos hdisposed, if_pos (h.disposed.trans hdisposed)]
    exact h
  · rw [if_neg hdisposed, if_neg (by rw [h.disposed]; exact hdisposed)]
    exact ⟨h.reconnects, h.heartbeats, rfl, rfl, rfl, rfl, rfl, h.dials⟩

theorem frame_shadow (h : Shadow d c) : Shadow d.onRaw (c.onRaw .ignored).1 := by
  unfold Dialer.onRaw Client.onRaw
  by_cases hgone : d.mounted = false ∨ d.disposed = true
  · rw [if_pos hgone, if_pos (h.gone.mpr hgone)]
    exact h
  · rw [if_neg hgone, if_neg (fun hc => hgone (h.gone.mp hc))]
    exact ⟨h.reconnects, congrArg HeartbeatTracker.markMessage h.heartbeats, h.connected,
      h.heartbeatTimer, h.reconnectTimer, h.mounted, h.disposed, h.dials⟩

/-- **One step** of the dialer is one of the client, or none. -/
theorem shadow_next {e : DialEvent} (h : Shadow d c) (htracked : d.Tracked)
    (hnext : d.next e = some d') : ∃ c', follow Client.next c e.shadow.toList = some c' ∧
      Shadow d' c' := by
  cases e with
  | connect outcome =>
      cases hnext
      exact ⟨_, rfl, connect_shadow h htracked outcome⟩
  | established =>
      simp only [Dialer.next, Option.ite_none_right_eq_some, Option.some.injEq] at hnext
      rcases hnext with ⟨hopening, rfl⟩
      have hconnected : c.connected = true := by rw [h.connected, hopening]; rfl
      exact ⟨c, rfl, h.reconnects, h.heartbeats, hconnected, h.heartbeatTimer, h.reconnectTimer,
        h.mounted, h.disposed, h.dials⟩
  | frame =>
      simp only [Dialer.next, Option.ite_none_right_eq_some, Option.some.injEq] at hnext
      rcases hnext with ⟨hchannel, rfl⟩
      have hconnected : c.connected = true := by rw [h.connected, hchannel]; rfl
      exact ⟨_, by simp [DialEvent.shadow, follow, Client.next, Client.step, hconnected],
        frame_shadow h⟩
  | closed =>
      simp only [Dialer.next, Option.ite_none_right_eq_some, Option.some.injEq] at hnext
      rcases hnext with ⟨hchannel, rfl⟩
      have hconnected : c.connected = true := h.connected.trans hchannel
      exact ⟨_, by simp [DialEvent.shadow, follow, Client.next, Client.step, hconnected],
        drop_shadow h htracked⟩
  | tick sent =>
      simp only [Dialer.next, Option.ite_none_right_eq_some, Option.some.injEq] at hnext
      rcases hnext with ⟨hbeats, rfl⟩
      have htimer : c.heartbeatTimer = true := h.heartbeatTimer.trans hbeats
      exact ⟨_, by simp [DialEvent.shadow, follow, Client.next, Client.step, htimer],
        tick_shadow h htracked sent⟩
  | fire timer outcome =>
      simp only [Dialer.next, Option.ite_none_right_eq_some, Option.some.injEq] at hnext
      rcases hnext with ⟨hmem, rfl⟩
      have htimer : c.reconnectTimer.isSome = true := by
        rw [htracked, Option.mem_toList] at hmem
        simp [h.reconnectTimer, hmem]
      exact ⟨_, by simp [DialEvent.shadow, follow, Client.next, Client.step, htimer],
        fire_shadow h htracked hmem outcome⟩
  | dispose =>
      cases hnext
      exact ⟨_, rfl, dispose_shadow h⟩

/-- **A run** of the dialer is one of the client. -/
theorem shadow_run {events : List DialEvent} (h : Shadow d c) (htracked : d.Tracked)
    (hrun : follow Dialer.next d events = some d') :
    ∃ c', follow Client.next c (events.flatMap fun e => e.shadow.toList) = some c' ∧
      Shadow d' c' := by
  induction events generalizing d c with
  | nil =>
      cases hrun
      exact ⟨c, rfl, h⟩
  | cons e events ih =>
      obtain ⟨d₁, hnext, hrest⟩ := follow_cons hrun
      obtain ⟨c₁, hstep, h₁⟩ := shadow_next h htracked hnext
      obtain ⟨c', hmore, h'⟩ := ih h₁ (Dialer.tracked_next htracked hnext) hrest
      exact ⟨c', by rw [List.flatMap_cons, follow_append, hstep]; exact hmore, h'⟩

end Steps

/-- **A new client** does in a run what its dialer does. -/
theorem shadow_new {events : List DialEvent} {d : Dialer} (config : SocketConfig)
    (inboundCapacity : Nat) (hrun : follow Dialer.next {} events = some d) :
    ∃ c : Client E, follow Client.next (.build config inboundCapacity)
      (events.flatMap fun e => e.shadow.toList) = some c ∧ Shadow d c := by
  have hshadow : Shadow {} (Client.build config inboundCapacity : Client E) :=
    ⟨rfl, rfl, rfl, rfl, rfl, rfl, rfl, rfl⟩
  have htracked : Dialer.Tracked {} := rfl
  exact shadow_run hshadow htracked hrun

end Calcar.Phone.Socket
