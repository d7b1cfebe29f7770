import Calcar.Phone.Socket

/-!
# Inbound events of the socket client

An event goes into the buffer and onto the events stream.  The stream hands it
to the listener, but nothing takes it out of the buffer: `drain` has no caller,
and `markCaughtUp` and a reconnect leave the items where they are.  A client
therefore takes in `capacity` events in its whole life.

## Main results

* `Books.step` — the buffer holds every event the client ever took in.
* `inbound_delivery` — in a run events are dropped for want of room alone
  exactly where no event comes in beyond the capacity after one was handed over.
-/

namespace Calcar.Phone.Socket

open Lib

variable {E : Type}

namespace Client

/-- What the client took in and what it may do. -/
structure Books (c : Client E) : Prop where
  items : c.buffer.items = c.handed ++ c.stream
  bound : c.buffer.items.length ≤ c.buffer.capacity
  live : c.connected = true → c.mounted = true ∧ c.disposed = false

section Steps

variable {c c' : Client E}

/-- What only moves timers and channels keeps the books. -/
theorem Books.of_same (h : Books c) (hitems : c'.buffer.items = c.buffer.items)
    (hcapacity : c'.buffer.capacity = c.buffer.capacity) (hhanded : c'.handed = c.handed)
    (hstream : c'.stream = c.stream)
    (hlive : c'.connected = true → c'.mounted = true ∧ c'.disposed = false) : Books c' where
  items := by rw [hitems, hhanded, hstream]; exact h.items
  bound := by rw [hitems, hcapacity]; exact h.bound
  live := hlive

/-- Everything but the channel and the timers is the same. -/
structure SameInbound (c c' : Client E) : Prop where
  buffer : c'.buffer = c.buffer
  handed : c'.handed = c.handed
  stream : c'.stream = c.stream

theorem SameInbound.books (h : SameInbound c c') (hbooks : Books c)
    (hlive : c'.connected = true → c'.mounted = true ∧ c'.disposed = false) : Books c' :=
  hbooks.of_same (by rw [h.buffer]) (by rw [h.buffer]) h.handed h.stream hlive

theorem scheduleReconnect_same : SameInbound c c.scheduleReconnect ∧
    c.scheduleReconnect.connected = c.connected ∧ c.scheduleReconnect.mounted = c.mounted ∧
    c.scheduleReconnect.disposed = c.disposed := by
  unfold scheduleReconnect
  by_cases hgone : c.mounted = false ∨ c.disposed = true
  · rw [if_pos hgone]
    exact ⟨⟨rfl, rfl, rfl⟩, rfl, rfl, rfl⟩
  · rw [if_neg hgone]
    by_cases htimer : c.reconnectTimer.isSome = true
    · rw [if_pos htimer]
      exact ⟨⟨rfl, rfl, rfl⟩, rfl, rfl, rfl⟩
    · rw [if_neg htimer]
      exact ⟨⟨rfl, rfl, rfl⟩, rfl, rfl, rfl⟩

theorem connect_books (h : Books c) (dial : Bool) :
    Books (c.connect dial) ∧ SameInbound c (c.connect dial) := by
  unfold connect
  by_cases hgone : c.mounted = false ∨ c.disposed = true
  · rw [if_pos hgone]
    exact ⟨h, rfl, rfl, rfl⟩
  · rw [if_neg hgone]
    by_cases hconnected : c.connected = true
    · rw [if_pos hconnected]
      exact ⟨h, rfl, rfl, rfl⟩
    · rw [if_neg hconnected]
      cases dial with
      | true =>
          have hsame : SameInbound c { c with
              dials := c.dials + 1
              connected := true
              reconnects := {}
              heartbeats := {}
              heartbeatTimer := true } := ⟨rfl, rfl, rfl⟩
          refine ⟨hsame.books h fun _ => ?_, hsame⟩
          simpa using hgone
      | false =>
          obtain ⟨hsame, hc, hm, hd⟩ :=
            scheduleReconnect_same (c := { c with dials := c.dials + 1 })
          have hinbound : SameInbound c ({ c with dials := c.dials + 1 } : Client E).scheduleReconnect :=
            ⟨hsame.buffer, hsame.handed, hsame.stream⟩
          refine ⟨hinbound.books h fun hlive => ?_, hinbound⟩
          exact absurd (hc.symm.trans hlive) hconnected

theorem handleDrop_books (h : Books c) :
    Books c.handleDrop.1 ∧ SameInbound c c.handleDrop.1 := by
  unfold handleDrop
  by_cases hgone : c.mounted = false ∨ c.disposed = true
  · rw [if_pos hgone]
    exact ⟨h, rfl, rfl, rfl⟩
  · rw [if_neg hgone]
    obtain ⟨hsame, hc, hm, hd⟩ := scheduleReconnect_same (c := { c with connected := false })
    have hinbound : SameInbound c ({ c with connected := false } : Client E).scheduleReconnect :=
      ⟨hsame.buffer, hsame.handed, hsame.stream⟩
    refine ⟨hinbound.books h fun hlive => ?_, hinbound⟩
    cases hc.symm.trans hlive

theorem onHeartbeatTick_books (h : Books c) (sent : Bool) :
    Books (c.onHeartbeatTick sent).1 ∧ SameInbound c (c.onHeartbeatTick sent).1 := by
  unfold onHeartbeatTick
  by_cases hgone : c.mounted = false ∨ c.disposed = true ∨ c.connected = false
  · rw [if_pos hgone]
    exact ⟨h, rfl, rfl, rfl⟩
  · rw [if_neg hgone]
    by_cases hsent : sent = false
    · rw [if_pos hsent]
      exact handleDrop_books h
    · rw [if_neg hsent]
      have hticked : Books { c with heartbeats := c.heartbeats.tick.1 } :=
        h.of_same rfl rfl rfl rfl h.live
      by_cases hdrop : c.heartbeats.tick.2 = true
      · simp only [if_pos hdrop]
        obtain ⟨hbooks, hsame⟩ := handleDrop_books hticked
        exact ⟨hbooks, hsame.buffer, hsame.handed, hsame.stream⟩
      · simp only [if_neg hdrop]
        exact ⟨hticked, rfl, rfl, rfl⟩

theorem fire_books (h : Books c) (dial : Bool) :
    Books (c.fire dial) ∧ SameInbound c (c.fire dial) := by
  have hidle : Books { c with reconnectTimer := none } := h.of_same rfl rfl rfl rfl h.live
  unfold fire
  by_cases hgone : c.mounted = false ∨ c.disposed = true
  · simp only [if_pos hgone]
    exact ⟨hidle, rfl, rfl, rfl⟩
  · simp only [if_neg hgone]
    obtain ⟨hbooks, hsame⟩ := connect_books hidle dial
    exact ⟨hbooks, hsame.buffer, hsame.handed, hsame.stream⟩

theorem dispose_books (h : Books c) : Books c.dispose ∧ SameInbound c c.dispose := by
  unfold Client.dispose
  by_cases hd : c.disposed = true
  · rw [if_pos hd]
    exact ⟨h, rfl, rfl, rfl⟩
  · rw [if_neg hd]
    refine ⟨h.of_same rfl rfl rfl rfl fun hlive => ?_, rfl, rfl, rfl⟩
    cases hlive

/-- An event where there is room. -/
theorem onEvent_room (event : E) (hroom : c.buffer.items.length < c.buffer.capacity) :
    (c.onEvent event).1 = { c with
      buffer := { c.buffer with items := c.buffer.items ++ [event] }
      stream := c.stream ++ [event] } := by
  have hfull : ¬c.buffer.capacity ≤ c.buffer.items.length := Nat.not_le.2 hroom
  simp [onEvent, InboundBuffer.add, hfull]

/-- An event where there is none: it is counted, and nothing else is kept of it. -/
theorem onEvent_full (event : E) (hfull : c.buffer.capacity ≤ c.buffer.items.length) :
    SameInbound { c with buffer := { c.buffer with
        dropped := c.buffer.dropped + 1, needsCatchup := true } } (c.onEvent event).1 ∧
      (c.onEvent event).1.connected = c.connected ∧ (c.onEvent event).1.mounted = c.mounted ∧
      (c.onEvent event).1.disposed = c.disposed := by
  cases hnotified : c.notifiedCatchup with
  | true => simpa [onEvent, InboundBuffer.add, hfull, hnotified] using ⟨rfl, rfl, rfl⟩
  | false => simpa [onEvent, InboundBuffer.add, hfull, hnotified] using ⟨rfl, rfl, rfl⟩

theorem onRaw_live (h : Books c) (hconnected : c.connected = true) :
    ¬(c.mounted = false ∨ c.disposed = true) := by
  obtain ⟨hmounted, hdisposed⟩ := h.live hconnected
  simp [hmounted, hdisposed]

/-- An event on a channel that is attached. -/
theorem onRaw_event (h : Books c) (hconnected : c.connected = true) (event : E) :
    c.onRaw (.event event) =
      ({ c with heartbeats := c.heartbeats.markMessage } : Client E).onEvent event := by
  unfold onRaw
  rw [if_neg (onRaw_live h hconnected)]

/-- Any other message. -/
theorem onRaw_other (h : Books c) (hconnected : c.connected = true) {raw : Frame E}
    (hevent : ∀ event, raw ≠ .event event) :
    c.onRaw raw = ({ c with heartbeats := c.heartbeats.markMessage }, []) := by
  unfold onRaw
  rw [if_neg (onRaw_live h hconnected)]
  cases raw with
  | ignored => rfl
  | heartbeat => rfl
  | event event => exact absurd rfl (hevent event)

end Steps

/-! ## The law -/

/-- An event is dropped only if `capacity` events have not been handed over yet,
and one that finds fewer is put on the stream. -/
structure Delivers (c : Client E) (e : Event E) (c' : Client E) : Prop where
  drops : c'.buffer.dropped ≠ c.buffer.dropped → c.buffer.capacity ≤ c.stream.length
  takes (event : E) : e = .frame (.event event) → c.stream.length < c.buffer.capacity →
    c'.stream = c.stream ++ [event]

/-- An event comes in while nothing was handed over, or fewer events than the
capacity were taken in so far. -/
def Room (c : Client E) (e : Event E) (_ : Client E) : Prop :=
  ∀ event, e = .frame (.event event) →
    c.handed = [] ∨ c.handed.length + c.stream.length < c.buffer.capacity

section Law

variable {c c' : Client E}

theorem SameInbound.delivers {e : Event E} (h : SameInbound c c')
    (hevent : ∀ event, e ≠ .frame (.event event)) : Delivers c e c' where
  drops := fun hdrops => absurd (by rw [h.buffer]) hdrops
  takes := fun event heq => absurd heq (hevent event)

theorem event_step (h : Books c) {event : E} (hnext : c.next (.frame (.event event)) = some c') :
    (Delivers c (.frame (.event event)) c' ↔ Room c (.frame (.event event)) c') ∧ Books c' := by
  obtain ⟨out, hstep, rfl⟩ := Option.map_eq_some_iff.1 hnext
  rw [step] at hstep
  obtain ⟨hconnected, hstep⟩ := Option.ite_none_right_eq_some.1 hstep
  rw [onRaw_event h hconnected] at hstep
  have hout := Option.some.inj hstep
  have hlength : c.buffer.items.length = c.handed.length + c.stream.length := by
    rw [h.items, List.length_append]
  by_cases hfull : c.buffer.capacity ≤ c.buffer.items.length
  · obtain ⟨hsame, hc, hm, hd⟩ :=
      onEvent_full (c := { c with heartbeats := c.heartbeats.markMessage }) event hfull
    rw [← hout]
    refine ⟨⟨?_, ?_⟩, h.of_same (by rw [hsame.buffer]) (by rw [hsame.buffer]) hsame.handed
      hsame.stream ?_⟩
    · intro hdelivers event' _
      have hcapacity := hdelivers.drops (by rw [hsame.buffer]; exact Nat.succ_ne_self _)
      have hbound := h.bound
      refine .inl (List.eq_nil_of_length_eq_zero ?_)
      omega
    · intro hroom
      have hcapacity : c.buffer.capacity ≤ c.stream.length := by
        cases hroom event rfl with
        | inl hnone =>
            rw [hnone, List.length_nil, Nat.zero_add] at hlength
            rwa [hlength] at hfull
        | inr hless => omega
      exact ⟨fun _ => hcapacity, fun event' _ hless => absurd hcapacity (Nat.not_le.2 hless)⟩
    · rw [hc, hm, hd]
      exact h.live
  · have hroom : c.buffer.items.length < c.buffer.capacity := Nat.not_le.1 hfull
    have htaken := onEvent_room (c := { c with heartbeats := c.heartbeats.markMessage }) event hroom
    rw [← hout, htaken]
    refine ⟨iff_of_true ⟨fun hdrops => absurd rfl hdrops, ?_⟩ ?_, ?_, ?_, h.live⟩
    · intro event' heq _
      cases heq
      rfl
    · intro event' _
      exact .inr (by rwa [← hlength])
    · show c.buffer.items ++ [event] = c.handed ++ (c.stream ++ [event])
      rw [h.items, List.append_assoc]
    · show (c.buffer.items ++ [event]).length ≤ c.buffer.capacity
      rw [List.length_append]
      exact hroom

theorem consume_step (h : Books c) (hnext : c.next .consume = some c') :
    Delivers c .consume c' ∧ Books c' := by
  obtain ⟨out, hstep, rfl⟩ := Option.map_eq_some_iff.1 hnext
  have hconsume : c.consume = some out := hstep
  unfold consume at hconsume
  cases hstream : c.stream with
  | nil =>
      rw [hstream] at hconsume
      cases hconsume
  | cons first rest =>
      rw [hstream] at hconsume
      cases hconsume
      refine ⟨⟨fun hdrops => absurd rfl hdrops, fun event heq => by cases heq⟩, ?_, h.bound, h.live⟩
      show c.buffer.items = c.handed ++ [first] ++ rest
      rw [h.items, hstream, List.append_assoc]
      rfl

/-- **The buffer holds every event the client ever took in**, after each step,
and whether the step delivers is up to its room. -/
theorem Books.step {e : Event E} (h : Books c) (hnext : c.next e = some c') :
    (Delivers c e c' ↔ Room c e c') ∧ Books c' := by
  have helse (hevent : ∀ event, e ≠ .frame (.event event)) (hsame : SameInbound c c')
      (hbooks : Books c') : (Delivers c e c' ↔ Room c e c') ∧ Books c' :=
    ⟨iff_of_true (hsame.delivers hevent) fun event heq => absurd heq (hevent event), hbooks⟩
  cases e with
  | connect dial =>
      cases hnext
      obtain ⟨hbooks, hsame⟩ := connect_books h dial
      exact helse (fun event heq => by cases heq) hsame hbooks
  | frame raw =>
      by_cases hevent : ∃ event, raw = .event event
      · obtain ⟨event, rfl⟩ := hevent
        exact event_step h hnext
      · obtain ⟨out, hstep, rfl⟩ := Option.map_eq_some_iff.1 hnext
        have hother : ∀ event, raw ≠ .event event := fun event heq => hevent ⟨event, heq⟩
        rw [Client.step] at hstep
        obtain ⟨hc, hout⟩ := Option.ite_none_right_eq_some.1 hstep
        rw [onRaw_other h hc hother] at hout
        cases hout
        refine helse (fun event heq => ?_) ⟨rfl, rfl, rfl⟩ (h.of_same rfl rfl rfl rfl h.live)
        cases heq
        exact hother event rfl
  | closed =>
      obtain ⟨out, hstep, rfl⟩ := Option.map_eq_some_iff.1 hnext
      rw [Client.step] at hstep
      cases (Option.ite_none_right_eq_some.1 hstep).2
      obtain ⟨hbooks, hsame⟩ := handleDrop_books h
      exact helse (fun event heq => by cases heq) hsame hbooks
  | tick sent =>
      obtain ⟨out, hstep, rfl⟩ := Option.map_eq_some_iff.1 hnext
      rw [Client.step] at hstep
      cases (Option.ite_none_right_eq_some.1 hstep).2
      obtain ⟨hbooks, hsame⟩ := onHeartbeatTick_books h sent
      exact helse (fun event heq => by cases heq) hsame hbooks
  | fire dial =>
      obtain ⟨out, hstep, rfl⟩ := Option.map_eq_some_iff.1 hnext
      rw [Client.step] at hstep
      cases (Option.ite_none_right_eq_some.1 hstep).2
      obtain ⟨hbooks, hsame⟩ := fire_books h dial
      exact helse (fun event heq => by cases heq) hsame hbooks
  | consume =>
      obtain ⟨hdelivers, hbooks⟩ := consume_step h hnext
      exact ⟨iff_of_true hdelivers (fun event heq => by cases heq), hbooks⟩
  | markCaughtUp =>
      cases hnext
      have hdelivers : Delivers c .markCaughtUp c.markCaughtUp :=
        ⟨fun hdrops => absurd rfl hdrops, fun event heq => by cases heq⟩
      exact ⟨iff_of_true hdelivers (fun event heq => by cases heq),
        h.of_same rfl rfl rfl rfl h.live⟩
  | dispose =>
      cases hnext
      obtain ⟨hbooks, hsame⟩ := dispose_books h
      exact helse (fun event heq => by cases heq) hsame hbooks

end Law

/-- **Inbound delivery.** In a run of a new client events are dropped for want
of room alone, and every other event is put on the stream, if and only if every
event comes in while nothing was handed over or fewer events than the capacity
were taken in over the whole run. -/
theorem inbound_delivery (config : SocketConfig) (inboundCapacity : Nat)
    (events : List (Event E)) :
    Every Client.next Delivers (build config inboundCapacity) events ↔
      Every Client.next Room (build config inboundCapacity) events := by
  refine every_iff (P := Delivers) (Q := Room) Books
    (fun c e c' h hnext => ⟨(h.step hnext).1, fun _ => (h.step hnext).2⟩) ⟨?_, ?_, ?_⟩ events
  · rfl
  · exact Nat.zero_le _
  · intro hlive
    cases hlive

end Client

namespace Undrained

def config : SocketConfig := ⟨"wss://pc", "U-1", "token"⟩

/-- A capacity of one; the first event is handed over at once. -/
def before : List (Event Nat) := [.connect true, .frame (.event 1), .consume, .markCaughtUp]

def last : Event Nat := .frame (.event 2)

def shown : Client Nat where
  config := config
  buffer := { capacity := 1, items := [1] }
  heartbeats := ⟨0, true⟩
  connected := true
  heartbeatTimer := true
  handed := [1]
  dials := 1

end Undrained

/-- An event is dropped although every event before it was handed over. -/
theorem undrained_drops :
    ¬∀ (config : SocketConfig) (inboundCapacity : Nat), 0 < inboundCapacity →
      ∀ events : List (Event Nat),
        Every Client.next Client.Delivers (Client.build config inboundCapacity) events := by
  intro h
  have hrun : follow Client.next (Client.build Undrained.config 1) Undrained.before =
      some Undrained.shown := by decide
  have hstep : Undrained.shown.next Undrained.last =
      some ((Undrained.shown.next Undrained.last).get (by decide)) := by
    rw [Option.some_get]
  have hdelivers := (h Undrained.config 1 (by decide)
    (Undrained.before ++ [Undrained.last])).last hrun hstep
  have hcapacity := hdelivers.drops (by decide)
  exact absurd hcapacity (by decide)

end Calcar.Phone.Socket
