import Calcar.Phone.Realtime

/-!
# Rotations of the realtime binding

A call of `updateConfig` during a rotation is handed the future of the rotation
and nothing else comes of it.  If it asked for another configuration, that one
is never dialled.

## Main results

* `step_owner`, `step_gone` — what happens to a client by itself keeps its
  configuration, and a client that was disposed of never dials.
* `rotation_settles` — in a run the binding ends on the configuration that was
  asked for last exactly where no rotation drops the last request it was joined
  by.
-/

namespace Calcar.Phone

open Lib

/-! ## Clients -/

namespace Socket.Client

variable {E : Type} {c : Client E}

/-- The client is still the one its binding built, and no more disposed of. -/
structure SameOwner (c c' : Client E) : Prop where
  config : c'.config = c.config
  disposed : c'.disposed = c.disposed

theorem scheduleReconnect_owner : SameOwner c c.scheduleReconnect := by
  unfold scheduleReconnect
  split
  · exact ⟨rfl, rfl⟩
  · split <;> exact ⟨rfl, rfl⟩

theorem connect_owner (dial : Bool) : SameOwner c (c.connect dial) := by
  unfold connect
  by_cases hgone : c.mounted = false ∨ c.disposed = true
  · rw [if_pos hgone]
    exact ⟨rfl, rfl⟩
  · rw [if_neg hgone]
    by_cases hconnected : c.connected = true
    · rw [if_pos hconnected]
      exact ⟨rfl, rfl⟩
    · rw [if_neg hconnected]
      cases dial with
      | true => exact ⟨rfl, rfl⟩
      | false =>
          have h := scheduleReconnect_owner (c := { c with dials := c.dials + 1 })
          exact ⟨h.config, h.disposed⟩

theorem handleDrop_owner : SameOwner c c.handleDrop.1 := by
  unfold handleDrop
  split
  · exact ⟨rfl, rfl⟩
  · have h := scheduleReconnect_owner (c := { c with connected := false })
    exact ⟨h.config, h.disposed⟩

theorem onHeartbeatTick_owner (sent : Bool) : SameOwner c (c.onHeartbeatTick sent).1 := by
  unfold onHeartbeatTick
  split
  · exact ⟨rfl, rfl⟩
  · split
    · exact handleDrop_owner
    · by_cases hdrop : c.heartbeats.tick.2 = true
      · simp only [if_pos hdrop]
        have h := handleDrop_owner (c := { c with heartbeats := c.heartbeats.tick.1 })
        exact ⟨h.config, h.disposed⟩
      · simp only [if_neg hdrop]
        exact ⟨rfl, rfl⟩

theorem onEvent_owner (event : E) : SameOwner c (c.onEvent event).1 := by
  unfold onEvent
  dsimp only
  split
  · split <;> exact ⟨rfl, rfl⟩
  · exact ⟨rfl, rfl⟩

theorem onRaw_owner (raw : Frame E) : SameOwner c (c.onRaw raw).1 := by
  unfold onRaw
  by_cases hgone : c.mounted = false ∨ c.disposed = true
  · rw [if_pos hgone]
    exact ⟨rfl, rfl⟩
  · rw [if_neg hgone]
    cases raw with
    | ignored => exact ⟨rfl, rfl⟩
    | heartbeat => exact ⟨rfl, rfl⟩
    | event event =>
        have h := onEvent_owner (c := { c with heartbeats := c.heartbeats.markMessage }) event
        exact ⟨h.config, h.disposed⟩

theorem fire_owner (dial : Bool) : SameOwner c (c.fire dial) := by
  unfold fire
  split
  · exact ⟨rfl, rfl⟩
  · have h := connect_owner (c := { c with reconnectTimer := none }) dial
    exact ⟨h.config, h.disposed⟩

theorem consume_cases {out : Client E × List (Signal E)} (h : c.consume = some out) :
    out.1.config = c.config ∧ out.1.disposed = c.disposed ∧ out.1.dials = c.dials := by
  unfold consume at h
  cases hstream : c.stream with
  | nil =>
      rw [hstream] at h
      cases h
  | cons first rest =>
      rw [hstream] at h
      cases h
      exact ⟨rfl, rfl, rfl⟩

/-- **What happens to a client by itself keeps its configuration.** -/
theorem step_owner {e : Socket.Event E} (hdispose : e ≠ .dispose)
    {out : Client E × List (Signal E)} (h : c.step e = some out) : SameOwner c out.1 := by
  cases e with
  | connect dial =>
      cases h
      exact connect_owner dial
  | frame raw =>
      rw [← Option.some.inj (Option.ite_none_right_eq_some.1 h).2]
      exact onRaw_owner raw
  | closed =>
      rw [← Option.some.inj (Option.ite_none_right_eq_some.1 h).2]
      exact handleDrop_owner
  | tick sent =>
      rw [← Option.some.inj (Option.ite_none_right_eq_some.1 h).2]
      exact onHeartbeatTick_owner sent
  | fire dial =>
      rw [← Option.some.inj (Option.ite_none_right_eq_some.1 h).2]
      exact fire_owner dial
  | consume =>
      obtain ⟨hconfig, hdisposed, -⟩ := consume_cases h
      exact ⟨hconfig, hdisposed⟩
  | markCaughtUp =>
      cases h
      exact ⟨rfl, rfl⟩
  | dispose => exact absurd rfl hdispose

/-- **A client that was disposed of never dials.** -/
theorem step_gone (hgone : c.disposed = true) {e : Socket.Event E}
    {out : Client E × List (Signal E)} (h : c.step e = some out) :
    out.1.disposed = true ∧ out.1.dials = c.dials := by
  have hguard : c.mounted = false ∨ c.disposed = true := .inr hgone
  cases e with
  | connect dial =>
      cases h
      unfold connect
      rw [if_pos hguard]
      exact ⟨hgone, rfl⟩
  | frame raw =>
      rw [← Option.some.inj (Option.ite_none_right_eq_some.1 h).2]
      unfold onRaw
      rw [if_pos hguard]
      exact ⟨hgone, rfl⟩
  | closed =>
      rw [← Option.some.inj (Option.ite_none_right_eq_some.1 h).2]
      unfold handleDrop
      rw [if_pos hguard]
      exact ⟨hgone, rfl⟩
  | tick sent =>
      rw [← Option.some.inj (Option.ite_none_right_eq_some.1 h).2]
      unfold onHeartbeatTick
      rw [if_pos (.inr (.inl hgone))]
      exact ⟨hgone, rfl⟩
  | fire dial =>
      rw [← Option.some.inj (Option.ite_none_right_eq_some.1 h).2]
      unfold fire
      dsimp only
      rw [if_pos hguard]
      exact ⟨hgone, rfl⟩
  | consume =>
      obtain ⟨-, hdisposed, hdials⟩ := consume_cases h
      exact ⟨hdisposed.trans hgone, hdials⟩
  | markCaughtUp =>
      cases h
      exact ⟨hgone, rfl⟩
  | dispose =>
      cases h
      unfold dispose
      rw [if_pos hgone]
      exact ⟨hgone, rfl⟩

theorem dispose_disposed : c.dispose.disposed = true := by
  unfold dispose
  by_cases hgone : c.disposed = true
  · rw [if_pos hgone]
    exact hgone
  · rw [if_neg hgone]

theorem dispose_config : c.dispose.config = c.config := by
  unfold dispose
  split <;> rfl

end Socket.Client

namespace Realtime

open Socket

/-! ## The law -/

/-- The dials of the clients. -/
def Binding.dials (b : Binding) : List Nat := b.clients.map Client.dials

/-- After the step a binding without a rotation uses what was asked for last, one
client at most is live, and a binding that was disposed of has not dialled. -/
structure Rotates (b : Binding) (_ : Event) (b' : Binding) : Prop where
  settled : b'.rotation = false → b'.disposed = false → b'.socket.config = b'.requested
  single : (b'.clients.filter fun client => client.disposed = false).length ≤ 1
  silent : b.disposed = true → b'.dials = b.dials

/-- A rotation that ends was for the configuration asked for last while it was
under way, if any was. -/
def Joined (b : Binding) (e : Event) (_ : Binding) : Prop :=
  e = .rotated → b.disposed = false → ∀ last, b.asked.getLast? = some last → last = b.config

/-- How the fields of a binding belong together. -/
structure Wired (b : Binding) : Prop where
  config : b.socket.config = b.config
  stale : ∀ client ∈ b.stale, client.disposed = true
  gone : b.disposed = true → b.socket.disposed = true
  asked : b.rotation = false → b.asked = []
  requested : b.disposed = false → b.requested = b.asked.getLast?.getD b.config

section Steps

variable {b b' : Binding}

theorem Wired.single (h : Wired b) :
    (b.clients.filter fun client => client.disposed = false).length ≤ 1 := by
  have hnone : b.stale.filter (fun client => client.disposed = false) = [] := by
    rw [List.filter_eq_nil_iff]
    intro client hmem
    simp [h.stale client hmem]
  unfold Binding.clients
  rw [List.filter_cons, hnone]
  split <;> simp

theorem Wired.settled (h : Wired b) (hrotation : b.rotation = false) (hlive : b.disposed = false) :
    b.socket.config = b.requested := by
  rw [h.config, h.requested hlive, h.asked hrotation]
  rfl

/-- A step that keeps the fields together is one that rotates. -/
theorem Wired.rotates {e : Event} (h : Wired b') (hsilent : b.disposed = true → b'.dials = b.dials) :
    Rotates b e b' where
  settled := h.settled
  single := h.single
  silent := hsilent

theorem mount_wired (h : Wired b) (dial : Bool) :
    Wired (b.mount dial) ∧ (b.disposed = true → (b.mount dial).dials = b.dials) := by
  unfold Binding.mount
  by_cases hguard : b.mounted = true ∨ b.disposed = true
  · rw [if_pos hguard]
    exact ⟨h, fun _ => rfl⟩
  · rw [if_neg hguard]
    have howner := Client.connect_owner (c := b.socket) dial
    rw [not_or] at hguard
    refine ⟨⟨howner.config.trans h.config, h.stale, ?_, h.asked, h.requested⟩, ?_⟩
    · intro hgone
      exact absurd hgone hguard.2
    · intro hgone
      exact absurd hgone hguard.2

theorem swap_stale (h : Wired b) (next : SocketConfig) :
    ∀ client ∈ (b.swap next).stale, client.disposed = true := by
  intro client hmem
  cases List.mem_cons.1 hmem with
  | inl heq => rw [heq]; exact Client.dispose_disposed
  | inr hold => exact h.stale client hold

/-- A rotation of a mounted binding dials at once. -/
theorem rotate_mounted (next : SocketConfig) (dial : Bool)
    (hopen : ¬(b.mounted = false ∨ b.disposed = true)) :
    b.rotate next dial = { b.swap next with
      subscribed := true
      socket := (socketFactory next).connect dial } := by
  unfold Binding.rotate
  exact if_neg hopen

theorem updateConfig_wired (h : Wired b) (next : SocketConfig) (dial : Bool) :
    Wired (b.updateConfig next dial) ∧
      (b.disposed = true → (b.updateConfig next dial).dials = b.dials) := by
  unfold Binding.updateConfig
  by_cases hgone : b.disposed = true
  · rw [if_pos hgone]
    exact ⟨h, fun _ => rfl⟩
  · rw [if_neg hgone]
    refine ⟨?_, fun hgone' => absurd hgone' hgone⟩
    dsimp only
    by_cases hrotation : b.rotation = true
    · rw [if_pos hrotation]
      refine ⟨h.config, h.stale, h.gone, ?_, ?_⟩
      · intro hnone
        rw [show b.rotation = true from hrotation] at hnone
        cases hnone
      · intro _
        simp
    · rw [if_neg hrotation]
      have hasked : b.asked = [] := h.asked (Bool.eq_false_iff.2 hrotation)
      by_cases hsame : next = b.config
      · rw [if_pos hsame]
        refine ⟨h.config, h.stale, h.gone, h.asked, fun _ => ?_⟩
        simp [hasked, hsame]
      · rw [if_neg hsame]
        by_cases hmounted : b.mounted = false
        · rw [if_pos hmounted]
          refine ⟨rfl, swap_stale h next, fun hgone' => absurd hgone' hgone, h.asked, fun _ => ?_⟩
          simp [Binding.swap, hasked]
        · rw [if_neg hmounted]
          have hopen : ¬(b.mounted = false ∨ b.disposed = true) := by simp [hmounted, hgone]
          have howner := Client.connect_owner (c := socketFactory next) dial
          rw [rotate_mounted (b := { b with requested := next }) next dial hopen]
          exact ⟨howner.config, swap_stale h next, fun hgone' => absurd hgone' hgone,
            (fun hnone => by cases hnone), fun _ => rfl⟩

theorem dispose_wired (h : Wired b) :
    Wired b.dispose ∧ (b.disposed = true → b.dispose.dials = b.dials) := by
  unfold Binding.dispose
  by_cases hgone : b.disposed = true
  · rw [if_pos hgone]
    exact ⟨h, fun _ => rfl⟩
  · rw [if_neg hgone]
    refine ⟨⟨Client.dispose_config.trans h.config, h.stale, fun _ => Client.dispose_disposed,
      h.asked, ?_⟩, fun hgone' => absurd hgone' hgone⟩
    intro hlive
    cases hlive

theorem own_ne_dispose {e : Socket.Event SocketEvent} (hown : isOwn e = true) : e ≠ .dispose := by
  rintro rfl
  cases hown

theorem client_wired (h : Wired b) {e : Socket.Event SocketEvent}
    (hnext : b.next (.client e) = some b') :
    Wired b' ∧ (b.disposed = true → b'.dials = b.dials) := by
  obtain ⟨out, hstep, rfl⟩ := Option.map_eq_some_iff.1 hnext
  by_cases hown : isOwn e = true
  · rw [Binding.step, if_pos hown] at hstep
    obtain ⟨moved, hmoved, rfl⟩ := Option.map_eq_some_iff.1 hstep
    have howner := Client.step_owner (own_ne_dispose hown) hmoved
    refine ⟨⟨howner.config.trans h.config, h.stale, ?_, h.asked, h.requested⟩, ?_⟩
    · intro hgone
      exact howner.disposed.trans (h.gone hgone)
    · intro hgone
      have hdials := (Client.step_gone (h.gone hgone) hmoved).2
      simp [Binding.dials, Binding.clients, hdials]
  · rw [Binding.step, if_neg hown] at hstep
    cases hstep

theorem staleClient_wired (h : Wired b) {i : Nat} {e : Socket.Event SocketEvent}
    (hnext : b.next (.staleClient i e) = some b') :
    Wired b' ∧ (b.disposed = true → b'.dials = b.dials) := by
  obtain ⟨out, hstep, rfl⟩ := Option.map_eq_some_iff.1 hnext
  by_cases hown : isOwn e = true
  · rw [Binding.step, if_pos hown] at hstep
    obtain ⟨client, hclient, hmap⟩ := Option.bind_eq_some_iff.1 hstep
    obtain ⟨moved, hmoved, rfl⟩ := Option.map_eq_some_iff.1 hmap
    have hgone := h.stale client (List.mem_of_getElem? hclient)
    obtain ⟨hdisposed, hdials⟩ := Client.step_gone hgone hmoved
    refine ⟨⟨h.config, ?_, h.gone, h.asked, h.requested⟩, fun _ => ?_⟩
    · intro other hmem
      cases List.mem_or_eq_of_mem_set hmem with
      | inl hold => exact h.stale other hold
      | inr heq => rw [heq]; exact hdisposed
    · have hset : (b.stale.set i moved.1).map Client.dials = b.stale.map Client.dials := by
        obtain ⟨hi, hget⟩ := List.getElem?_eq_some_iff.1 hclient
        rw [List.map_set, hdials, ← hget, ← List.getElem_map Client.dials (h := by simpa using hi),
          List.set_getElem_self]
      simp [Binding.dials, Binding.clients, hset]
  · rw [Binding.step, if_neg hown] at hstep
    cases hstep

theorem rotated_step (h : Wired b) (hnext : b.next .rotated = some b') :
    (Rotates b .rotated b' ↔ Joined b .rotated b') ∧ (Rotates b .rotated b' → Wired b') := by
  obtain ⟨out, hstep, rfl⟩ := Option.map_eq_some_iff.1 hnext
  by_cases hrotation : b.rotation = true
  · rw [Binding.step, if_pos hrotation] at hstep
    cases hstep
    have hwired (hjoined : b.disposed = false → b.requested = b.config) : Wired b.rotated :=
      ⟨h.config, h.stale, h.gone, fun _ => rfl, hjoined⟩
    have hsettled (hrotates : Rotates b .rotated b.rotated) (hlive : b.disposed = false) :
        b.requested = b.config := by
      rw [← h.config]
      exact (hrotates.settled rfl hlive).symm
    refine ⟨⟨?_, ?_⟩, fun hrotates => hwired (hsettled hrotates)⟩
    · intro hrotates _ hlive last hlast
      have hrequested := h.requested hlive
      rw [hlast] at hrequested
      exact hrequested.symm.trans (hsettled hrotates hlive)
    · intro hjoined
      refine (hwired fun hlive => ?_).rotates fun _ => rfl
      rw [h.requested hlive]
      cases hlast : b.asked.getLast? with
      | none => rfl
      | some last => exact hjoined rfl hlive last hlast
  · rw [Binding.step, if_neg hrotation] at hstep
    cases hstep

theorem rotates_iff {e : Event} (h : Wired b) (hnext : b.next e = some b') :
    (Rotates b e b' ↔ Joined b e b') ∧ (Rotates b e b' → Wired b') := by
  have helse (hrotated : e ≠ .rotated)
      (hwired : Wired b' ∧ (b.disposed = true → b'.dials = b.dials)) :
      (Rotates b e b' ↔ Joined b e b') ∧ (Rotates b e b' → Wired b') :=
    ⟨iff_of_true (hwired.1.rotates hwired.2) fun heq => absurd heq hrotated, fun _ => hwired.1⟩
  cases e with
  | mount dial =>
      cases hnext
      exact helse (fun heq => by cases heq) (mount_wired h dial)
  | updateConfig next dial =>
      cases hnext
      exact helse (fun heq => by cases heq) (updateConfig_wired h next dial)
  | updateToken nextToken dial =>
      cases hnext
      exact helse (fun heq => by cases heq) (updateConfig_wired h _ dial)
  | rotated => exact rotated_step h hnext
  | dispose =>
      cases hnext
      exact helse (fun heq => by cases heq) (dispose_wired h)
  | client e => exact helse (fun heq => by cases heq) (client_wired h hnext)
  | staleClient i e => exact helse (fun heq => by cases heq) (staleClient_wired h hnext)

end Steps

/-- **Realtime rotation.** In a run of a new binding, whenever no rotation is
under way the client uses the configuration that was asked for last, at most one
client is live and nothing dials after `dispose`, if and only if every rotation
ends on the last configuration that was asked for while it was under way. -/
theorem rotation_settles (config : SocketConfig) (events : List Event) :
    Every Binding.next Rotates (.build config) events ↔
      Every Binding.next Joined (.build config) events := by
  refine every_iff (P := Rotates) (Q := Joined) Wired
    (fun b e b' h hnext => rotates_iff h hnext) ⟨rfl, ?_, ?_, fun _ => rfl, fun _ => rfl⟩ events
  · intro client hmem
    cases hmem
  · intro hgone
    cases hgone

namespace LostRequest

def config (token : String) : SocketConfig := ⟨"wss://pc", "U-1", token⟩

/-- Two new tokens, the second before the rotation to the first is over. -/
def before : List Event := [.mount true, .updateToken "b" true, .updateToken "c" true]

def shown : Option Binding := follow Binding.next (.build (config "a")) before

end LostRequest

/-- The token that was asked for last is never dialled with. -/
theorem request_lost :
    ¬∀ (config : SocketConfig) (events : List Event),
      Every Binding.next Rotates (.build config) events := by
  intro h
  have hrun : follow Binding.next (.build (LostRequest.config "a")) LostRequest.before =
      some (LostRequest.shown.get (by decide)) := by
    rw [Option.some_get]
    rfl
  have hstep : (LostRequest.shown.get (by decide)).next .rotated =
      some (((LostRequest.shown.get (by decide)).next .rotated).get (by decide)) := by
    rw [Option.some_get]
  have hrotates := (h (LostRequest.config "a") (LostRequest.before ++ [.rotated])).last hrun hstep
  have hsettled := hrotates.settled (by decide) (by decide)
  exact absurd hsettled (by decide)

end Realtime

end Calcar.Phone
