import Calcar.Phone.Reconnect

/-!
# The banner over a whole run

The banner comes down with `markConnected` alone, and nothing that is wired calls
it: the binding reports drops, overflows and attention events, never that a dial
went through.  The banner therefore stays up, and the views, which refetch when it
comes down, never do.

## Main results

* `markOf_cases` — what is wired marks the connection as lost or as behind.
* `listen_freezes` — under the banner a listener freezes and asks for nothing.
* `banner_stays` — in every state of every run the banner is up, and no workflow
  that has recovered is shown as such.
-/

namespace Calcar.Phone.Reconnect

open Lib Socket Realtime

/-! ## The law -/

/-- The socket is up, and a snapshot of the workflow was loaded that was asked for
after the last drop, overflow or attention event. -/
def App.Recovered (a : App) (w : Watched) : Prop :=
  (∃ binding, a.binding = some binding ∧ binding.socket.connected = true) ∧
    w ∈ a.workflows ∧ a.troubles ∈ w.loaded

/-- The banner is down and the workflow is not frozen. -/
def App.Accepts (a : App) (w : Watched) : Prop :=
  a.connection.showBanner = false ∧ w.view.controller.frozen = false

/-! ## One call -/

/-- **What is wired marks the connection as lost or as behind.** -/
theorem markOf_cases {nowMillis : Int} {signal : Signal SocketEvent} {m : Mark}
    (h : markOf nowMillis signal = some m) : m = .disconnected ∨ m = .catchupNeeded := by
  cases signal with
  | connectionLost => exact .inl (Option.some.inj h).symm
  | catchupNeeded => exact .inr (Option.some.inj h).symm
  | event event =>
      unfold markOf at h
      dsimp only at h
      cases hrouted : routed nowMillis event with
      | none =>
          rw [hrouted] at h
          cases h
      | some callback =>
          rw [hrouted] at h
          cases callback with
          | attentionPending computerId workflowId kind => exact .inr (Option.some.inj h).symm
          | presenceChanged deviceId online lastSeenMillis => cases h
          | trustRevoked deviceId => cases h
          | pairingChanged => cases h

section Calls

variable {a : App}

theorem showBanner_of_lost {s : ConnectionState} (h : s.connected = false) :
    s.showBanner = true := by
  simp [ConnectionState.showBanner, h]

/-- **Under the banner a listener freezes and asks for nothing.** -/
theorem listen_freezes {s : ConnectionState} (h : s.connected = false) (w : Watched)
    (troubles : Nat) : w.listen troubles s = w.freeze :=
  if_pos (showBanner_of_lost h)

theorem mark_lost (h : a.connection.connected = false) {m : Mark}
    (hm : m = .disconnected ∨ m = .catchupNeeded) : (a.mark m).connection.connected = false := by
  cases hm with
  | inl heq =>
      subst heq
      unfold App.mark Mark.emits
      simp [h]
  | inr heq =>
      subst heq
      exact h

theorem heard_lost (h : a.connection.connected = false) (nowMillis : Int)
    (signal : Signal SocketEvent) : (App.heard nowMillis a signal).connection.connected = false := by
  unfold App.heard
  cases hmark : markOf nowMillis signal with
  | none => exact h
  | some m => exact mark_lost (a := { a with troubles := a.troubles + 1 }) h (markOf_cases hmark)

theorem hears_lost (nowMillis : Int) (signals : List (Signal SocketEvent))
    (h : a.connection.connected = false) :
    (a.hears nowMillis signals).connection.connected = false := by
  induction signals generalizing a with
  | nil => exact h
  | cons signal signals ih => exact ih (heard_lost h nowMillis signal)

/-- A step of the app. -/
theorem next_lost {a' : App} (h : a.connection.connected = false) {e : Event}
    (hnext : a.next e = some a') : a'.connection.connected = false := by
  cases e with
  | watch config dial =>
      unfold App.next at hnext
      cases hbinding : a.binding with
      | none =>
          rw [hbinding] at hnext
          cases hnext
          exact h
      | some binding =>
          rw [hbinding] at hnext
          cases hnext
  | leave =>
      obtain ⟨binding, -, rfl⟩ := Option.map_eq_some_iff.1 hnext
      exact h
  | binding nowMillis e =>
      obtain ⟨binding, -, hstep⟩ := Option.bind_eq_some_iff.1 hnext
      obtain ⟨out, -, rfl⟩ := Option.map_eq_some_iff.1 hstep
      exact hears_lost (a := { a with binding := some out.1 }) nowMillis out.2 h
  | openFirst computerId workflowId =>
      cases hnext
      exact h
  | openAgain i =>
      obtain ⟨w, -, rfl⟩ := Option.map_eq_some_iff.1 hnext
      exact h
  | close i =>
      obtain ⟨w, -, rfl⟩ := Option.map_eq_some_iff.1 hnext
      exact h
  | workflow i e =>
      obtain ⟨w, -, hstep⟩ := Option.bind_eq_some_iff.1 hnext
      obtain ⟨w', -, rfl⟩ := Option.map_eq_some_iff.1 hstep
      exact h

end Calls

/-! ## Runs -/

/-- The connection is never marked as up. -/
theorem follow_lost {a a' : App} {events : List Event} (h : a.connection.connected = false)
    (hrun : follow App.next a events = some a') : a'.connection.connected = false := by
  induction events generalizing a with
  | nil =>
      cases hrun
      exact h
  | cons e events ih =>
      obtain ⟨a₁, hnext, hrest⟩ := follow_cons hrun
      exact ih (next_lost h hnext) hrest

/-- **The banner stays.** In every state of every run the banner is up; so where a
workflow has recovered, it is not shown as such. -/
theorem banner_stays (events : List Event) {a : App}
    (hrun : follow App.next {} events = some a) :
    a.connection.showBanner = true ∧ ∀ w, a.Recovered w → ¬a.Accepts w := by
  have hbanner := showBanner_of_lost (follow_lost rfl hrun)
  refine ⟨hbanner, fun w _ haccepts => ?_⟩
  rw [haccepts.1] at hbanner
  cases hbanner

namespace NeverDown

def config : SocketConfig := ⟨"wss://pc", "U-1", "token"⟩

def snap : Workflow.Buffers where
  computerId := "C-1"
  workflowId := "W-1"
  lastSeqNo := 3

/-- The socket is dialled and lost, dials again, and then a view is opened and its
snapshot loaded. -/
def events : List Event :=
  [.watch config true, .binding 1 (.client .closed), .binding 2 (.client (.fire true)),
    .openFirst "C-1" "W-1", .workflow 0 (.reply 0 (.ok snap))]

def reached : App := ((follow App.next {} events).get (by decide))

def watched : Watched where
  view := {
    controller := {
      computerId := "C-1"
      workflowId := "W-1"
      snapshotLoaded := true
      state := snap } }
  mounted := 1
  loaded := [1]

theorem run : follow App.next {} events = some reached := by
  rw [reached, Option.some_get]

theorem recovered : reached.Recovered watched := by
  refine ⟨⟨_, Option.some_get (by decide) |>.symm, by decide⟩,
    by decide, by decide⟩

end NeverDown

/-- The reconnect whose snapshot is loaded. -/
theorem banner_stays_sample : ¬NeverDown.reached.Accepts NeverDown.watched :=
  (banner_stays NeverDown.events NeverDown.run).2 NeverDown.watched NeverDown.recovered

/-- A reconnect with a new snapshot leaves the banner up. -/
theorem reconnect_under_banner :
    ¬∀ (events : List Event) (a : App), follow App.next {} events = some a →
      ∀ w, a.Recovered w → a.Accepts w := by
  intro h
  have haccepts := h NeverDown.events NeverDown.reached NeverDown.run NeverDown.watched
    NeverDown.recovered
  exact absurd haccepts.1 (by decide)

end Calcar.Phone.Reconnect
