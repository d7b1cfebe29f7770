import Calcar.Phone.DeviceList

/-!
# Revocations on the device list

`applyTrustRevoked` marks the rows that are listed.  A refresh that is under way
puts its own list up afterwards, whatever was marked by then or was not listed
yet.

## Main results

* `marked` — the event itself leaves no row of the device unrevoked.
* `revocation_sticks` — in a run every revocation since the list was asked for
  is shown exactly where no list is put up that contradicts one.
-/

namespace Calcar.Phone.DeviceList

open Lib

/-- No row of these devices is unrevoked. -/
def AllRevoked (ids : List String) (devices : List Device) : Prop :=
  ∀ device ∈ devices, device.deviceId ∈ ids → device.revoked = true

/-- Every revocation that came in since the list shown was asked for is shown. -/
def Sticks (_ : Controller) (_ : Event) (c' : Controller) : Prop :=
  AllRevoked c'.revoked c'.state.devices

/-- A list that is put up holds no device unrevoked whose revocation came in
since it was asked for. -/
structure Current (c : Controller) (e : Event) (_ : Controller) : Prop where
  presence (answer : PresenceMap) (devices : List Device) (ids : List String) :
    e = .presence answer → c.pending = some ⟨.presence devices, ids⟩ →
      c.state.ownerDeviceId ≠ "" → AllRevoked ids devices
  owner (answer : String) (devices : List Device) (map : PresenceMap) (ids : List String) :
    e = .owner answer → c.pending = some ⟨.owner devices map, ids⟩ → AllRevoked ids devices

section Steps

variable {c c' : Controller}

/-- **The event leaves no row of the device unrevoked**, and revokes no other. -/
theorem marked {ids : List String} {devices : List Device} (h : AllRevoked ids devices)
    (deviceId : String) :
    AllRevoked (deviceId :: ids) (devices.map (Controller.markRevoked deviceId)) := by
  intro device hmem hid
  obtain ⟨row, hrow, rfl⟩ := List.mem_map.1 hmem
  unfold Controller.markRevoked at hid ⊢
  by_cases hkeep : row.deviceId ≠ deviceId ∨ row.revoked = true
  · rw [if_pos hkeep] at hid ⊢
    cases hkeep with
    | inr hrevoked => exact hrevoked
    | inl hother =>
        cases List.mem_cons.1 hid with
        | inl heq => exact absurd heq hother
        | inr hold => exact h row hrow hold
  · rw [if_neg hkeep]

/-- Where no list is put up, the condition says nothing. -/
theorem current_of_else {e : Event} (hpresence : ∀ answer, e ≠ .presence answer)
    (howner : ∀ answer, e ≠ .owner answer) : Current c e c' where
  presence := fun answer _ _ heq => absurd heq (hpresence answer)
  owner := fun answer _ _ _ heq => absurd heq (howner answer)

theorem presence_step {answer : PresenceMap} (hinv : AllRevoked c.revoked c.state.devices)
    (hnext : c.next (.presence answer) = some c') :
    Sticks c (.presence answer) c' ↔ Current c (.presence answer) c' := by
  unfold Controller.next at hnext
  dsimp only at hnext
  split at hnext
  · rename_i devices ids hpending
    split at hnext
    · rename_i hempty
      cases hnext
      refine iff_of_true hinv ⟨?_, fun _ _ _ _ heq => absurd heq Event.noConfusion⟩
      intro answer' devices' ids' _ _ howner
      exact absurd hempty howner
    · rename_i hset
      cases hnext
      constructor
      · intro h
        refine ⟨?_, fun _ _ _ _ heq => absurd heq Event.noConfusion⟩
        intro answer' devices' ids' _ hpending' _
        cases hpending.symm.trans hpending'
        exact h
      · intro h
        exact h.presence answer devices ids rfl hpending hset
  · cases hnext

theorem owner_step {answer : String} (hnext : c.next (.owner answer) = some c') :
    Sticks c (.owner answer) c' ↔ Current c (.owner answer) c' := by
  unfold Controller.next at hnext
  dsimp only at hnext
  split at hnext
  · rename_i devices map ids hpending
    cases hnext
    constructor
    · intro h
      refine ⟨fun _ _ _ heq => absurd heq Event.noConfusion, ?_⟩
      intro answer' devices' map' ids' _ hpending'
      cases hpending.symm.trans hpending'
      exact h
    · intro h
      exact h.owner answer devices map ids rfl hpending
  · cases hnext

/-- Everything else leaves the rows alone, or marks some. -/
theorem other_step {e : Event} (hinv : AllRevoked c.revoked c.state.devices)
    (hpresence : ∀ answer, e ≠ .presence answer) (howner : ∀ answer, e ≠ .owner answer)
    (hnext : c.next e = some c') : Sticks c e c' := by
  cases e with
  | presence answer => exact absurd rfl (hpresence answer)
  | owner answer => exact absurd rfl (howner answer)
  | refresh =>
      cases hnext
      show AllRevoked c.refresh.revoked c.refresh.state.devices
      unfold Controller.refresh
      cases c.pending with
      | none => exact hinv
      | some flight => exact hinv
  | devices answer =>
      unfold Controller.next at hnext
      dsimp only at hnext
      split at hnext
      · cases hnext
        exact hinv
      · cases hnext
  | fail error =>
      unfold Controller.next at hnext
      dsimp only at hnext
      split at hnext
      · cases hnext
      · cases hnext
        exact hinv
      · cases hnext
  | settled =>
      unfold Controller.next at hnext
      dsimp only at hnext
      split at hnext
      · cases hnext
        exact hinv
      · cases hnext
  | clearError =>
      cases hnext
      show AllRevoked c.clearError.revoked c.clearError.state.devices
      unfold Controller.clearError
      by_cases hnone : c.state.error = ""
      · rw [if_pos hnone]
        exact hinv
      · rw [if_neg hnone]
        exact hinv
  | presenceChanged deviceId online lastSeenMillis =>
      cases hnext
      exact hinv
  | trustRevoked deviceId =>
      cases hnext
      exact marked hinv deviceId

theorem sticks_iff {e : Event} (hinv : AllRevoked c.revoked c.state.devices)
    (hnext : c.next e = some c') : Sticks c e c' ↔ Current c e c' := by
  by_cases hpresence : ∃ answer, e = .presence answer
  · obtain ⟨answer, rfl⟩ := hpresence
    exact presence_step hinv hnext
  · by_cases howner : ∃ answer, e = .owner answer
    · obtain ⟨answer, rfl⟩ := howner
      exact owner_step hnext
    · have hp : ∀ answer, e ≠ .presence answer := fun answer heq => hpresence ⟨answer, heq⟩
      have ho : ∀ answer, e ≠ .owner answer := fun answer heq => howner ⟨answer, heq⟩
      exact iff_of_true (other_step hinv hp ho hnext) (current_of_else hp ho)

end Steps

/-- **Revocation is sticky.** In a run from a new controller every revocation
that came in since the list shown was asked for is shown, in every state, if and
only if no list is put up that holds a device unrevoked whose revocation came in
since it was asked for. -/
theorem revocation_sticks (events : List Event) :
    Every Controller.next Sticks {} events ↔ Every Controller.next Current {} events := by
  refine every_iff (P := Sticks) (Q := Current) (fun c => AllRevoked c.revoked c.state.devices)
    (fun c e c' hinv hnext => ⟨sticks_iff hinv hnext, id⟩) ?_ events
  intro device hmem
  cases hmem

namespace LateList

def computer (revoked : Bool) : Device where
  deviceId := "PC-1"
  role := "computer"
  displayName := "Desk"
  pubkeyB64 := "key"
  fingerprint := "fp"
  revoked := revoked
  authorizedBy := "PH-1"

def phone : Device where
  deviceId := "PH-1"
  role := "owner"
  displayName := "Phone"
  pubkeyB64 := "key"
  fingerprint := "fp"
  revoked := false
  authorizedBy := ""

/-- The computer is listed, a second refresh asks for the devices, and the
computer is revoked before the presence is there. -/
def before : List Event :=
  [.refresh, .devices [phone, computer false], .presence [], .owner "PH-1", .settled,
    .refresh, .devices [phone, computer false], .trustRevoked "PC-1"]

def last : Event := .presence []

def shown : Controller where
  state := {
    devices := [phone, computer true]
    ownerDeviceId := "PH-1"
    loading := true
    loaded := true }
  pending := some ⟨.presence [phone, computer false], ["PC-1"]⟩
  revoked := ["PC-1"]

end LateList

/-- A refresh that was under way shows a revoked computer as unrevoked again. -/
theorem late_list_restores : ¬∀ events : List Event, Every Controller.next Sticks {} events := by
  intro h
  have hrun : follow Controller.next {} LateList.before = some LateList.shown := by decide
  have hstep : LateList.shown.next LateList.last =
      some ((LateList.shown.next LateList.last).get (by decide)) := by
    rw [Option.some_get]
  have hsticks := (h (LateList.before ++ [LateList.last])).last hrun hstep
  have hrevoked := hsticks (LateList.computer false) (by decide) (by decide)
  exact absurd hrevoked (by decide)

end Calcar.Phone.DeviceList
