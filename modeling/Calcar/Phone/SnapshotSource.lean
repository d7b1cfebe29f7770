import Calcar.Phone.DeviceList

/-!
# Where the device rows come from

`HttpSnapshotSource`: the three fetches over `GET /v1/devices` and the list they
share.  A fetch reads the client's token when it is made; its replies come as
events of their own, and the token may have changed by then.  Rows are kept with
the token their request carried, which the source itself does not know.
-/

namespace Calcar.Phone.SnapshotSource

open DeviceList

/-- The rows of a reply, and the token of the request. -/
structure Rows where
  devices : List DeviceList.Device
  requestedUnder : Option String
  deriving DecidableEq, Repr

/-- `fetchDevices`, `fetchPresence` and `fetchOwnerDeviceId`. -/
inductive Fetch where
  | devices
  | presence
  | owner
  deriving DecidableEq, Repr

/-- What a fetch waits for, or what it returned. -/
inductive Stage where
  | listing
  | looking (rows : Rows)
  | devices (rows : Rows)
  | presence (rows : Rows) (byId : PresenceMap)
  | owner (rows : Rows) (deviceId : String)
  | failed
  deriving DecidableEq, Repr

/-- A fetch, and the token it was made under. -/
structure Call where
  fetch : Fetch
  token : Option String
  stage : Stage
  deriving DecidableEq, Repr

/-- `HttpSnapshotSource`, with the token of its client and the calls so far. -/
structure HttpSnapshotSource where
  token : Option String
  devices : Option Rows := none
  devicesToken : Option String := none
  calls : List Call := []
  deriving DecidableEq, Repr

/-- The reply to a presence lookup: a record, an `ApiException`, or another error. -/
inductive PresenceReply where
  | record (presence : DeviceList.Presence)
  | refused (status : Int) (code : String)
  | broken
  deriving DecidableEq, Repr

/-- `listReply` has no rows where the request threw. -/
inductive Event where
  | setToken (token : Option String)
  | fetch (fetch : Fetch)
  | listReply (call : Nat) (devices : Option (List DeviceList.Device))
  | presenceReplies (call : Nat) (replies : List PresenceReply)
  deriving DecidableEq, Repr

/-- `isOwnerDevice` with a blank owner id.  No other letters become those of the two
roles in lower case. -/
def isOwnerDevice (device : DeviceList.Device) : Bool :=
  device.role.toLower = "owner" || device.role.toLower = "owner_phone"

/-- The loop of `fetchOwnerDeviceId`. -/
def ownerDeviceId (devices : List DeviceList.Device) : String :=
  match devices.find? isOwnerDevice with
  | some device => device.deviceId
  | none => ""

/-- `_presenceFor`. -/
def presenceFor (deviceId : String) : PresenceReply → Except Unit (Option DeviceList.Presence)
  | .record presence =>
      if presence.deviceId ≠ "" ∧ presence.deviceId ≠ deviceId then .ok none
      else .ok (some presence)
  | .refused status code =>
      if code = "NO_PRESENCE" ∨ status = 404 then .ok none else .error ()
  | .broken => .error ()

/-- The map `fetchPresence` builds of the replies, in the order of the rows. -/
def presenceById : List DeviceList.Device → List PresenceReply → PresenceMap →
    Except Unit PresenceMap
  | device :: devices, reply :: replies, byId =>
      match presenceFor device.deviceId reply with
      | .error () => .error ()
      | .ok none => presenceById devices replies byId
      | .ok (some presence) =>
          presenceById devices replies (PresenceMap.put device.deviceId presence byId)
  | _, _, byId => .ok byId

/-- What a fetch does with its rows. -/
def derive (rows : Rows) : Fetch → Stage
  | .devices => .devices rows
  | .presence => .looking rows
  | .owner => .owner rows (ownerDeviceId rows.devices)

namespace HttpSnapshotSource

variable (s : HttpSnapshotSource)

/-- The rows `_knownDevices` reuses. -/
def knownDevices : Option Rows :=
  match s.devices with
  | some rows => if s.devicesToken = s.token then some rows else none
  | none => none

/-- A call up to its first wait; `listDevices` sends the token at once. -/
def start (fetch : Fetch) : Stage :=
  match fetch with
  | .devices => .listing
  | .presence | .owner =>
      match s.knownDevices with
      | some rows => derive rows fetch
      | none => .listing

def setStage (call : Nat) (c : Call) (stage : Stage) : HttpSnapshotSource :=
  { s with calls := s.calls.set call { c with stage := stage } }

def next : Event → Option HttpSnapshotSource
  | .setToken token => some { s with token := token }
  | .fetch fetch => some { s with calls := s.calls ++ [⟨fetch, s.token, s.start fetch⟩] }
  | .listReply call reply =>
      match s.calls[call]? with
      | some ⟨fetch, token, .listing⟩ =>
          match reply with
          | none => some (s.setStage call ⟨fetch, token, .listing⟩ .failed)
          | some devices =>
              -- the reply is filed under the token the client has by now
              let rows : Rows := ⟨devices, token⟩
              let s' := s.setStage call ⟨fetch, token, .listing⟩ (derive rows fetch)
              some { s' with devices := some rows, devicesToken := s.token }
      | _ => none
  | .presenceReplies call replies =>
      match s.calls[call]? with
      | some ⟨fetch, token, .looking rows⟩ =>
          if replies.length = rows.devices.length then
            match presenceById rows.devices replies [] with
            | .ok byId => some (s.setStage call ⟨fetch, token, .looking rows⟩ (.presence rows byId))
            | .error () => some (s.setStage call ⟨fetch, token, .looking rows⟩ .failed)
          else none
      | _ => none

end HttpSnapshotSource

end Calcar.Phone.SnapshotSource
