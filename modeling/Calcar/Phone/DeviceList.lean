import Calcar.Lib.Events

/-!
# The device list of the phone

`DevicesController` with the refresh it waits for.  A refresh is three fetches
one after another, each answered by an event of its own; the list is put up with
the last of them.  Beside the controller the record keeps the revocations that
came in since the list shown, and since the one on its way, was asked for.
-/

namespace Calcar.Phone.DeviceList

/-- `Device`. -/
structure Device where
  deviceId : String
  role : String
  displayName : String
  pubkeyB64 : String
  fingerprint : String
  revoked : Bool
  authorizedBy : String
  deriving DecidableEq, Repr

/-- `Presence`. -/
structure Presence where
  deviceId : String
  online : Bool
  lastSeenMillis : Int
  deriving DecidableEq, Repr

/-- A map with its keys in the order they were first set. -/
abbrev PresenceMap := List (String × Presence)

/-- `next[deviceId] = presence`. -/
def PresenceMap.put (deviceId : String) (presence : Presence) : PresenceMap → PresenceMap
  | [] => [(deviceId, presence)]
  | entry :: entries =>
      if entry.1 = deviceId then (deviceId, presence) :: entries
      else entry :: PresenceMap.put deviceId presence entries

/-- `DevicesState`. -/
structure DevicesState where
  devices : List Device := []
  presenceById : PresenceMap := []
  ownerDeviceId : String := ""
  loading : Bool := false
  error : String := ""
  loaded : Bool := false
  deriving DecidableEq, Repr

/-- What a refresh waits for: one of the fetches, or the callback that ends it. -/
inductive Stage where
  | devices
  | presence (devices : List Device)
  | owner (devices : List Device) (presence : PresenceMap)
  | over
  deriving DecidableEq, Repr

/-- A refresh, and the revocations that came in since it asked for the devices. -/
structure Flight where
  stage : Stage := .devices
  revoked : List String := []
  deriving DecidableEq, Repr

/-- `DevicesController`, and the revocations that came in since the devices shown
were asked for. -/
structure Controller where
  state : DevicesState := {}
  pending : Option Flight := none
  revoked : List String := []
  deriving DecidableEq, Repr

/-- `answer` is the next of the three answers, `fail` what the fetch threw. -/
inductive Event where
  | refresh
  | devices (answer : List Device)
  | presence (answer : PresenceMap)
  | owner (answer : String)
  | fail (error : String)
  | settled
  | clearError
  | presenceChanged (deviceId : String) (online : Bool) (lastSeenMillis : Int)
  | trustRevoked (deviceId : String)
  deriving DecidableEq, Repr

namespace Controller

variable (c : Controller)

/-- `refresh`, up to the first fetch; a refresh that is under way is shared. -/
def refresh : Controller :=
  match c.pending with
  | some _ => c
  | none => { c with
      state := { c.state with loading := true, error := "" }
      pending := some {} }

/-- The end of `_refreshInner`. -/
def putUp (flight : Flight) (devices : List Device) (presence : PresenceMap)
    (ownerId : String) : Controller where
  state := { c.state with
    devices := devices
    presenceById := presence
    ownerDeviceId := ownerId
    loading := false
    loaded := true }
  pending := some { flight with stage := .over }
  revoked := flight.revoked

/-- `_refreshInner`, where a fetch threw. -/
def failed (flight : Flight) (error : String) : Controller := { c with
  state := { c.state with loading := false, error := error, loaded := true }
  pending := some { flight with stage := .over } }

/-- `clearError`. -/
def clearError : Controller :=
  if c.state.error = "" then c else { c with state := { c.state with error := "" } }

/-- `applyPresenceChanged`. -/
def applyPresenceChanged (deviceId : String) (online : Bool) (lastSeenMillis : Int) :
    Controller := { c with
  state := { c.state with
    presenceById := PresenceMap.put deviceId ⟨deviceId, online, lastSeenMillis⟩
      c.state.presenceById } }

/-- The row of `applyTrustRevoked`. -/
def markRevoked (deviceId : String) (device : Device) : Device :=
  if device.deviceId ≠ deviceId ∨ device.revoked = true then device
  else { device with revoked := true }

/-- `applyTrustRevoked`. -/
def applyTrustRevoked (deviceId : String) : DevicesState :=
  { c.state with devices := c.state.devices.map (markRevoked deviceId) }

/-- The flight with one more revocation. -/
def noteRevoked (deviceId : String) (flight : Flight) : Flight :=
  { flight with revoked := deviceId :: flight.revoked }

def next : Event → Option Controller
  | .refresh => some c.refresh
  | .devices answer =>
      match c.pending with
      | some ⟨.devices, revoked⟩ => some { c with pending := some ⟨.presence answer, revoked⟩ }
      | _ => none
  | .presence answer =>
      match c.pending with
      | some ⟨.presence devices, revoked⟩ =>
          if c.state.ownerDeviceId = "" then
            some { c with pending := some ⟨.owner devices answer, revoked⟩ }
          else
            some (c.putUp ⟨.presence devices, revoked⟩ devices answer c.state.ownerDeviceId)
      | _ => none
  | .owner answer =>
      match c.pending with
      | some ⟨.owner devices presence, revoked⟩ =>
          some (c.putUp ⟨.owner devices presence, revoked⟩ devices presence answer)
      | _ => none
  | .fail error =>
      match c.pending with
      | some ⟨.over, _⟩ => none
      | some flight => some (c.failed flight error)
      | none => none
  | .settled =>
      match c.pending with
      | some ⟨.over, _⟩ => some { c with pending := none }
      | _ => none
  | .clearError => some c.clearError
  | .presenceChanged deviceId online lastSeenMillis =>
      some (c.applyPresenceChanged deviceId online lastSeenMillis)
  | .trustRevoked deviceId => some {
      state := c.applyTrustRevoked deviceId
      pending := c.pending.map (noteRevoked deviceId)
      revoked := deviceId :: c.revoked }

end Controller

end Calcar.Phone.DeviceList
