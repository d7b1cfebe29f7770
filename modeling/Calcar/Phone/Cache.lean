import Calcar.Phone.Buffers
import Calcar.Phone.DeviceList

/-!
# The device cache

`CacheStore` over a port to the database, and `WriteThroughSnapshotSource` around a live
source.  What the live source answers and how the database takes a write come as events;
the write of one fetch may be going on while other fetches are answered.  `List.sort` keeps
no order among equal stamps, so the sort is a parameter.
-/

namespace Calcar.Phone.Cache

open DeviceList (PresenceMap)

/-! ## Rows -/

/-- `CachedDevice`. -/
structure CachedDevice where
  deviceId : String
  displayName : String
  role : String
  fingerprint : String
  revoked : Bool
  authorizedBy : String
  cachedAtMillis : Int
  deriving DecidableEq, Repr

/-- `CachedDevice.fromDevice`. -/
def fromDevice (device : DeviceList.Device) (cachedAtMillis : Int) : CachedDevice where
  deviceId := device.deviceId
  displayName := device.displayName
  role := device.role
  fingerprint := device.fingerprint
  revoked := device.revoked
  authorizedBy := device.authorizedBy
  cachedAtMillis := cachedAtMillis

/-- A value in a column. -/
inductive DbValue where
  | text (value : String)
  | integer (value : Int)
  deriving DecidableEq, Repr

/-- A row as the port takes it, column by column. -/
abbrev DbRow := List (String × DbValue)

/-- `toMap`. -/
def CachedDevice.toMap (device : CachedDevice) : DbRow :=
  [("device_id", .text device.deviceId),
    ("display_name", .text device.displayName),
    ("role", .text device.role),
    ("fingerprint", .text device.fingerprint),
    ("revoked", .integer (if device.revoked = true then 1 else 0)),
    ("authorized_by", .text device.authorizedBy),
    ("cached_at_millis", .integer device.cachedAtMillis)]

/-- A row goes in for the one that has its primary key: `ConflictAlgorithm.replace`. -/
def insertRow (table : List DbRow) (row : DbRow) : List DbRow :=
  table.filter (fun kept => kept.lookup "device_id" ≠ row.lookup "device_id") ++ [row]

/-- `replaceDeviceRows` of `SqfliteCacheDb`: the table after a batch that goes through. -/
def replaceDeviceRows (rows : List DbRow) : List DbRow := rows.foldl insertRow []

def maxRows : Nat := 200

section Store

variable (sort : List CachedDevice → List CachedDevice)

/-- `replaceCached`: the rows it gives to the port. -/
def replaceCached (devices : List CachedDevice) : List DbRow :=
  let ordered := sort devices
  let capped :=
    if ordered.length ≤ maxRows then ordered else ordered.drop (ordered.length - maxRows)
  capped.map CachedDevice.toMap

/-- `replaceAll`: the rows it gives to the port. -/
def replaceAll (devices : List DeviceList.Device) (nowMillis : Int) : List DbRow :=
  replaceCached sort (devices.map fun device => fromDevice device nowMillis)

end Store

/-! ## Fetches -/

/-- `WorkflowRow`. -/
structure WorkflowRow where
  workflowId : String
  computerId : String
  title : String
  status : String
  deriving DecidableEq, Repr

/-- `ComputerSnapshot`. -/
structure ComputerSnapshot where
  deviceId : String
  displayName : String
  online : Bool
  lastSeenMillis : Int
  workflows : List WorkflowRow
  deriving DecidableEq, Repr

/-- The methods of `SnapshotSource`. -/
inductive Fetch where
  | fetchDevices
  | fetchPresence
  | fetchOwnerDeviceId
  | fetchComputer (computerId : String)
  | fetchWorkflow (computerId workflowId : String)
  deriving DecidableEq, Repr

/-- What they return. -/
inductive Result where
  | devices (devices : List DeviceList.Device)
  | presence (byId : PresenceMap)
  | ownerDeviceId (deviceId : String)
  | computer (snapshot : ComputerSnapshot)
  | workflow (buffers : Workflow.Buffers)
  deriving DecidableEq, Repr

/-- The result is one of the method. -/
def Fetch.gives : Fetch → Result → Bool
  | .fetchDevices, .devices _ => true
  | .fetchPresence, .presence _ => true
  | .fetchOwnerDeviceId, .ownerDeviceId _ => true
  | .fetchComputer _, .computer _ => true
  | .fetchWorkflow _ _, .workflow _ => true
  | _, _ => false

/-- A method may throw, and returns what it gives. -/
def Fetch.mayEnd (fetch : Fetch) : Except String Result → Bool
  | .ok result => fetch.gives result
  | .error _ => true

/-- What happens: a call, the end of the live source's part of it, the end of its write. -/
inductive Event where
  | call (fetch : Fetch)
  | answer (i : Nat) (result : Except String Result) (nowMillis : Int)
  | written (i : Nat) (outcome : Except String Unit)
  deriving Repr

/-! ## The live source -/

/-- The live source: its calls, and how those that are over have ended. -/
structure Plain where
  calls : List (Fetch × Option (Except String Result)) := []

namespace Plain

variable (p : Plain)

def next : Event → Option Plain
  | .call fetch => some { p with calls := p.calls ++ [(fetch, none)] }
  | .answer i result _ =>
      match p.calls[i]? with
      | some (fetch, none) =>
          if fetch.mayEnd result = true then
            some { p with calls := p.calls.set i (fetch, some result) }
          else none
      | _ => none
  | .written _ _ => some p

end Plain

/-! ## The source that writes through -/

/-- What a call waits for: the live source, or the write of its devices. -/
inductive Stage where
  | asked
  | writing (devices : List DeviceList.Device) (rows : List DbRow)
  | over (result : Except String Result)
  deriving Repr

/-- The source of the app, its calls, and the table it caches in.  Without a database that
opens the source is the live one. -/
structure Source where
  sort : List CachedDevice → List CachedDevice
  opened : Bool
  table : List DbRow := []
  calls : List (Fetch × Stage) := []

namespace Source

variable (s : Source)

/-- `main`: the live source where `SqfliteCacheDb.open` throws. -/
def boot (sort : List CachedDevice → List CachedDevice) (db : Except String Unit) : Source where
  sort := sort
  opened := match db with
    | .ok () => true
    | .error _ => false

/-- What a call does behind the live source: `fetchDevices` waits for `replaceAll`, the
others delegate. -/
def behind (result : Except String Result) (nowMillis : Int) : Stage :=
  match result with
  | .ok (.devices devices) =>
      if s.opened = true then .writing devices (replaceAll s.sort devices nowMillis)
      else .over result
  | _ => .over result

def next : Event → Option Source
  | .call fetch => some { s with calls := s.calls ++ [(fetch, .asked)] }
  | .answer i result nowMillis =>
      match s.calls[i]? with
      | some (fetch, .asked) =>
          if fetch.mayEnd result = true then
            some { s with calls := s.calls.set i (fetch, s.behind result nowMillis) }
          else none
      | _ => none
  | .written i outcome =>
      match s.calls[i]? with
      | some (fetch, .writing devices rows) =>
          match outcome with
          | .ok () =>
              some { s with
                table := replaceDeviceRows rows
                calls := s.calls.set i (fetch, .over (.ok (.devices devices))) }
          | .error text => some { s with calls := s.calls.set i (fetch, .over (.error text)) }
      | _ => none

end Source

end Calcar.Phone.Cache
