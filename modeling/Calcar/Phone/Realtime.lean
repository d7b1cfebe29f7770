import Calcar.Agent.Snapshot
import Calcar.Phone.Socket

/-!
# The realtime binding

`RealtimeBinding` over its socket client.  A rotation runs up to the dial and is
over some time later; `rotated` is that moment.  The clients that were swapped
out are kept, with whatever still happens to them.
-/

namespace Calcar.Phone.Realtime

open Agent Socket

/-- The types of `SocketEvent` that reach the binding. -/
inductive EventKind where
  | pairingJoinRequested
  | pairingDecided
  | attentionPending
  | presenceChanged
  | trustRevoked
  deriving DecidableEq, Repr

/-- `SocketEvent`. -/
structure SocketEvent where
  kind : EventKind
  msgId : String
  sentTo : String
  payload : Value

/-- The callbacks of a binding. -/
inductive Callback where
  | presenceChanged (deviceId : String) (online : Bool) (lastSeenMillis : Int)
  | attentionPending (computerId workflowId kind : String)
  | trustRevoked (deviceId : String)
  | pairingChanged
  deriving DecidableEq, Repr

/-- `is String` of a payload field. -/
def textOf (payload : Value) (key : String) : Option String :=
  match payload.field key with
  | some (.str s) => some s
  | _ => none

/-- `is String` and not empty. -/
def idOf (payload : Value) (key : String) : Option String :=
  (textOf payload key).filter fun s => s ≠ ""

/-- `handleEvent`, on a mounted binding; `none` for an event it ignores. -/
def routed (nowMillis : Int) (event : SocketEvent) : Option Callback :=
  match event.kind with
  | .presenceChanged =>
      match idOf event.payload "device_id", event.payload.field "online" with
      | some deviceId, some (.bool online) => some (.presenceChanged deviceId online nowMillis)
      | _, _ => none
  | .attentionPending =>
      match idOf event.payload "computer_id", idOf event.payload "workflow_id",
          textOf event.payload "kind" with
      | some computerId, some workflowId, some kind =>
          some (.attentionPending computerId workflowId kind)
      | _, _, _ => none
  | .trustRevoked => (idOf event.payload "subject_device_id").map .trustRevoked
  | .pairingJoinRequested => some .pairingChanged
  | .pairingDecided => some .pairingChanged

/-- `RealtimeBinding`.  `rotation` says that a flight is under way; `requested` is
the configuration that was asked for last, `asked` what was asked for during the
flight. -/
structure Binding where
  socket : Client SocketEvent
  config : SocketConfig
  subscribed : Bool := false
  mounted : Bool := false
  disposed : Bool := false
  rotation : Bool := false
  stale : List (Client SocketEvent) := []
  requested : SocketConfig
  asked : List SocketConfig := []

/-- What happens to a binding.  `dial` says whether a dial made in the call goes
through. -/
inductive Event where
  | mount (dial : Bool)
  | updateConfig (next : SocketConfig) (dial : Bool)
  | updateToken (nextToken : String) (dial : Bool)
  | rotated
  | dispose
  | client (e : Socket.Event SocketEvent)
  | staleClient (i : Nat) (e : Socket.Event SocketEvent)

/-- What happens to a client by itself, and not by a call of its binding. -/
def isOwn : Socket.Event SocketEvent → Bool
  | .connect _ => false
  | .dispose => false
  | .frame _ => true
  | .closed => true
  | .tick _ => true
  | .fire _ => true
  | .consume => true
  | .markCaughtUp => true

/-- The socket as `_socketFactory` builds it. -/
def socketFactory (config : SocketConfig) : Client SocketEvent := Client.build config 64

namespace Binding

variable (b : Binding)

/-- A binding as its provider builds it. -/
def build (config : SocketConfig) : Binding where
  socket := socketFactory config
  config := config
  requested := config

/-- Every client the binding ever had. -/
def clients : List (Client SocketEvent) := b.socket :: b.stale

/-- `mount`. -/
def mount (dial : Bool) : Binding :=
  if b.mounted = true ∨ b.disposed = true then b
  else { b with mounted := true, subscribed := true, socket := b.socket.connect dial }

/-- `_swap`. -/
def swap (next : SocketConfig) : Binding := { b with
  subscribed := false
  config := next
  socket := socketFactory next
  stale := b.socket.dispose :: b.stale }

/-- `_rotate`, up to the end of the dial. -/
def rotate (next : SocketConfig) (dial : Bool) : Binding :=
  let b := b.swap next
  if b.mounted = false ∨ b.disposed = true then { b with socket := b.socket.dispose }
  else { b with subscribed := true, socket := b.socket.connect dial }

/-- `updateConfig`. -/
def updateConfig (next : SocketConfig) (dial : Bool) : Binding :=
  if b.disposed = true then b
  else if b.rotation = true then { b with requested := next, asked := b.asked ++ [next] }
  else if next = b.config then { b with requested := next }
  else if b.mounted = false then ({ b with requested := next } : Binding).swap next
  else
    { ({ b with requested := next } : Binding).rotate next dial with
      rotation := true, asked := [] }

/-- `updateToken`. -/
def updateToken (nextToken : String) (dial : Bool) : Binding :=
  b.updateConfig { b.config with token := nextToken } dial

/-- The end of a rotation. -/
def rotated : Binding := { b with rotation := false, asked := [] }

/-- `dispose`. -/
def dispose : Binding :=
  if b.disposed = true then b
  else { b with
    disposed := true
    mounted := false
    subscribed := false
    socket := b.socket.dispose }

/-- What the current client tells: its drops and overflows go to the callbacks it
was built with, its events to `handleEvent`, if that still listens. -/
def told (signals : List (Signal SocketEvent)) : List (Signal SocketEvent) :=
  signals.filter fun signal =>
    match signal with
    | .event _ => b.subscribed && b.mounted && !b.disposed
    | .connectionLost => true
    | .catchupNeeded => true

def step : Event → Option (Binding × List (Signal SocketEvent))
  | .mount dial => some (b.mount dial, [])
  | .updateConfig next dial => some (b.updateConfig next dial, [])
  | .updateToken nextToken dial => some (b.updateToken nextToken dial, [])
  | .rotated => if b.rotation = true then some (b.rotated, []) else none
  | .dispose => some (b.dispose, [])
  | .client e =>
      if isOwn e = true then
        (b.socket.step e).map fun out => ({ b with socket := out.1 }, b.told out.2)
      else none
  | .staleClient i e =>
      if isOwn e = true then
        b.stale[i]?.bind fun client =>
          (client.step e).map fun out => ({ b with stale := b.stale.set i out.1 }, [])
      else none

def next (e : Event) : Option Binding := (b.step e).map Prod.fst

end Binding

end Calcar.Phone.Realtime
