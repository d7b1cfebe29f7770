import Mathlib
import Calcar.Phone.Socket

/-!
# How the socket client redials

`CalcarSocketClient` again, as far as it dials: a channel that the factory hands over may
still be opening, and is lost by what its stream or its heartbeats report; the timers are
those the event loop has to fire, whatever the field of the client holds.  `failed` counts,
as a record, the dials that failed since a connection was last established.
-/

namespace Calcar.Phone.Socket

/-- What a dial comes to: the factory or the subscription throws, or there is a channel,
still opening or open. -/
inductive Dial where
  | threw
  | opening
  | opened
  deriving DecidableEq, Repr

/-- `_channel`. -/
inductive Channel where
  | opening
  | established
  deriving DecidableEq, Repr

/-- A `Timer`: which one it is, and its delay. -/
structure Timer where
  id : Nat
  delay : Nat
  deriving DecidableEq, Repr

/-- `CalcarSocketClient`, as far as it dials.  `timers` are those that are active, `made`
counts all that were made. -/
structure Dialer where
  reconnects : ReconnectPolicy := {}
  heartbeats : HeartbeatTracker := {}
  channel : Option Channel := none
  heartbeatTimer : Bool := false
  reconnectTimer : Option Timer := none
  timers : List Timer := []
  made : Nat := 0
  mounted : Bool := true
  disposed : Bool := false
  dials : Nat := 0
  failed : Nat := 0
  deriving DecidableEq, Repr

/-- What happens to it. -/
inductive DialEvent where
  | connect (dial : Dial)
  | established
  | frame
  | closed
  | tick (sent : Bool)
  | fire (timer : Timer) (dial : Dial)
  | dispose
  deriving DecidableEq, Repr

namespace Dialer

variable (d : Dialer)

/-- `_reconnectTimer?.isActive ?? false`. -/
def timerActive : Bool :=
  match d.reconnectTimer with
  | some timer => d.timers.contains timer
  | none => false

/-- `_scheduleReconnect`. -/
def scheduleReconnect : Dialer :=
  if d.mounted = false ∨ d.disposed = true then d
  else if d.timerActive = true then d
  else
    let timer : Timer := ⟨d.made, d.reconnects.nextDelay.1⟩
    { d with
      reconnects := d.reconnects.nextDelay.2
      reconnectTimer := some timer
      timers := d.timers ++ [timer]
      made := d.made + 1 }

/-- `connect` behind its checks. -/
def dial (outcome : Dial) : Dialer :=
  let d := { d with dials := d.dials + 1 }
  match outcome with
  | .threw => { d with failed := d.failed + 1 }.scheduleReconnect
  | .opening =>
      { d with
        channel := some .opening
        reconnects := {}
        heartbeats := {}
        heartbeatTimer := true }
  | .opened =>
      { d with
        channel := some .established
        reconnects := {}
        heartbeats := {}
        heartbeatTimer := true
        failed := 0 }

/-- `connect`. -/
def connect (outcome : Dial) : Dialer :=
  if d.mounted = false ∨ d.disposed = true then d
  else if d.channel.isSome = true then d
  else d.dial outcome

/-- `dispose`. -/
def dispose : Dialer :=
  if d.disposed = true then d
  else { d with
    disposed := true
    mounted := false
    timers := match d.reconnectTimer with
      | some timer => d.timers.erase timer
      | none => d.timers
    reconnectTimer := none
    heartbeatTimer := false
    channel := none }

/-- `_handleDrop`; a channel that was still opening was a dial that failed. -/
def handleDrop : Dialer :=
  if d.mounted = false ∨ d.disposed = true then d
  else
    { d with
      channel := none
      failed := if d.channel = some Channel.opening then d.failed + 1 else d.failed }.scheduleReconnect

/-- `_onHeartbeatTick`. -/
def onHeartbeatTick (sent : Bool) : Dialer :=
  if d.mounted = false ∨ d.disposed = true ∨ d.channel = none then d
  else if sent = false then d.handleDrop
  else
    let d' := { d with heartbeats := d.heartbeats.tick.1 }
    if d.heartbeats.tick.2 = true then d'.handleDrop else d'

/-- `_onRaw`, as far as the heartbeats go. -/
def onRaw : Dialer :=
  if d.mounted = false ∨ d.disposed = true then d
  else { d with heartbeats := d.heartbeats.markMessage }

/-- The callback of a reconnect timer, which is no longer active. -/
def fire (timer : Timer) (outcome : Dial) : Dialer :=
  let d := { d with timers := d.timers.erase timer, reconnectTimer := none }
  if d.mounted = false ∨ d.disposed = true then d else d.connect outcome

def next : DialEvent → Option Dialer
  | .connect outcome => some (d.connect outcome)
  | .established =>
      if d.channel = some .opening then
        some { d with channel := some .established, failed := 0 }
      else none
  | .frame => if d.channel = some .established then some d.onRaw else none
  | .closed => if d.channel.isSome = true then some d.handleDrop else none
  | .tick sent => if d.heartbeatTimer = true then some (d.onHeartbeatTick sent) else none
  | .fire timer outcome => if timer ∈ d.timers then some (d.fire timer outcome) else none
  | .dispose => some d.dispose

end Dialer

end Calcar.Phone.Socket
