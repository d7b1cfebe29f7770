import Calcar.Lib.Events

/-!
# The socket client of the phone

`CalcarSocketClient` with its inbound buffer, heartbeat tracker and reconnect
policy.  Whether a dial goes through, what comes in and when a timer fires is up
to the run.  What `_decode` and `parseEnvelope` make of a raw message is its
`Frame`.  The events stream hands an event to its listener some time after it
was added; `consume` is that moment.
-/

namespace Calcar.Phone.Socket

/-- `SocketConfig`, and the fields of a client that are the same. -/
structure SocketConfig where
  baseUrl : String
  userId : String
  token : String
  deriving DecidableEq, Repr

/-! ## Heartbeats -/

/-- `HeartbeatTracker`. -/
structure HeartbeatTracker where
  missed : Nat := 0
  seenSinceTick : Bool := false
  deriving DecidableEq, Repr

namespace HeartbeatTracker

def maxMissed : Nat := 3

/-- `shouldDrop`. -/
def shouldDrop (t : HeartbeatTracker) : Bool := decide (maxMissed ≤ t.missed)

/-- `markMessage`. -/
def markMessage (_ : HeartbeatTracker) : HeartbeatTracker := ⟨0, true⟩

/-- `tick`. -/
def tick (t : HeartbeatTracker) : HeartbeatTracker × Bool :=
  if t.seenSinceTick = true then ({ t with seenSinceTick := false }, false)
  else
    let t := { t with missed := t.missed + 1 }
    (t, t.shouldDrop)

end HeartbeatTracker

/-! ## Reconnects -/

/-- `ReconnectPolicy`, with the delays it is built with; in milliseconds. -/
structure ReconnectPolicy where
  attempts : Nat := 0
  deriving DecidableEq, Repr

namespace ReconnectPolicy

def initialDelay : Nat := 1000
def maxDelay : Nat := 30000

/-- The initial delay, doubled once for each attempt. -/
def grown : Nat → Nat
  | 0 => initialDelay
  | attempts + 1 => 2 * grown attempts

/-- `nextDelay`. -/
def nextDelay (p : ReconnectPolicy) : Nat × ReconnectPolicy :=
  (if maxDelay ≤ grown p.attempts then maxDelay else grown p.attempts, ⟨p.attempts + 1⟩)

end ReconnectPolicy

/-! ## The inbound buffer -/

/-- `InboundBuffer`. -/
structure InboundBuffer (T : Type) where
  capacity : Nat := 64
  items : List T := []
  dropped : Nat := 0
  needsCatchup : Bool := false
  deriving DecidableEq, Repr

namespace InboundBuffer

variable {T : Type} (b : InboundBuffer T)

/-- `add`. -/
def add (item : T) : InboundBuffer T × Bool :=
  if b.capacity ≤ b.items.length then
    ({ b with dropped := b.dropped + 1, needsCatchup := true }, false)
  else ({ b with items := b.items ++ [item] }, true)

/-- `drain`. -/
def drain : List T × InboundBuffer T := (b.items, { b with items := [] })

/-- `markCaughtUp`. -/
def markCaughtUp : InboundBuffer T := { b with needsCatchup := false }

/-- `reset`. -/
def reset : InboundBuffer T := { b with items := [], dropped := 0, needsCatchup := false }

end InboundBuffer

/-! ## The client -/

/-- `CalcarSocketClient`.  `connected` says that a channel and its subscription
are attached, `stream` holds the events that were added to the events stream and
not handed over yet.  The events handed over and the dials are a record. -/
structure Client (E : Type) where
  config : SocketConfig
  buffer : InboundBuffer E := {}
  heartbeats : HeartbeatTracker := {}
  reconnects : ReconnectPolicy := {}
  connected : Bool := false
  heartbeatTimer : Bool := false
  reconnectTimer : Option Nat := none
  mounted : Bool := true
  disposed : Bool := false
  notifiedCatchup : Bool := false
  stream : List E := []
  handed : List E := []
  dials : Nat := 0
  deriving DecidableEq, Repr

/-- What a raw message is: nothing that is known, a heartbeat, or an event. -/
inductive Frame (E : Type) where
  | ignored
  | heartbeat
  | event (e : E)
  deriving DecidableEq, Repr

/-- What the client tells its owner. -/
inductive Signal (E : Type) where
  | connectionLost
  | catchupNeeded
  | event (e : E)
  deriving DecidableEq, Repr

/-- What happens to a client.  `dial` says whether the channel is there and takes
the subscription, `sent` whether it takes the heartbeat; `closed` is the end of
the channel's stream or an error on it. -/
inductive Event (E : Type) where
  | connect (dial : Bool)
  | frame (raw : Frame E)
  | closed
  | tick (sent : Bool)
  | fire (dial : Bool)
  | consume
  | markCaughtUp
  | dispose
  deriving DecidableEq, Repr

namespace Client

variable {E : Type} (c : Client E)

/-- `_scheduleReconnect`. -/
def scheduleReconnect : Client E :=
  if c.mounted = false ∨ c.disposed = true then c
  else if c.reconnectTimer.isSome = true then c
  else { c with
    reconnectTimer := some c.reconnects.nextDelay.1
    reconnects := c.reconnects.nextDelay.2 }

/-- `connect`. -/
def connect (dial : Bool) : Client E :=
  if c.mounted = false ∨ c.disposed = true then c
  else if c.connected = true then c
  else
    let c := { c with dials := c.dials + 1 }
    if dial = false then c.scheduleReconnect
    else { c with
      connected := true
      reconnects := {}
      heartbeats := {}
      heartbeatTimer := true }

/-- `dispose`. -/
def dispose : Client E :=
  if c.disposed = true then c
  else { c with
    disposed := true
    mounted := false
    reconnectTimer := none
    heartbeatTimer := false
    connected := false }

/-- `markCaughtUp`. -/
def markCaughtUp : Client E :=
  { c with notifiedCatchup := false, buffer := c.buffer.markCaughtUp }

/-- `_handleDrop`. -/
def handleDrop : Client E × List (Signal E) :=
  if c.mounted = false ∨ c.disposed = true then (c, [])
  else ({ c with connected := false }.scheduleReconnect, [.connectionLost])

/-- `_onHeartbeatTick`. -/
def onHeartbeatTick (sent : Bool) : Client E × List (Signal E) :=
  if c.mounted = false ∨ c.disposed = true ∨ c.connected = false then (c, [])
  else if sent = false then c.handleDrop
  else
    let c' := { c with heartbeats := c.heartbeats.tick.1 }
    if c.heartbeats.tick.2 = true then c'.handleDrop else (c', [])

/-- `_onRaw`, on an event. -/
def onEvent (event : E) : Client E × List (Signal E) :=
  match c.buffer.add event with
  | (buffer, added) =>
      if added = false then
        if c.notifiedCatchup = true then ({ c with buffer }, [])
        else ({ c with buffer, notifiedCatchup := true }, [.catchupNeeded])
      else ({ c with buffer, stream := c.stream ++ [event] }, [])

/-- `_onRaw`. -/
def onRaw (raw : Frame E) : Client E × List (Signal E) :=
  if c.mounted = false ∨ c.disposed = true then (c, [])
  else
    let c := { c with heartbeats := c.heartbeats.markMessage }
    match raw with
    | .ignored => (c, [])
    | .heartbeat => (c, [])
    | .event event => c.onEvent event

/-- The callback of the reconnect timer. -/
def fire (dial : Bool) : Client E :=
  if c.mounted = false ∨ c.disposed = true then { c with reconnectTimer := none }
  else ({ c with reconnectTimer := none } : Client E).connect dial

/-- The listener of the events stream is handed the next event. -/
def consume : Option (Client E × List (Signal E)) :=
  match c.stream with
  | [] => none
  | event :: rest =>
      some ({ c with stream := rest, handed := c.handed ++ [event] }, [.event event])

def step : Event E → Option (Client E × List (Signal E))
  | .connect dial => some (c.connect dial, [])
  | .frame raw => if c.connected = true then some (c.onRaw raw) else none
  | .closed => if c.connected = true then some c.handleDrop else none
  | .tick sent => if c.heartbeatTimer = true then some (c.onHeartbeatTick sent) else none
  | .fire dial => if c.reconnectTimer.isSome = true then some (c.fire dial, []) else none
  | .consume => c.consume
  | .markCaughtUp => some (c.markCaughtUp, [])
  | .dispose => some (c.dispose, [])

def next (e : Event E) : Option (Client E) := (c.step e).map Prod.fst

/-- A client as its constructor builds it. -/
def build (config : SocketConfig) (inboundCapacity : Nat) : Client E where
  config := config
  buffer := { capacity := inboundCapacity }

end Client

end Calcar.Phone.Socket
