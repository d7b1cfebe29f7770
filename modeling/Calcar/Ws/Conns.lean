import Calcar.Store.Types

/-!
# The hub: connections, the event queue and the loop

The state of `ws.Hub` and what its goroutines do to it.  A connection is
numbered when it is registered and keeps its number.  Its `send` channel
belongs to it, so events may still be queued for a closed connection; they
are written only while it is open.  The loop goroutine takes one event or
one liveness tick at a time, and both work through a list of connections
they have copied under the lock, one connection after the other.

`delivered` is what was written to which connection, in order.
-/

namespace Calcar.Ws

/-- `SendBufferSize`. -/
def sendBufferSize : Nat := 64

/-- The capacity of `notifyCh`. -/
def notifyCapacity : Nat := 1024

/-- The default `hbInterval`. -/
def hbInterval : Time := 30 * Time.second

/-- The default `maxMissed`. -/
def maxMissed : Int := 3

/-- Server-sent event types. -/
inductive EventType where
  | pairingJoinRequested
  | pairingDecided
  | attentionPending
  | presenceChanged
  | trustRevoked
  | heartbeat
  deriving DecidableEq, Repr

/-- What an event carries. -/
inductive Payload where
  | joinRequested (sessionId displayName fingerprint requestId joinPubKeyB64 : String)
      (requestedAtMillis : Int)
  | decided (sessionId : String) (approved : Bool) (subjectDeviceId : String)
  | attention (computerId workflowId kind : String)
  | presence (deviceId : String) (online : Bool)
  | revoked (subjectDeviceId revokerDeviceId : String)
  | interval (seconds : Int)
  deriving DecidableEq, Repr

/-- One server-sent signal; the recipient is the source's `To`, and an empty one
addresses every device of the user. -/
structure Event where
  userId : String
  recipient : String := ""
  type : EventType
  payload : Payload
  deriving DecidableEq, Repr

/-- `liveConn`.  `running` once its two goroutines have been started. -/
structure Conn where
  deviceId : String
  userId : String
  lastSeen : Int
  isOpen : Bool := true
  running : Bool := false
  send : List Event := []
  dropped : Nat := 0
  deriving DecidableEq, Repr

/-- Where the loop goroutine is. -/
inductive Loop where
  | idle
  | sending (ev : Event) (targets : List Nat)
  | closing (stale : List Nat)
  deriving DecidableEq, Repr

/-- The hub. -/
structure Hub where
  conns : List Conn := []
  byDevice : String → Option Nat := fun _ => none
  queue : List Event := []
  loop : Loop := .idle
  catchups : List String := []
  delivered : List (Nat × Event) := []

namespace Hub

/-- Change one connection. -/
def modify (h : Hub) (k : Nat) (f : Conn → Conn) : Hub :=
  { h with conns := h.conns.modify k f }

/-- `liveConn.close`. -/
def close (h : Hub) (k : Nat) : Hub :=
  h.modify k fun c => { c with isOpen := false }

/-- `Notify`: a full queue drops the event. -/
def notify (h : Hub) (ev : Event) : Hub :=
  if h.queue.length < notifyCapacity then { h with queue := h.queue ++ [ev] } else h

/-- The registered connections that satisfy `p`. -/
def registered (h : Hub) (p : Conn → Bool) : List Nat :=
  (List.range h.conns.length).filter fun k =>
    match h.conns[k]? with
    | some c => h.byDevice c.deviceId = some k ∧ p c = true
    | none => false

/-- Registration: the new connection takes its device's place, and one that
was there is closed. -/
def register (h : Hub) (deviceId userId : String) (lastSeen : Int) : Hub × Nat :=
  let k := h.conns.length
  let h' := match h.byDevice deviceId with
    | some old => h.close old
    | none => h
  ({ h' with
      conns := h'.conns ++ [{ deviceId := deviceId, userId := userId, lastSeen := lastSeen }]
      byDevice := fun d => if d = deviceId then some k else h.byDevice d }, k)

/-- A handler on its way out removes its own entry only. -/
def unregister (h : Hub) (deviceId : String) (k : Nat) : Hub :=
  if h.byDevice deviceId = some k then
    { h with byDevice := fun d => if d = deviceId then none else h.byDevice d }
  else h

/-- The connection is open and its goroutines run. -/
def active (h : Hub) (k : Nat) : Bool :=
  match h.conns[k]? with
  | some c => c.isOpen && c.running
  | none => false

/-! ## The goroutines -/

/-- `fanout` reads its targets. -/
def takeEvent (h : Hub) : Option Hub :=
  match h.loop, h.queue with
  | .idle, ev :: rest =>
      some { h with
        queue := rest
        loop := .sending ev (h.registered fun c =>
          c.userId = ev.userId ∧ (ev.recipient = "" ∨ c.deviceId = ev.recipient)) }
  | _, _ => none

/-- `fanout` sends to one target; a full buffer drops the event and asks for
a catch-up. -/
def sendOne (h : Hub) (k : Nat) : Option Hub :=
  match h.loop, h.conns[k]? with
  | .sending ev targets, some c =>
      if k ∈ targets then
        let h' := { h with loop := .sending ev (targets.filter fun x => ¬x = k) }
        if c.send.length < sendBufferSize then
          some (h'.modify k fun c => { c with send := c.send ++ [ev] })
        else
          some { h'.modify k fun c => { c with dropped := c.dropped + 1 } with
            catchups := h.catchups ++ [c.userId] }
      else none
  | _, _ => none

/-- `checkLiveness` reads which connections have been silent too long. -/
def tick (h : Hub) (now : Time) : Option Hub :=
  match h.loop with
  | .idle =>
      some { h with
        loop := .closing (h.registered fun c =>
          c.lastSeen < Time.unixMilli (now - maxMissed * hbInterval)) }
  | _ => none

/-- `checkLiveness` closes one of them. -/
def closeOne (h : Hub) (k : Nat) : Option Hub :=
  match h.loop with
  | .closing stale =>
      if k ∈ stale then
        some ({ h with loop := .closing (stale.filter fun x => ¬x = k) }.close k)
      else none
  | _ => none

/-- The loop goes back to its `select` when the list is worked off. -/
def finish (h : Hub) : Option Hub :=
  match h.loop with
  | .sending _ [] => some { h with loop := .idle }
  | .closing [] => some { h with loop := .idle }
  | _ => none

/-- `readLoop` takes a message off the socket. -/
def recv (h : Hub) (k : Nat) (now : Time) : Option Hub :=
  if h.active k then
    some (h.modify k fun c => { c with lastSeen := Time.unixMilli now })
  else none

/-- `writeLoop` writes the oldest queued event. -/
def write (h : Hub) (k : Nat) : Option Hub :=
  match h.conns[k]? with
  | some c =>
      if c.isOpen && c.running then
        match c.send with
        | [] => none
        | ev :: rest =>
            some { h.modify k fun c => { c with send := rest } with
              delivered := h.delivered ++ [(k, ev)] }
      else none
  | none => none

/-- `writeLoop` writes a heartbeat. -/
def beat (h : Hub) (k : Nat) : Option Hub :=
  match h.conns[k]? with
  | some c =>
      if c.isOpen && c.running then
        some { h with
          delivered := h.delivered ++ [(k, {
            userId := c.userId
            recipient := c.deviceId
            type := .heartbeat
            payload := .interval (Int.tdiv hbInterval Time.second) })] }
      else none
  | none => none

/-- A read or a write fails, which ends the connection. -/
def fail (h : Hub) (k : Nat) : Option Hub :=
  if h.active k then some (h.close k) else none

end Hub

end Calcar.Ws
