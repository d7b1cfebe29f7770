import Calcar.Lib.Events
import Calcar.Ws.Conns

/-!
# The hub as a machine

Everything the goroutines of the hub and its callers do to it, one move at a
time and in any order.  Beside the hub a ledger is kept of what went through
it: the events `Notify` was called with and those its queue took, the events the
fan-out took off the queue with the connections it took them for, and the events
that were dropped at a full buffer.
-/

namespace Calcar.Ws

inductive Move where
  | notify (ev : Event)
  | register (deviceId userId : String) (lastSeen : Int)
  | start (k : Nat)
  | unregister (deviceId : String) (k : Nat)
  | takeEvent
  | sendOne (k : Nat)
  | tick (now : Time)
  | closeOne (k : Nat)
  | finish
  | recv (k : Nat) (now : Time)
  | write (k : Nat)
  | beat (k : Nat)
  | fail (k : Nat)
  | takeCatchup
  deriving DecidableEq, Repr

/-- The connections an event is for. -/
def Conn.hears (c : Conn) (ev : Event) : Bool :=
  c.userId = ev.userId ∧ (ev.recipient = "" ∨ c.deviceId = ev.recipient)

namespace Hub

/-- The goroutines of a connection are started. -/
def start (h : Hub) (k : Nat) : Hub := h.modify k fun c => { c with running := true }

/-- A goroutine of `markCatchup` begins. -/
def takeCatchup (h : Hub) : Option Hub :=
  match h.catchups with
  | [] => none
  | _ :: rest => some { h with catchups := rest }

def next (h : Hub) : Move → Option Hub
  | .notify ev => some (h.notify ev)
  | .register deviceId userId lastSeen => some (h.register deviceId userId lastSeen).1
  | .start k => some (h.start k)
  | .unregister deviceId k => some (h.unregister deviceId k)
  | .takeEvent => h.takeEvent
  | .sendOne k => h.sendOne k
  | .tick now => h.tick now
  | .closeOne k => h.closeOne k
  | .finish => h.finish
  | .recv k now => h.recv k now
  | .write k => h.write k
  | .beat k => h.beat k
  | .fail k => h.fail k
  | .takeCatchup => h.takeCatchup

/-- The registered connections an event is for. -/
def targets (h : Hub) (ev : Event) : List Nat := h.registered fun c => c.hears ev

end Hub

/-- What went through the hub. -/
structure Ledger where
  notified : List Event := []
  accepted : List Event := []
  taken : List (Event × List Nat) := []
  dropped : List (Nat × Event) := []
  /-- The users whose catch-ups have begun. -/
  begun : List String := []

/-- The entry of a move that is made from here. -/
def Ledger.enter (l : Ledger) (h : Hub) : Move → Ledger
  | .notify ev => { l with
      notified := l.notified ++ [ev]
      accepted := if h.queue.length < notifyCapacity then l.accepted ++ [ev] else l.accepted }
  | .takeEvent =>
      match h.queue with
      | [] => l
      | ev :: _ => { l with taken := l.taken ++ [(ev, h.targets ev)] }
  | .sendOne k =>
      match h.loop, h.conns[k]? with
      | .sending ev _, some c =>
          if c.send.length < sendBufferSize then l
          else { l with dropped := l.dropped ++ [(k, ev)] }
      | _, _ => l
  | .takeCatchup => { l with begun := l.begun ++ h.catchups.take 1 }
  | _ => l

/-- The hub with its ledger. -/
abbrev Audited : Type := Hub × Ledger

def Audited.next (x : Audited) (m : Move) : Option Audited :=
  (x.1.next m).map fun h => (h, x.2.enter x.1 m)

end Calcar.Ws
