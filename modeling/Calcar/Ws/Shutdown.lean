import Calcar.Ws.Moves

/-!
# Handlers and `Close`

The hub with the goroutines that wait for each other: the handler of each
connection, its read and write loops, the goroutines of `markCatchup`, the loop
and every call of `Close`.  A handler and a call of `Close` hold the lock for
parts of their work only, so the points between these parts are states here.
`wg` counts what `Close` waits for; the handlers are not in it.
-/

namespace Calcar.Ws

/-- Where the handler of a connection is: before it starts the read and the
write loop, with these running, after it has removed its entry, and returned. -/
inductive Handler where
  | registered
  | serving
  | removed
  | returned
  deriving DecidableEq, Repr

/-- Where a call of `Close` is.  It has a copy of the registered connections once
it has read them, and closes them one after the other. -/
inductive Close where
  | entered
  | passed
  | shut
  | sweeping (found todo : List Nat)
  | returned
  | panicked
  deriving DecidableEq, Repr

/-- The hub and its goroutines. -/
structure Plane where
  hub : Hub := {}
  looping : Bool := false
  closed : Bool := false
  handlers : List Handler := []
  /-- The read and write loops of each connection that run. -/
  loops : List Nat := []
  enqueuing : Nat := 0
  closes : List Close := []

inductive Act where
  | go
  | move (m : Move)
  | connect (deviceId userId : String) (lastSeen : Int)
  | start (k : Nat)
  | exit (k : Nat)
  | remove (k : Nat)
  | leave (k : Nat)
  | stop
  | catchup
  | enqueued
  | close
  | check (j : Nat)
  | shut (j : Nat)
  | snapshot (j : Nat)
  | sweep (j k : Nat)
  | wait (j : Nat)
  deriving DecidableEq, Repr

/-- The moves of the loop goroutine. -/
def Move.ofLoop : Move → Bool
  | .takeEvent | .sendOne _ | .tick _ | .closeOne _ | .finish => true
  | _ => false

/-- The moves that are parts of handlers and of `markCatchup`. -/
def Move.ofHandler : Move → Bool
  | .register _ _ _ | .start _ | .unregister _ _ | .takeCatchup => true
  | _ => false

namespace Plane

/-- The count of the wait group. -/
def wg (p : Plane) : Nat :=
  p.looping.toNat + p.loops.foldr Nat.add 0 + p.hub.catchups.length + p.enqueuing

def isOpen (p : Plane) (k : Nat) : Bool := (p.hub.conns[k]?).elim false Conn.isOpen

/-- A call of `Close` goes on. -/
def advance (p : Plane) (j : Nat) (c : Close) : Plane := { p with closes := p.closes.set j c }

def next (p : Plane) : Act → Option Plane
  | .go => if p.looping then none else some { p with looping := true }
  | .move m =>
      if m.ofHandler ∨ (m.ofLoop ∧ ¬p.looping) then none
      else (p.hub.next m).map fun hub => { p with hub := hub }
  | .connect deviceId userId lastSeen =>
      some { p with
        hub := (p.hub.register deviceId userId lastSeen).1
        handlers := p.handlers ++ [.registered]
        loops := p.loops ++ [0] }
  | .start k =>
      if p.handlers[k]? = some .registered then
        some { p with
          hub := p.hub.start k
          handlers := p.handlers.set k .serving
          loops := p.loops.set k 2 }
      else none
  -- a loop returns when its connection is closed, and closes it when it returns
  | .exit k =>
      match p.loops[k]? with
      | some (n + 1) =>
          if p.isOpen k then none else some { p with loops := p.loops.set k n }
      | _ => none
  | .remove k =>
      match p.handlers[k]?, p.hub.conns[k]? with
      | some .serving, some c =>
          if c.isOpen then none
          else some { p with
            hub := p.hub.unregister c.deviceId k
            handlers := p.handlers.set k .removed }
      | _, _ => none
  | .leave k =>
      if p.handlers[k]? = some .removed then
        some { p with handlers := p.handlers.set k .returned }
      else none
  | .stop =>
      if p.looping ∧ p.closed ∧ p.hub.loop = .idle then some { p with looping := false }
      else none
  | .catchup =>
      p.hub.takeCatchup.map fun hub => { p with hub := hub, enqueuing := p.enqueuing + 1 }
  | .enqueued =>
      match p.enqueuing with
      | 0 => none
      | n + 1 => some { p with enqueuing := n }
  | .close => some { p with closes := p.closes ++ [.entered] }
  | .check j =>
      if p.closes[j]? = some .entered then
        some (p.advance j (if p.closed then .returned else .passed))
      else none
  -- closing the channel a second time panics
  | .shut j =>
      if p.closes[j]? = some .passed then
        if p.closed then some (p.advance j .panicked)
        else some { p.advance j .shut with closed := true }
      else none
  | .snapshot j =>
      if p.closes[j]? = some .shut then
        let found := p.hub.registered fun _ => true
        some (p.advance j (.sweeping found found))
      else none
  | .sweep j k =>
      match p.closes[j]? with
      | some (.sweeping found todo) =>
          if k ∈ todo then
            some { p.advance j (.sweeping found (todo.filter fun x => ¬x = k)) with
              hub := p.hub.close k }
          else none
      | _ => none
  | .wait j =>
      match p.closes[j]? with
      | some (.sweeping _ []) => if p.wg = 0 then some (p.advance j .returned) else none
      | _ => none

end Plane

end Calcar.Ws
