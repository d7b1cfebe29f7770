import Calcar.Lib.Conc
import Calcar.Store.Rd
import Calcar.Ws.Conns

/-!
# The world the backend runs in

Postgres, Redis, the hub and the clock of the API process, and the commands
by which a goroutine acts on them.  `Core` is what store methods and handler
bodies are made of.  `Srv` adds the steps only the outer server takes:
entering an authenticated handler body and the stages of a socket upgrade.

The environment lets time pass on both machines, sets the API's wall clock,
lets Redis time pass alone, and moves the goroutines of the hub.
-/

namespace Calcar

open Lib

/-- Everything outside the goroutines that serve requests; `drawn` are the
random bytes handed out so far. -/
structure World where
  pg : PgState := {}
  rd : RdState := {}
  hub : Ws.Hub := {}
  clock : Time := 0
  drawn : List Bytes := []

/-- What the program does not decide about one command: whether it fails,
and which random bytes are drawn. -/
structure Oracle where
  fault : Fault := .none
  bytes : Bytes := []
  deriving DecidableEq

/-! ## Commands of store methods and handler bodies -/

/-- A database command, a clock reading, random bytes or a notification. -/
inductive Core where
  | pg (c : PgCmd)
  | rd (c : RdCmd)
  | now
  | rand (n : Nat)
  | notify (ev : Ws.Event)

namespace Core

@[reducible] def Ans : Core → Type
  | .pg c => Except Pg.PgErr c.Ret
  | .rd c => Except Err c.Ret
  | .now => Time
  | .rand _ => Bytes
  | .notify _ => Unit

/-- One command of thread `i`. -/
def exec : Exec Core Ans World Oracle
  | i, .pg c, o, w =>
      match c.exec i o.fault w.pg with
      | none => none
      | some (p, r) => some ({ w with pg := p }, r)
  | i, .rd c, o, w =>
      some ({ w with rd := (c.exec i o.fault w.rd).1 }, (c.exec i o.fault w.rd).2)
  | _, .now, _, w => some (w, w.clock)
  | _, .rand n, o, w =>
      if n ≤ o.bytes.length then
        some ({ w with drawn := w.drawn ++ [o.bytes.take n] }, o.bytes.take n)
      else none
  | _, .notify ev, _, w => some ({ w with hub := w.hub.notify ev }, ())

end Core

/-- A program of store methods and handler bodies. -/
abbrev Core.M (α : Type) : Type := Prog Core Core.Ans α

/-- One command as a program. -/
abbrev Core.perform (c : Core) : Core.M c.Ans := Prog.perform c

/-! ## Commands of the server -/

/-- A core command, the entry of an authenticated handler body as a device
and user, or a stage of a socket upgrade. -/
inductive Srv where
  | core (c : Core)
  | enter (dev : Device) (user : String)
  | accept (device : String)
  | register (device user : String) (lastSeen : Int)
  | start (conn : Nat)
  | done (conn : Nat)
  | unregister (device : String) (conn : Nat)
  | takeCatchup

namespace Srv

@[reducible] def Ans : Srv → Type
  | .core c => c.Ans
  | .enter _ _ => Unit
  | .accept _ => Bool
  | .register _ _ _ => Nat
  | .start _ => Unit
  | .done _ => Unit
  | .unregister _ _ => Unit
  | .takeCatchup => String

/-- One command of thread `i`; `done` waits until the connection is closed,
`takeCatchup` until a catch-up is asked for. -/
def exec : Exec Srv Ans World Oracle
  | i, .core c, o, w => c.exec i o w
  | _, .enter _ _, _, w => some (w, ())
  | _, .accept _, o, w => some (w, o.fault = .none)
  | _, .register device user lastSeen, _, w =>
      some ({ w with hub := (w.hub.register device user lastSeen).1 },
        (w.hub.register device user lastSeen).2)
  | _, .start k, _, w =>
      some ({ w with hub := w.hub.modify k fun c => { c with running := true } }, ())
  | _, .done k, _, w =>
      match w.hub.conns[k]? with
      | some c => if c.isOpen then none else some (w, ())
      | none => none
  | _, .unregister device k, _, w =>
      some ({ w with hub := w.hub.unregister device k }, ())
  | _, .takeCatchup, _, w =>
      match w.hub.catchups with
      | [] => none
      | user :: rest => some ({ w with hub := { w.hub with catchups := rest } }, user)

end Srv

/-- A program of the server. -/
abbrev Srv.M (α : Type) : Type := Prog Srv Srv.Ans α

/-- One command as a program. -/
abbrev Srv.perform (c : Srv) : Srv.M c.Ans := Prog.perform c

/-- A core program as a program of the server. -/
def Core.toSrv {α : Type} (p : Core.M α) : Srv.M α :=
  p.expand fun c => Srv.perform (.core c)

/-! ## The environment -/

/-- What happens without a request. -/
inductive Env where
  | pass (d : Time)
  | setClock (t : Time)
  | passRedis (d : Time)
  | hubTakeEvent
  | hubSendOne (k : Nat)
  | hubTick
  | hubCloseOne (k : Nat)
  | hubFinish
  | connRecv (k : Nat)
  | connWrite (k : Nat)
  | connBeat (k : Nat)
  | connFail (k : Nat)
  deriving DecidableEq

namespace World

/-- Time passes on every machine. -/
def pass (w : World) (d : Time) : World :=
  { w with
    clock := w.clock + d
    pg := { w.pg with now := w.pg.now + d }
    rd := { w.rd with now := w.rd.now + d } }

/-- A step of the hub, if it is enabled. -/
def withHub (w : World) (h : Option Ws.Hub) : Option World :=
  h.map fun h => { w with hub := h }

end World

/-- One step of the environment. -/
def Env.step : Env → World → Option World
  | .pass d, w => if 0 ≤ d then some (w.pass d) else none
  | .setClock t, w => some { w with clock := t }
  | .passRedis d, w =>
      if 0 ≤ d then some { w with rd := { w.rd with now := w.rd.now + d } } else none
  | .hubTakeEvent, w => w.withHub w.hub.takeEvent
  | .hubSendOne k, w => w.withHub (w.hub.sendOne k)
  | .hubTick, w => w.withHub (w.hub.tick w.clock)
  | .hubCloseOne k, w => w.withHub (w.hub.closeOne k)
  | .hubFinish, w => w.withHub w.hub.finish
  | .connRecv k, w => w.withHub (w.hub.recv k w.clock)
  | .connWrite k, w => w.withHub (w.hub.write k)
  | .connBeat k, w => w.withHub (w.hub.beat k)
  | .connFail k, w => w.withHub (w.hub.fail k)

/-- Tasks that run over the world, interleaved command by command. -/
def system {Task α : Type} (code : Task → Srv.M α) :
    System Task World Oracle Env Srv Srv.Ans α where
  code := code
  exec := Srv.exec
  env := Env.step

end Calcar
