import Calcar.Phone.Realtime
import Calcar.Phone.Workflow

/-!
# The realtime binding, the banner and the workflow views

`ConnectionController`, and what `providers.dart` and `wired_workflow_view.dart`
wire together: the callbacks of the binding write the connection state, and the
views on screen listen to it.  Beside the components the record counts the
drops, overflows and attention events, and keeps for each snapshot how many there
had been when it was asked for.
-/

namespace Calcar.Phone.Reconnect

open Socket Realtime

/-! ## The banner -/

/-- `ConnectionState`. -/
structure ConnectionState where
  connected : Bool
  needsCatchup : Bool
  deriving DecidableEq, Repr

namespace ConnectionState

/-- `ConnectionState.initial`. -/
def initial : ConnectionState := ⟨false, false⟩

/-- `showBanner`. -/
def showBanner (s : ConnectionState) : Bool := !s.connected || s.needsCatchup

end ConnectionState

/-- The calls of `ConnectionController`. -/
inductive Mark where
  | connected
  | disconnected
  | catchupNeeded
  | caughtUp
  deriving DecidableEq, Repr

/-- The state a call emits, if it emits one. -/
def Mark.emits (s : ConnectionState) : Mark → Option ConnectionState
  | .connected => some ⟨true, false⟩
  | .disconnected => if s.connected = true then some ⟨false, s.needsCatchup⟩ else none
  | .catchupNeeded => some ⟨s.connected, true⟩
  | .caughtUp => some ⟨s.connected, false⟩

/-- The call of `ConnectionController` that the provider wires to a signal, if
any; the rest goes to the devices. -/
def markOf (nowMillis : Int) : Signal SocketEvent → Option Mark
  | .connectionLost => some .disconnected
  | .catchupNeeded => some .catchupNeeded
  | .event event =>
      match routed nowMillis event with
      | some (.attentionPending _ _ _) => some .catchupNeeded
      | _ => none

/-! ## The workflow views -/

/-- A workflow controller and the views that show it. -/
structure Watched where
  view : Workflow.View
  mounted : Nat := 0
  /-- For each snapshot asked for, the troubles there had been by then. -/
  asked : List Nat := []
  /-- The same for the snapshots that were loaded. -/
  loaded : List Nat := []
  deriving DecidableEq, Repr

namespace Watched

variable (w : Watched)

/-- `_loadSnapshot`, up to the fetch. -/
def load (troubles : Nat) : Watched := { w with
  view := { w.view with loads := w.view.loads ++ [w.view.freezes] }
  asked := w.asked ++ [troubles] }

/-- `setFrozen(frozen: true)`. -/
def freeze : Watched := { w with
  view := { w.view with
    freezes := w.view.freezes + 1
    controller := w.view.controller.setFrozen true } }

/-- The listener of `_listenToConnection`. -/
def listen (troubles : Nat) (next : ConnectionState) : Watched :=
  if next.showBanner = true then w.freeze
  else if w.view.controller.frozen = true then w.load troubles
  else w

/-- The listeners of all its views. -/
def notified (troubles : Nat) (next : ConnectionState) : Nat → Watched
  | 0 => w
  | views + 1 => (notified troubles next views).listen troubles next

/-- What happens to the controller that no view does. -/
def next : Workflow.Event → Option Watched
  | .load => none
  | .freeze => none
  | .reply i answer =>
      (w.view.next (.reply i answer)).map fun view => { w with
        view := view
        asked := w.asked.eraseIdx i
        loaded :=
          match answer, w.asked[i]? with
          | .ok _, some troubles => troubles :: w.loaded
          | _, _ => w.loaded }
  | .seed snap => (w.view.next (.seed snap)).map fun view => { w with view := view }
  | .delta d => (w.view.next (.delta d)).map fun view => { w with view := view }
  | .resolve approvalId approved nowMillis =>
      (w.view.next (.resolve approvalId approved nowMillis)).map fun view => { w with view := view }

end Watched

/-! ## The app -/

/-- What is wired together.  `troubles` counts the drops, overflows and attention
events. -/
structure App where
  binding : Option Binding := none
  connection : ConnectionState := .initial
  workflows : List Watched := []
  troubles : Nat := 0

/-- What happens to the app: the scope is watched or left, something happens to
the binding, a view is opened on a workflow that has no controller yet or on one
that has, a view is closed, something happens to a controller. -/
inductive Event where
  | watch (config : SocketConfig) (dial : Bool)
  | leave
  | binding (nowMillis : Int) (e : Realtime.Event)
  | openFirst (computerId workflowId : String)
  | openAgain (i : Nat)
  | close (i : Nat)
  | workflow (i : Nat) (e : Workflow.Event)

namespace App

variable (a : App)

/-- A call of the connection controller, with its listeners. -/
def mark (m : Mark) : App :=
  match m.emits a.connection with
  | none => a
  | some connection => { a with
      connection := connection
      workflows := a.workflows.map fun w => w.notified a.troubles connection w.mounted }

/-- What a signal of the binding leads to. -/
def heard (nowMillis : Int) (a : App) (signal : Signal SocketEvent) : App :=
  match markOf nowMillis signal with
  | none => a
  | some m => { a with troubles := a.troubles + 1 }.mark m

/-- What signals of the binding lead to, one after another. -/
def hears (nowMillis : Int) (signals : List (Signal SocketEvent)) : App :=
  signals.foldl (heard nowMillis) a

/-- `workflows` with one of them replaced. -/
def setWatched (i : Nat) (w : Watched) : App := { a with workflows := a.workflows.set i w }

def next : Event → Option App
  | .watch config dial =>
      match a.binding with
      | none => some { a with binding := some ((Binding.build config).mount dial) }
      | some _ => none
  | .leave => a.binding.map fun _ => { a with binding := none }
  | .binding nowMillis e =>
      a.binding.bind fun binding => (binding.step e).map fun out =>
        { a with binding := some out.1 }.hears nowMillis out.2
  | .openFirst computerId workflowId =>
      let w : Watched := { view := .initial computerId workflowId, mounted := 1 }
      some { a with workflows := a.workflows ++ [w.load a.troubles] }
  | .openAgain i =>
      a.workflows[i]?.map fun w => a.setWatched i { w.load a.troubles with mounted := w.mounted + 1 }
  | .close i => a.workflows[i]?.map fun w => a.setWatched i { w with mounted := w.mounted - 1 }
  | .workflow i e => a.workflows[i]?.bind fun w => (w.next e).map fun w' => a.setWatched i w'

end App

end Calcar.Phone.Reconnect
