import Calcar.Agent.Server

/-!
# The phone's inputs

The input side of `wired_workflow_view.dart`: what a mounted view keeps, the
ids it mints and the posts it makes through `postInput`.  A view starts with
nothing, whether it is a first visit, a return to the screen, another start of
the app or another phone.

The phones keep every view that was ever mounted and every post that was ever
made; no view reads the list of posts.
-/

namespace Calcar.Phone

open Agent Lib

/-- `_WiredWorkflowViewState`, with the workflow its widget is for. -/
structure WorkflowView where
  workflowId : String
  inputCount : Nat := 0
  destructiveInputs : List (String × Bool) := []
  deriving DecidableEq, Repr

/-- `BufferedChat`, as far as a retry reads it. -/
structure BufferedChat where
  messageId : String
  body : String
  deriving DecidableEq, Repr

/-- The arguments of one `postInput`. -/
structure Outgoing where
  workflowId : String
  inputId : String
  body : String
  destructive : Bool
  deriving DecidableEq, Repr

/-- `_nextInputId`: the id, with the count already stepped. -/
def inputIdOf (workflowId : String) (inputCount : Nat) : String :=
  workflowId ++ "-in" ++ toString inputCount

/-- `_sendMessage`. -/
def WorkflowView.sendMessage (view : WorkflowView) (body : String) (destructive : Bool) :
    WorkflowView × Outgoing :=
  let inputCount := view.inputCount + 1
  let inputId := inputIdOf view.workflowId inputCount
  ({ view with
      inputCount := inputCount
      destructiveInputs := (inputId, destructive) :: view.destructiveInputs },
    ⟨view.workflowId, inputId, body, destructive⟩)

/-- `_retryMessage`, with the chat the controller holds. -/
def WorkflowView.retryMessage (view : WorkflowView) (chat : List BufferedChat)
    (messageId : String) : Option Outgoing :=
  (chat.find? fun message => message.messageId = messageId).map fun message =>
    ⟨view.workflowId, messageId, message.body,
      ((view.destructiveInputs.find? fun entry => entry.1 = messageId).map Prod.snd).getD false⟩

/-! ## On the wire -/

/-- How the agent gets to read a body: as it was sent, or not at all. -/
inductive Reading where
  | whole
  | unreadable
  | tooLarge
  deriving DecidableEq, Repr

/-- `postInput`, as the agent receives it.  An id outside the alphabet of input
ids is refused on every path, so the path stands for the workflow it names. -/
def postInput (token : String) (o : Outgoing) (reading : Reading) : Post where
  headers := [("Content-Type", "application/json"), ("Authorization", "Bearer " ++ token),
    ("X-Request-ID", o.inputId)]
  workflow := o.workflowId
  body :=
    match reading with
    | .whole => .text (some (.obj [("input_id", .str o.inputId), ("body", .str o.body),
        ("destructive", .bool o.destructive)]))
    | .unreadable => .unreadable
    | .tooLarge => .tooLarge

/-! ## Every phone and every view -/

/-- What a user does, and a new start of the agent.  Views are numbered as they
are mounted. -/
inductive Action where
  | mount (workflowId : String)
  | send (view : Nat) (body : String) (destructive : Bool)
  | retry (view : Nat) (chat : List BufferedChat) (messageId : String)
  | restart
  deriving DecidableEq, Repr

/-- The views mounted so far and the posts they made. -/
structure Phones where
  views : List WorkflowView := []
  posted : List Outgoing := []
  deriving DecidableEq, Repr

/-- The post of an action, if it makes one. -/
def Phones.outgoing (p : Phones) : Action → Option Outgoing
  | .send view body destructive =>
      p.views[view]?.map fun v => (v.sendMessage body destructive).2
  | .retry view chat messageId => p.views[view]?.bind fun v => v.retryMessage chat messageId
  | _ => none

/-- The views after an action. -/
def Phones.viewsAfter (p : Phones) : Action → List WorkflowView
  | .mount workflowId => p.views ++ [{ workflowId := workflowId }]
  | .send view body destructive =>
      p.views.modify view fun v => (v.sendMessage body destructive).1
  | _ => p.views

/-- One action. -/
def Phones.act (p : Phones) (a : Action) : Phones where
  views := p.viewsAfter a
  posted := p.posted ++ (p.outgoing a).toList

/-- The phones after actions. -/
def Phones.after (actions : List Action) : Phones := actions.foldl Phones.act {}

end Calcar.Phone
