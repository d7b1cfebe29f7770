import Calcar.Lib.Events
import Calcar.Phone.Buffers

/-!
# The workflow controller

`WorkflowController` with its buffers, and the snapshots it waits for.  A
snapshot is asked for when `loadSnapshot` is called and answered by an event of
its own, in any order; the code after the `await` runs then.  Beside the
controller the view keeps a record of what happened: how often it was frozen,
how often it had been when each snapshot was asked for, the deltas it took in
and the approvals resolved on it.
-/

namespace Calcar.Phone.Workflow

/-- `WorkflowController`. -/
structure Controller where
  computerId : String
  workflowId : String
  snapshotLoaded : Bool := false
  frozen : Bool := false
  loadError : String := ""
  state : Buffers
  deriving DecidableEq, Repr

/-- A controller as its provider builds it. -/
def Controller.initial (computerId workflowId : String) : Controller where
  computerId := computerId
  workflowId := workflowId
  state := { computerId := computerId, workflowId := workflowId }

namespace Controller

variable (c : Controller)

/-- What `loadSnapshot` and `seed` do with a snapshot. -/
def adopt (snap : Buffers) : Controller :=
  { c with snapshotLoaded := true, frozen := false, loadError := "", state := snap.capped }

/-- `loadSnapshot`, once the fetch is answered. -/
def loaded : Except String Buffers → Controller
  | .ok snap => c.adopt snap
  | .error e => { c with loadError := e }

/-- `setFrozen`. -/
def setFrozen (frozen : Bool) : Controller := { c with frozen := frozen }

/-- `seed`. -/
def seed (snap : Buffers) : Controller :=
  if c.snapshotLoaded = true ∨ snap.workflowId ≠ c.workflowId then c else c.adopt snap

/-- `_accept`. -/
def accept (seqNo : Int) : Bool :=
  c.snapshotLoaded && !c.frozen && decide (c.state.lastSeqNo < seqNo)

/-- `applyStatus`. -/
def applyStatus (seqNo : Int) (status : String) : Controller :=
  if c.accept seqNo = false then c
  else { c with state := { c.state with status := status, lastSeqNo := seqNo } }

/-- `appendActivity`. -/
def appendActivity (event : BufferedActivity) : Controller :=
  if c.accept event.seqNo = false then c
  else { c with state := { c.state with
    activity := tailOf (c.state.activity ++ [event]) kActivityCap
    lastSeqNo := event.seqNo } }

/-- `appendChat`. -/
def appendChat (message : BufferedChat) : Controller :=
  if c.accept message.seqNo = false then c
  else { c with state := { c.state with
    chat := tailOf (c.state.chat ++ [message]) kChatCap
    lastSeqNo := message.seqNo } }

/-- `appendTerminal`. -/
def appendTerminal (seqNo : Int) (lines : List String) : Controller :=
  if lines = [] ∨ c.accept seqNo = false then c
  else { c with state := { c.state with
    terminalLines := capTerminalTail (c.state.terminalLines ++ lines)
    terminalTotalLines := c.state.terminalTotalLines + lines.length
    lastSeqNo := seqNo } }

/-- `applyFiles`. -/
def applyFiles (seqNo : Int) (hunks : List BufferedFile) : Controller :=
  if c.accept seqNo = false then c
  else
    let kept := capDiffs hunks
    { c with state := { c.state with
      files := kept
      filesTruncated := diffsTruncated kept hunks.length
      lastSeqNo := seqNo } }

/-- The controller as far as its approvals go. -/
def slim : WorkflowController where
  computerId := c.computerId
  workflowId := c.workflowId
  snapshotLoaded := c.snapshotLoaded
  frozen := c.frozen
  state := c.state.toWorkflowBuffers

/-- The controller with the approvals and the sequence number of another. -/
def withSlim (next : WorkflowController) : Controller :=
  { c with state := { c.state with toWorkflowBuffers := next.state } }

/-- `upsertApproval`; `none` where it throws. -/
def upsertApproval (seqNo : Int) (approval : TrackedApproval) : Option Controller :=
  (c.slim.upsertApproval seqNo approval).map c.withSlim

/-- `resolveApproval`; `none` where it answers false. -/
def resolveApproval (approvalId : String) (approved : Bool) (nowMillis : Int) :
    Option Controller :=
  (c.slim.resolveApproval approvalId approved nowMillis).map c.withSlim

end Controller

/-! ## Deltas -/

/-- A delta of the agent's event stream. -/
inductive Delta where
  | status (seqNo : Int) (status : String)
  | activity (event : BufferedActivity)
  | chat (message : BufferedChat)
  | terminal (seqNo : Int) (lines : List String)
  | files (seqNo : Int) (hunks : List BufferedFile)
  | approval (seqNo : Int) (approval : TrackedApproval)
  deriving DecidableEq, Repr

namespace Delta

def seqNo : Delta → Int
  | .status seqNo _ => seqNo
  | .activity event => event.seqNo
  | .chat message => message.seqNo
  | .terminal seqNo _ => seqNo
  | .files seqNo _ => seqNo
  | .approval seqNo _ => seqNo

/-- The call it is handed to; `none` where that throws. -/
def call (c : Controller) : Delta → Option Controller
  | .status seqNo text => some (c.applyStatus seqNo text)
  | .activity event => some (c.appendActivity event)
  | .chat message => some (c.appendChat message)
  | .terminal seqNo lines => some (c.appendTerminal seqNo lines)
  | .files seqNo hunks => some (c.applyFiles seqNo hunks)
  | .approval seqNo row => c.upsertApproval seqNo row

/-- The delta is one the controller takes in. -/
def taken (c : Controller) (d : Delta) : Bool :=
  c.accept d.seqNo && d != .terminal d.seqNo [] && (d.call c).isSome

end Delta

/-! ## What happens to a view -/

/-- The controller, the snapshots it waits for, and what happened to it. -/
structure View where
  controller : Controller
  /-- For each snapshot asked for, how often the view had been frozen by then. -/
  loads : List Nat := []
  freezes : Nat := 0
  /-- The sequence numbers of the deltas taken in, the last one first. -/
  applied : List Int := []
  /-- The approvals resolved here, the last one first. -/
  resolved : List String := []
  deriving DecidableEq, Repr

/-- `freeze` is `setFrozen(frozen: true)`, which is what a drop calls. -/
inductive Event where
  | load
  | reply (i : Nat) (answer : Except String Buffers)
  | freeze
  | seed (snap : Buffers)
  | delta (d : Delta)
  | resolve (approvalId : String) (approved : Bool) (nowMillis : Int)

namespace View

variable (v : View)

def initial (computerId workflowId : String) : View where
  controller := .initial computerId workflowId

def next : Event → Option View
  | .load => some { v with loads := v.loads ++ [v.freezes] }
  | .reply i answer =>
      v.loads[i]?.map fun _ => { v with
        loads := v.loads.eraseIdx i
        controller := v.controller.loaded answer }
  | .freeze => some { v with
      freezes := v.freezes + 1
      controller := v.controller.setFrozen true }
  | .seed snap => some { v with controller := v.controller.seed snap }
  | .delta d => some { v with
      controller := (d.call v.controller).getD v.controller
      applied := if d.taken v.controller then d.seqNo :: v.applied else v.applied }
  | .resolve approvalId approved nowMillis => some <|
      match v.controller.resolveApproval approvalId approved nowMillis with
      | none => v
      | some c => { v with controller := c, resolved := approvalId :: v.resolved }

end View

end Calcar.Phone.Workflow
