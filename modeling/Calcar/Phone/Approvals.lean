import Calcar.Phone.AgentUrl

/-!
# The phone's approvals

The approvals of `workflow_controller.dart`, the resolve of
`wired_workflow_view.dart`, and what `agent_channel.dart` sends and reads for
them.  Of the buffers of a workflow the ones that hold no approvals are left
out; the approvals never read them.
-/

namespace Calcar.Phone

open Agent

/-! ## State -/

/-- `TrackedApproval`. -/
structure TrackedApproval where
  approvalId : String
  workflowId : String
  title : String
  detail : String
  expiresAtMillis : Int
  resolution : Option String
  destructive : Bool
  deriving DecidableEq, Repr

namespace TrackedApproval

/-- `isResolved`. -/
def isResolved (a : TrackedApproval) : Bool := a.resolution.isSome

/-- `isExpired`. -/
def isExpired (a : TrackedApproval) (nowMillis : Int) : Bool :=
  !a.isResolved && decide (a.expiresAtMillis ≤ nowMillis)

/-- `isInert`. -/
def isInert (a : TrackedApproval) (nowMillis : Int) : Bool :=
  a.isResolved || a.isExpired nowMillis

/-- `canResolve`. -/
def canResolve (a : TrackedApproval) (nowMillis : Int) : Bool := !a.isInert nowMillis

/-- `withResolution`. -/
def withResolution (a : TrackedApproval) (decision : String) : TrackedApproval :=
  { a with resolution := some decision }

end TrackedApproval

/-- `WorkflowBuffers`. -/
structure WorkflowBuffers where
  workflowId : String
  computerId : String
  status : String := "running"
  lastSeqNo : Int := 0
  approvals : List TrackedApproval := []
  deriving DecidableEq, Repr

/-- `WorkflowController`. -/
structure WorkflowController where
  computerId : String
  workflowId : String
  snapshotLoaded : Bool := false
  frozen : Bool := false
  state : WorkflowBuffers
  deriving DecidableEq, Repr

/-! ## Reading a snapshot -/

mutual

/-- `toString` of a decoded JSON value. -/
def dartText : Value → String
  | .null => "null"
  | .bool true => "true"
  | .bool false => "false"
  | .int n => toString n
  | .str s => s
  | .arr vs => "[" ++ ", ".intercalate (dartTexts vs) ++ "]"
  | .obj fields => "\x7b" ++ ", ".intercalate (dartEntries fields) ++ "\x7d"

def dartTexts : List Value → List String
  | [] => []
  | v :: vs => dartText v :: dartTexts vs

def dartEntries : List (String × Value) → List String
  | [] => []
  | (key, v) :: fields => (key ++ ": " ++ dartText v) :: dartEntries fields

end

/-- `(j[key] ?? '').toString()`, with another default as it may be. -/
def textField (j : Value) (key default : String) : String :=
  match j.field key with
  | none => default
  | some .null => default
  | some v => dartText v

/-- `(j[key] as num?)?.toInt() ?? 0`; the cast throws on anything else. -/
def numField (j : Value) (key : String) : Option Int :=
  match j.field key with
  | none => some 0
  | some .null => some 0
  | some (.int n) => some n
  | some _ => none

/-- `is Map`. -/
def isMap : Value → Bool
  | .obj _ => true
  | _ => false

/-- The maps among the values of a list; of anything else, none. -/
def rowsOf (j : Value) (key : String) : List Value :=
  match j.field key with
  | some (.arr vs) => vs.filter isMap
  | _ => []

/-- One row of the approvals. -/
def trackedFrom (workflowId : String) (r : Value) : Option TrackedApproval :=
  (numField r "expires_at_millis").map fun expiresAtMillis =>
    { approvalId := textField r "approval_id" ""
      workflowId := workflowId
      title := textField r "title" ""
      detail := textField r "detail" ""
      expiresAtMillis := expiresAtMillis
      resolution :=
        match r.field "resolution" with
        | none => none
        | some .null => none
        | some v => some (dartText v)
      destructive := r.boolField "destructive" = some true }

/-- The approvals of a snapshot; a row without an id is dropped. -/
def approvalsFrom (workflowId : String) : List Value → Option (List TrackedApproval)
  | [] => some []
  | r :: rs =>
      if textField r "approval_id" "" = "" then approvalsFrom workflowId rs
      else
        match trackedFrom workflowId r with
        | none => none
        | some a => (approvalsFrom workflowId rs).map (a :: ·)

/-- `_buffersFrom`. -/
def buffersFrom (j : Value) : Option WorkflowBuffers :=
  match approvalsFrom (textField j "workflow_id" "") (rowsOf j "approvals"),
      numField j "last_seq_no" with
  | some approvals, some lastSeqNo =>
      some {
        workflowId := textField j "workflow_id" ""
        computerId := textField j "computer_id" ""
        status := textField j "status" "running"
        lastSeqNo := lastSeqNo
        approvals := approvals }
  | _, _ => none

/-- `_decode` with `_buffersFrom`: what a response gives, unless it throws. -/
def decodeBuffers (res : Response) : Option WorkflowBuffers :=
  if res.status < 200 ∨ 300 ≤ res.status then none
  else
    match res.body with
    | some (.obj fields) => buffersFrom (.obj fields)
    | _ => none

/-! ## The controller -/

namespace WorkflowController

/-- `loadSnapshot`, with the response of the agent if there is one. -/
def loadSnapshot (c : WorkflowController) (res : Option Response) : WorkflowController :=
  match res.bind decodeBuffers with
  | none => c
  | some snap => { c with snapshotLoaded := true, frozen := false, state := snap }

/-- `setFrozen`. -/
def setFrozen (c : WorkflowController) (frozen : Bool) : WorkflowController :=
  { c with frozen := frozen }

/-- `_accept`. -/
def accept (c : WorkflowController) (seqNo : Int) : Bool :=
  c.snapshotLoaded && !c.frozen && decide (c.state.lastSeqNo < seqNo)

/-- `add` on a list of `toList(growable: false)`: it has a fixed length, and the
call throws. -/
def addFixed {T : Type} (_ : List T) (_ : T) : Option (List T) := none

/-- `upsertApproval`; `none` where it throws, with the controller as it was. -/
def upsertApproval (c : WorkflowController) (seqNo : Int) (approval : TrackedApproval) :
    Option WorkflowController :=
  if c.accept seqNo then
    let kept := c.state.approvals.filter fun current =>
      current.approvalId ≠ approval.approvalId
    (addFixed kept approval).map fun approvals =>
      { c with state := { c.state with approvals := approvals, lastSeqNo := seqNo } }
  else some c

/-- The decision as the phone and the agent write it. -/
def resolutionWord (approved : Bool) : String := if approved then "approved" else "rejected"

/-- `resolveApproval`: nothing if the guard turns it down. -/
def resolveApproval (c : WorkflowController) (approvalId : String) (approved : Bool)
    (nowMillis : Int) : Option WorkflowController :=
  if c.frozen then none
  else
    let index := c.state.approvals.findIdx fun current => current.approvalId = approvalId
    match c.state.approvals[index]? with
    | none => none
    | some current =>
        if current.canResolve nowMillis then
          let next := c.state.approvals.set index
            (current.withResolution (resolutionWord approved))
          some { c with state := { c.state with approvals := next } }
        else none

/-- What an attempt that the guard lets through finds and leaves. -/
theorem resolveApproval_some {c next : WorkflowController} {approvalId : String}
    {approved : Bool} {nowMillis : Int}
    (h : c.resolveApproval approvalId approved nowMillis = some next) :
    c.frozen = false ∧ ∃ current,
      c.state.approvals[c.state.approvals.findIdx fun row => row.approvalId = approvalId]? =
        some current ∧ current.canResolve nowMillis = true ∧
      next = { c with state := { c.state with
        approvals := c.state.approvals.set
          (c.state.approvals.findIdx fun row => row.approvalId = approvalId)
          (current.withResolution (resolutionWord approved)) } } := by
  unfold resolveApproval at h
  by_cases hfrozen : c.frozen = true
  · rw [if_pos hfrozen] at h
    cases h
  · rw [if_neg hfrozen] at h
    dsimp only at h
    cases hrow : c.state.approvals[c.state.approvals.findIdx fun row =>
        row.approvalId = approvalId]? with
    | none =>
        rw [hrow] at h
        cases h
    | some current =>
        rw [hrow] at h
        obtain ⟨hcan, hnext⟩ := Option.ite_none_right_eq_some.1 h
        exact ⟨Bool.eq_false_iff.2 hfrozen, current, rfl, hcan, (Option.some.inj hnext).symm⟩

end WorkflowController

/-! ## The channel -/

/-- `approvalIdempotencyKey`. -/
def approvalIdempotencyKey (workflowId approvalId : String) : String :=
  workflowId ++ ":" ++ approvalId

/-- `_headers`. -/
def channelHeaders (token : String) (requestId : Option String) : List (String × String) :=
  [("Content-Type", "application/json"), ("Authorization", "Bearer " ++ token)] ++
    (requestId.map fun id => ("X-Request-ID", id)).toList

/-- A request of the channel as it is sent; `none` where a header throws. -/
def channelRequest (call : AgentCall) (token : String) (requestId : Option String)
    (body : Body) : Option HttpRequest :=
  if ∀ h ∈ channelHeaders token requestId, isHeaderValue h.2 = true then
    some {
      method := call.method
      target := Uri.target call.path
      headers := channelHeaders token requestId
      body := body }
  else none

/-- The bytes of a character in what `jsonEncode` writes. -/
def jsonCharBytes (c : Char) : Nat :=
  if c ∈ ['"', '\\', '\t', '\n', '\r', '\x08', '\x0c'] then 2
  else if c.toNat < 32 then 6
  else c.utf8Size

/-- The bytes of a text that `jsonEncode` writes, with its quotes. -/
def jsonTextBytes (s : String) : Nat :=
  s.toList.foldl (fun n c => n + jsonCharBytes c) 2

/-- The bytes of the object in a resolve. -/
def resolveBytes (requestId : String) (allow : Bool) : Nat :=
  25 + jsonTextBytes requestId + if allow then 4 else 5

/-- `postApprovalResolve`. -/
def postApprovalResolve (token workflowId requestId : String) (allow : Bool) :
    Option HttpRequest :=
  channelRequest (.postApprovalResolve workflowId) token (some requestId)
    (.ofObject (resolveBytes requestId allow)
      [("approval_id", .str requestId), ("allow", .bool allow)])

/-- `fetchWorkflow`. -/
def fetchWorkflow (token computerId workflowId : String) : Option HttpRequest :=
  channelRequest (.fetchWorkflow computerId workflowId) token none (.text none)

/-- `_resolveApproval` of the view: the controller afterwards and the post, if
the local guard lets it through. -/
def resolveTapped (token : String) (c : WorkflowController) (approvalId : String)
    (approved : Bool) (nowMillis : Int) : Option (WorkflowController × Option HttpRequest) :=
  (c.resolveApproval approvalId approved nowMillis).map fun next =>
    (next, postApprovalResolve token c.workflowId
      (approvalIdempotencyKey c.workflowId approvalId) approved)

end Calcar.Phone
