import Calcar.Phone.Approvals
import Calcar.Verified.AgentRoutes
import Calcar.Verified.Permissions
import Calcar.Verified.Registry

/-!
# An approval between phone and agent

The phone knows an approval by its bare id.  Its post names the row by the key
that the permission manager made of the workflow and that id, so it touches
the row of the approval and no other.  It gets there if the headers of the
phone take the key, if the address that the workflow id is put into leads to
the approvals of a workflow, and if the agent reads the key as it was written.
The agent then files the outcome under the id of the post, and serves it under
that id.  The phone takes a snapshot as it is: the outcome comes back under
the key, never as the outcome of the approval it knows.

## Main results

* `post_succeeds` — a post that is delivered is answered 200.
* `post_reaches` — a post that is answered 200 resolves its row and no other.
* `post_unread` — a post that is not delivered changes no row.
* `Recorded.after` — the outcome stays in the registry, and in the saved one.
* `snapshot_lists` — what the phone holds after a snapshot.
* `identity_kept_iff` — the approval is kept under its id just when its post is
  delivered and no snapshot follows.
* `outcome_under_key` — a run in which the outcome comes back under the key.
-/

namespace Calcar.Phone

open Agent Lib

/-! ## The phone and the agent -/

/-- Where they run: the agent's settings with its programs for the other routes, which file
no outcomes, and the phone's channel to it. -/
structure Setup where
  cfg : ConnectConfig
  computerId : String
  others : Route → Code Response
  othersFile : ∀ r, (others r).Only FilesNothing
  token : String

/-- The agent, and the phone's controller of one workflow. -/
structure Party where
  agent : Machine
  phone : WorkflowController

/-- What the agent does beside the phone: calls of the permission manager and
posts of anyone, snapshots, new starts, and whatever files no outcomes. -/
inductive AgentTask where
  | manager (c : PermissionCall)
  | snapshot (g : SnapshotGet)
  | restart
  | other (p : Code Unit) (h : p.Only FilesNothing)

/-- What happens next. -/
inductive PartyTask where
  | agent (task : AgentTask)
  | tap (approvalId : String) (approved : Bool) (nowMillis : Int)
  | load (received : Bool)
  | upsert (seqNo : Int) (approval : TrackedApproval)
  | freeze (frozen : Bool)

/-- The program behind a task of the agent. -/
def AgentTask.code (S : Setup) : AgentTask → Code Unit
  | .manager c => do
      let _ ← c.code
      return ()
  | .snapshot g => do
      let _ ← replySnapshot S.cfg S.computerId g
      return ()
  | .restart => Prog.perform Cmd.restart
  | .other p _ => p

/-- One task, how far the agent gets with it, and among what. -/
structure PartyStep where
  task : PartyTask
  steps : Nat
  oracles : Nat → Oracle

/-- The request for a snapshot. -/
def Party.asks (S : Setup) (p : Party) : Option HttpRequest :=
  fetchWorkflow S.token p.phone.computerId p.phone.workflowId

/-- The post behind a tap that passes the local guard. -/
def Party.posts (S : Setup) (p : Party) (approvalId : String) (approved : Bool) :
    Option HttpRequest :=
  postApprovalResolve S.token p.phone.workflowId
    (approvalIdempotencyKey p.phone.workflowId approvalId) approved

/-- The agent after a request, if one is sent, and its response. -/
def Party.sends (S : Setup) (n : Nat) (os : Nat → Oracle) (p : Party) :
    Option HttpRequest → Machine × Option Response
  | none => (p.agent, none)
  | some q => (replyRequest S.cfg S.computerId S.others q).attempt exec 0 n os p.agent

/-- The party after what a tap makes, and the response to its post. -/
def Party.tapped (S : Setup) (n : Nat) (os : Nat → Oracle) (p : Party) :
    Option (WorkflowController × Option HttpRequest) → Party × Option Response
  | none => (p, none)
  | some (next, post) =>
      let posted := p.sends S n os post
      (⟨posted.1, next⟩, posted.2)

/-- The party after a task, and the response the phone sees. -/
def PartyTask.run (S : Setup) (n : Nat) (os : Nat → Oracle) (p : Party) :
    PartyTask → Party × Option Response
  | .agent task => (⟨((task.code S).attempt exec 0 n os p.agent).1, p.phone⟩, none)
  | .tap approvalId approved nowMillis =>
      p.tapped S n os (resolveTapped S.token p.phone approvalId approved nowMillis)
  | .load received =>
      let served := p.sends S n os (p.asks S)
      let response := if received then served.2 else none
      (⟨served.1, p.phone.loadSnapshot response⟩, response)
  | .upsert seqNo approval =>
      (⟨p.agent, (p.phone.upsertApproval seqNo approval).getD p.phone⟩, none)
  | .freeze frozen => (⟨p.agent, p.phone.setFrozen frozen⟩, none)

def PartyStep.after (S : Setup) (t : PartyStep) (p : Party) : Party :=
  (t.task.run S t.steps t.oracles p).1

def PartyStep.response (S : Setup) (t : PartyStep) (p : Party) : Option Response :=
  (t.task.run S t.steps t.oracles p).2

/-- The party after steps. -/
def partyAfter (S : Setup) (p : Party) (ts : List PartyStep) : Party :=
  ts.foldl (fun p t => t.after S p) p

/-! ## The law -/

/-- The row under the key, and no other, is resolved with the payload. -/
def Reaches (key payload : String) (m m' : Machine) : Prop :=
  rest key m'.db = rest key m.db ∧
    ∃ row now, m.db.requestOf key = some row ∧ row.state = .pending ∧
      m'.db.requestOf key = some { row with
        state := .resolved, resolvedAtMillis := some now, resolvePayload := some payload }

/-- The list holds approval `r` of `w` with this outcome, and not a second time
under its key. -/
def KnownAs (w r payload : String) (approvals : List TrackedApproval) : Prop :=
  (∃ a ∈ approvals, a.approvalId = r ∧ a.resolution = some payload) ∧
    ∀ a ∈ approvals, a.approvalId ≠ namespacedKey w r

/-- The agent reads the phone's posts as posts for workflow `x`. -/
def PostsFor (p : Party) (x : String) : Prop :=
  (AgentCall.postApprovalResolve p.phone.workflowId).served = .approval x

/-- The step brings the phone a snapshot of workflow `x`. -/
def Loads (S : Setup) (x : String) (t : PartyStep) (p : Party) : Prop :=
  t.task = .load true ∧
    (∃ computer, (AgentCall.fetchWorkflow p.phone.computerId p.phone.workflowId).served =
      .workflowSnapshot computer x) ∧
    ∃ response, t.response S p = some response ∧ response.status = 200

/-- The approval that step `t` resolves stays one approval through the steps
`vs` that follow. -/
structure IdentityKept (S : Setup) (p : Party) (t : PartyStep) (r : String) (approved : Bool)
    (vs : List PartyStep) : Prop where
  reaches : Reaches (namespacedKey p.phone.workflowId r)
    (WorkflowController.resolutionWord approved) p.agent (t.after S p).agent
  shown : ∀ x, PostsFor p x → ∀ us l ws, vs = us ++ l :: ws →
    Loads S x l (partyAfter S (t.after S p) us) →
    KnownAs p.phone.workflowId r (WorkflowController.resolutionWord approved)
      (l.after S (partyAfter S (t.after S p) us)).phone.state.approvals

/-- The agent holds the request open, and carries out what the tap of the phone makes it do:
the guard lets the tap through, and nothing fails or is cut short. -/
structure CarriedOut (S : Setup) (p : Party) (t : PartyStep) (r : String) (approved : Bool)
    (now : Int) : Prop where
  tapped : ∃ next, p.phone.resolveApproval r approved now = some next
  waits : ∃ row, p.agent.db.requestOf (namespacedKey p.phone.workflowId r) = some row ∧
    row.state = .pending ∧ ∀ n, row.overdue (t.oracles n).clock = false
  steps : 10 ≤ t.steps
  works : ∀ n, Works (t.oracles n)

/-- The post of approval `r` gets to the agent, which lets the phone in, knows the workflow
in the address, and reads the key as it was written. -/
structure Delivered (S : Setup) (p : Party) (r : String) (approved : Bool) : Prop where
  header : isHeaderValue ("Bearer " ++ S.token) = true
  key : isHeaderValue (namespacedKey p.phone.workflowId r) = true
  trimmed : Text.trimSpace (namespacedKey p.phone.workflowId r) =
    namespacedKey p.phone.workflowId r
  size : resolveBytes (namespacedKey p.phone.workflowId r) approved ≤ maxBodyBytes
  token : Text.trimSpace S.token = S.cfg.token
  known : ∃ x, PostsFor p x ∧ (p.agent.db.getWorkflow x).isSome = true

/-- No snapshot of the workflow that the posts are for reaches the phone in these steps. -/
def Unserved (S : Setup) (p : Party) (vs : List PartyStep) : Prop :=
  ∀ x, PostsFor p x → ∀ us l ws, vs = us ++ l :: ws → ¬Loads S x l (partyAfter S p us)

/-! ## The registry -/

/-- Commands that file no outcome under this id; the process starts again only
under `D`. -/
def LeavesRow (D : Prop) (id : String) : Cmd → Prop
  | .recordApproval row => row.approvalId ≠ id
  | .restart => D
  | _ => True

/-- The outcome is final, in the registry and, where it matters, saved. -/
structure Recorded (D : Prop) (row : ResolvedApproval) (m : Machine) : Prop where
  settled : Settled row.approvalId m.db
  listed : row ∈ m.registry.approvals
  saved : D → row ∈ m.saved.approvals

section Registry

variable {D : Prop} {row : ResolvedApproval} {m : Machine} {c : Cmd} {j : Nat} {α : Type}

theorem leavesRow_of_files {id : String} (hc : FilesNothing c) : LeavesRow D id c := by
  cases c with
  | recordApproval row => exact hc.elim
  | restart => exact hc.elim
  | _ => trivial

theorem mem_recordApproval {r : Registry} {other : ResolvedApproval} (h : row ∈ r.approvals)
    (hne : other.approvalId ≠ row.approvalId) : row ∈ (r.recordApproval other).approvals := by
  have hkept : decide (row.approvalId ≠ other.approvalId) = true := by
    simpa using hne.symm
  exact List.mem_append_left _ (List.mem_filter.mpr ⟨h, hkept⟩)

/-- **One command** keeps what is recorded. -/
theorem Recorded.run (hc : LeavesRow D row.approvalId c) (o : Oracle) (h : Recorded D row m) :
    Recorded D row (c.run o m).1 := by
  have hsettled : Settled row.approvalId (c.run o m).1.db :=
    db_run (P := Settled row.approvalId) (fun s _ hdb => hdb.step s) c o h.settled
  cases c with
  | sql s =>
      obtain hm | hm := Cmd.sql_changes s o m
      · rw [hm]
        exact h
      · rw [hm] at hsettled ⊢
        exact ⟨hsettled, h.listed, h.saved⟩
  | saveRegistry =>
      obtain hm | hm := Cmd.saveRegistry_changes o m
      · rw [hm]
        exact h
      · rw [hm] at hsettled ⊢
        exact ⟨hsettled, h.listed, fun _ => h.listed⟩
  | touchWorkflow w =>
      have hsame := m.registry.touchWorkflow_approvals w
      refine ⟨hsettled, ?_, h.saved⟩
      show row ∈ (m.registry.touchWorkflow w).approvals
      rw [hsame]
      exact h.listed
  | recordApproval other => exact ⟨hsettled, mem_recordApproval h.listed hc, h.saved⟩
  | restart => exact ⟨hsettled, h.saved hc, fun _ => h.saved hc⟩
  | _ => exact ⟨hsettled, h.listed, h.saved⟩

theorem Recorded.keep {p : Code α} (hp : p.Only (LeavesRow D row.approvalId))
    (h : Recorded D row m) :
    p.Meets exec j (fun _ m' => Recorded D row m') (Recorded D row) m :=
  meets_keep hp (fun _ o _ hc hm => hm.run hc o) h

theorem resolvePendingRequest_files (id payload : String) :
    (resolvePendingRequest id payload).Only FilesNothing :=
  (resolvePendingRequest_only id payload none).mono fun _ hc => RequestCmd.filesNothing hc

theorem Recorded.orInternal {p : Code (Except StorageError α)} {f : α → Code Response}
    (hp : p.Only FilesNothing) (h : Recorded D row m)
    (hf : ∀ a m', Recorded D row m' →
      (f a).Meets exec j (fun _ m'' => Recorded D row m'') (Recorded D row) m') :
    (orInternal p f).Meets exec j (fun _ m' => Recorded D row m') (Recorded D row) m := by
  have hkept : p.Meets exec j (fun _ m' => Recorded D row m') (Recorded D row) m :=
    Recorded.keep (hp.mono fun _ hc => leavesRow_of_files hc) h
  refine meets_orInternal (hkept.mono (fun a m' hm' => ?_) fun _ hm' => hm')
  cases a with
  | error e => exact fun _ => hm'
  | ok x => exact hf x m' hm'

/-- **No post** changes the outcome of a row that has ended. -/
theorem Recorded.approve (cfg : ConnectConfig) (p : Post) (h : Recorded D row m) :
    (replyApproval cfg p).Meets exec j (fun _ m' => Recorded D row m') (Recorded D row) m := by
  unfold replyApproval reply
  by_cases hb : bearerOk p cfg.token = true
  · rw [if_pos hb]
    unfold handleApproval
    cases approvalFields p with
    | error r => exact ⟨h, h⟩
    | ok fields =>
        obtain ⟨id, allow⟩ := fields
        refine Recorded.orInternal (Prog.only_perform trivial) h fun _ m₁ h₁ => ?_
        refine Recorded.orInternal (Prog.only_perform trivial) h₁ fun found m₂ h₂ => ?_
        cases found with
        | none => exact ⟨h₂, h₂⟩
        | some _ =>
            refine Recorded.orInternal (Prog.only_perform trivial) h₂ fun _ m₃ h₃ => ?_
            have hkeep := Recorded.keep (j := j)
              ((resolvePendingRequest_files id (if allow then "approved" else "rejected")).mono
                fun _ hc => leavesRow_of_files hc) h₃
            by_cases hid : id = row.approvalId
            · subst hid
              refine Prog.meets_bind ((hkeep.and (resolve_closed h₃.settled)).mono
                (fun a m₄ ha _ => ?_) fun _ hm' => hm'.1)
              cases a with
              | error e =>
                  exact Recorded.keep (approvalRefused_only (fun _ => trivial) e) ha.1
              | ok u => exact absurd rfl ha.2
            · refine Prog.meets_bind (hkeep.mono (fun a m₄ ha _ => ?_) fun _ hm' => hm')
              cases a with
              | error e =>
                  exact Recorded.keep (approvalRefused_only (fun _ => trivial) e) ha
              | ok u =>
                  exact Recorded.keep ⟨trivial, fun _ => ⟨hid, fun _ => ⟨trivial, fun _ => trivial⟩⟩⟩
                    ha
  · rw [if_neg hb]
    exact ⟨h, h⟩

theorem requestApproval_files (w r device summary : String) (ttlMillis : Nat) :
    (requestApproval w r device summary ttlMillis).Only FilesNothing := by
  unfold requestApproval
  by_cases h : w = "" ∨ r = "" ∨ device = ""
  · rw [if_pos h]
    trivial
  · rw [if_neg h]
    refine ⟨trivial, fun t => andThen_only ?_ fun _ => ⟨trivial, fun _ => trivial⟩⟩
    exact (createPendingRequest_only _ w .approval _).mono fun _ hc =>
      RequestCmd.filesNothing hc

theorem VerdictCmd.filesNothing {key : Option String} (hc : VerdictCmd key c) :
    FilesNothing c := by
  cases c with
  | recordApproval row => exact hc
  | restart => exact hc
  | _ => trivial

theorem resolveLocked_files (pending : List (String × PendingEntry)) (id device : String)
    (decision : ApprovalDecision) :
    (resolveLocked pending id device decision).Only FilesNothing :=
  (resolveLocked_only id device decision { pending := pending }).mono fun _ hc =>
    VerdictCmd.filesNothing hc

/-- A call of the permission manager keeps what is recorded. -/
theorem Recorded.call (c : PermissionCall) (h : Recorded D row m) :
    c.code.Meets exec j (fun _ m' => Recorded D row m') (Recorded D row) m := by
  have hwrap : ∀ {β : Type} {p : Code β} {f : β → PermissionReply}, p.Only FilesNothing →
      (p >>= fun a => .ret (f a) : Code PermissionReply).Meets exec j
        (fun _ m' => Recorded D row m') (Recorded D row) m := by
    intro β p f hp
    refine Prog.meets_bind ((Recorded.keep (hp.mono fun _ hc => leavesRow_of_files hc) h).mono
      (fun _ _ hm' _ => ⟨hm', hm'⟩) fun _ hm' => hm')
  cases c with
  | request w r device summary ttlMillis => exact hwrap (requestApproval_files ..)
  | resolve id device decision =>
      exact hwrap ⟨trivial, fun pending => resolveLocked_files pending id device decision⟩
  | sweep => exact hwrap ⟨trivial, fun _ => Prog.only_perform trivial⟩
  | list w => exact hwrap ⟨trivial, fun _ => ⟨trivial, fun _ => trivial⟩⟩
  | approve cfg p =>
      exact Prog.meets_bind ((h.approve cfg p).mono (fun _ _ hm' _ => ⟨hm', hm'⟩)
        fun _ hm' => hm')

/-- **No request** changes the outcome, whatever its route. -/
theorem Recorded.request (S : Setup) (q : HttpRequest) (h : Recorded D row m) :
    (replyRequest S.cfg S.computerId S.others q).Meets exec j
      (fun _ m' => Recorded D row m') (Recorded D row) m := by
  have hfiles : ∀ {p : Code Response}, p.Only FilesNothing →
      p.Meets exec j (fun _ m' => Recorded D row m') (Recorded D row) m :=
    fun hp => Recorded.keep (hp.mono fun _ hc => leavesRow_of_files hc) h
  unfold replyRequest
  cases route q.method q.target with
  | workflowSnapshot computer w => exact hfiles (replySnapshot_files ..)
  | approval w => exact h.approve S.cfg _
  | input w => exact hfiles (reply_only (handleInput_files ..))
  | notFound => exact hfiles (reply_only trivial)
  | devices query => exact hfiles (reply_only (S.othersFile _))
  | computer id => exact hfiles (reply_only (S.othersFile _))
  | sysinfo id => exact hfiles (reply_only (S.othersFile _))

/-- **Every task of the agent** keeps what is recorded, wherever it stops. -/
theorem Recorded.task {S : Setup} {task : AgentTask} (hup : task = .restart → D)
    (h : Recorded D row m) (n : Nat) (os : Nat → Oracle) :
    Recorded D row ((task.code S).attempt exec j n os m).1 := by
  have hmeets : (task.code S).Meets exec j (fun _ m' => Recorded D row m') (Recorded D row) m := by
    cases task with
    | manager c =>
        exact Prog.meets_bind ((h.call c).mono (fun _ _ hm' _ => ⟨hm', hm'⟩) fun _ hm' => hm')
    | snapshot g =>
        have hfiles := replySnapshot_files S.cfg S.computerId g
        exact Prog.meets_bind ((Recorded.keep (hfiles.mono fun _ hc => leavesRow_of_files hc)
          h).mono (fun _ _ hm' _ => ⟨hm', hm'⟩) fun _ hm' => hm')
    | restart => exact Recorded.keep (Prog.only_perform (hup rfl)) h
    | other p hp => exact Recorded.keep (hp.mono fun _ hc => leavesRow_of_files hc) h
  exact (Prog.meets_attempt hmeets n os).1

end Registry

/-! ## One step -/

section Steps

variable {S : Setup} {p : Party} {t : PartyStep} {D : Prop} {row : ResolvedApproval}

/-- A tap is the guard and, behind it, the post. -/
theorem tapped_run {r : String} {approved : Bool} {now : Int}
    (htask : t.task = .tap r approved now) :
    t.task.run S t.steps t.oracles p =
      p.tapped S t.steps t.oracles ((p.phone.resolveApproval r approved now).map fun next =>
        (next, p.posts S r approved)) := by
  rw [htask]
  rfl

/-- What a tap does that passes the guard. -/
theorem tap_run {r : String} {approved : Bool} {now : Int} (htask : t.task = .tap r approved now)
    {next : WorkflowController} (h : p.phone.resolveApproval r approved now = some next) :
    (t.after S p).agent = (p.sends S t.steps t.oracles (p.posts S r approved)).1 := by
  unfold PartyStep.after
  rw [tapped_run htask, h]
  rfl

/-- A tap leaves the agent alone, or with what the post makes of it. -/
theorem tap_keeps {r : String} {approved : Bool} {now : Int} (htask : t.task = .tap r approved now)
    {I : Machine → Prop} (hidle : I p.agent)
    (hsent : I (p.sends S t.steps t.oracles (p.posts S r approved)).1) :
    I (t.after S p).agent := by
  cases hguard : p.phone.resolveApproval r approved now with
  | none =>
      unfold PartyStep.after
      rw [tapped_run htask, hguard]
      exact hidle
  | some next =>
      rw [tap_run htask hguard]
      exact hsent

/-- The guard leaves the controller with its workflow. -/
theorem resolveApproval_workflow {c next : WorkflowController} {r : String} {approved : Bool}
    {now : Int} (h : c.resolveApproval r approved now = some next) :
    next.workflowId = c.workflowId := by
  obtain ⟨-, _, -, -, rfl⟩ := WorkflowController.resolveApproval_some h
  rfl

/-- The controller stays with its workflow. -/
theorem after_workflow (t : PartyStep) (p : Party) :
    (t.after S p).phone.workflowId = p.phone.workflowId := by
  unfold PartyStep.after
  cases t.task with
  | agent task => rfl
  | tap r approved now =>
      show (p.tapped S t.steps t.oracles
        (resolveTapped S.token p.phone r approved now)).1.phone.workflowId = _
      unfold resolveTapped
      cases hguard : p.phone.resolveApproval r approved now with
      | none => rfl
      | some next => exact resolveApproval_workflow hguard
  | load received =>
      show (p.phone.loadSnapshot _).workflowId = _
      unfold WorkflowController.loadSnapshot
      cases Option.bind _ decodeBuffers with
      | none => rfl
      | some snap => rfl
  | upsert seqNo approval =>
      show ((p.phone.upsertApproval seqNo approval).getD p.phone).workflowId = _
      unfold WorkflowController.upsertApproval
      by_cases haccept : p.phone.accept seqNo = true
      · rw [if_pos haccept]
        rfl
      · rw [if_neg haccept]
        rfl
  | freeze frozen => rfl

theorem Recorded.sends (h : Recorded D row p.agent) (n : Nat) (os : Nat → Oracle)
    (q : Option HttpRequest) : Recorded D row (p.sends S n os q).1 := by
  cases q with
  | none => exact h
  | some q => exact (Prog.meets_attempt (h.request S q) n os).1

/-- **A step** keeps what is recorded. -/
theorem Recorded.step (h : Recorded D row p.agent) (hup : t.task = .agent .restart → D) :
    Recorded D row (t.after S p).agent := by
  unfold PartyStep.after
  cases htask : t.task with
  | agent task =>
      exact h.task (fun hrestart => hup (by rw [htask, hrestart])) t.steps t.oracles
  | tap r approved now =>
      show Recorded D row (p.tapped S t.steps t.oracles
        (resolveTapped S.token p.phone r approved now)).1.agent
      cases resolveTapped S.token p.phone r approved now with
      | none => exact h
      | some tapped => exact h.sends t.steps t.oracles tapped.2
  | load received => exact h.sends t.steps t.oracles (p.asks S)
  | upsert seqNo approval => exact h
  | freeze frozen => exact h

/-- **Every run** keeps what is recorded, and the controller its workflow. -/
theorem Recorded.after (h : Recorded D row p.agent) (ts : List PartyStep)
    (hup : (∃ t ∈ ts, t.task = .agent .restart) → D) :
    Recorded D row (partyAfter S p ts).agent ∧
      (partyAfter S p ts).phone.workflowId = p.phone.workflowId := by
  induction ts generalizing p with
  | nil => exact ⟨h, rfl⟩
  | cons t ts ih =>
      have hstep : Recorded D row (t.after S p).agent :=
        h.step fun htask => hup ⟨t, List.mem_cons_self, htask⟩
      have hrest := ih hstep fun hlater => by
        obtain ⟨u, hu, htask⟩ := hlater
        exact hup ⟨u, List.mem_cons_of_mem t hu, htask⟩
      exact ⟨hrest.1, hrest.2.trans (after_workflow t p)⟩

end Steps

/-! ## The post -/

/-- The post of a resolve at the route of an approval of workflow `x`. -/
def resolvePost (token x key : String) (allow : Bool) : Post :=
  ⟨channelHeaders token (some key), x, .ofObject (resolveBytes key allow)
    [("approval_id", .str key), ("allow", .bool allow)]⟩

section Fields

variable {token x key : String} {allow : Bool}

theorem namespacedKey_ne_empty (w r : String) : namespacedKey w r ≠ "" := by
  intro h
  have hlength : (w ++ ":" ++ r).length = 0 := by
    show (namespacedKey w r).length = 0
    rw [h]
    rfl
  simp at hlength

theorem bearerOk_resolve (agent : String) :
    bearerOk (resolvePost token x key allow) agent = true ↔ Text.trimSpace token = agent := by
  have hother : equiv "Content-Type" "Authorization" = false ∧
      equiv "X-Request-ID" "Authorization" = false ∧
      equiv "Authorization" "Authorization" = true := by decide
  have hrest : bearerRest ("Bearer " ++ token) = some token := by
    simp [bearerRest, String.toList_append]
  simp [bearerOk, resolvePost, channelHeaders, hother, hrest]

theorem requestIdOf_resolve : requestIdOf (resolvePost token x key allow) =
    if Text.trimSpace key = "" then none else some (Text.trimSpace key) := by
  have hother : ∀ value, (equiv "Content-Type" "X-Request-ID" && value) = false ∧
      (equiv "Authorization" "X-Request-ID" && value) = false := by decide
  have hown : equiv "X-Request-ID" "X-Request-ID" = true := by decide
  by_cases hempty : Text.trimSpace key = ""
  · simp [requestIdOf, resolvePost, channelHeaders, hother, hempty]
  · simp [requestIdOf, resolvePost, channelHeaders, hother, hown, hempty]

/-- The agent reads the key if the body is small enough and nothing is trimmed off. -/
theorem approvalFields_resolve (token x : String) (allow : Bool) (hne : key ≠ "") :
    (approvalFields (resolvePost token x key allow) = .ok (key, allow) ∧
        resolveBytes key allow ≤ maxBodyBytes ∧ Text.trimSpace key = key) ∨
      ∃ r, approvalFields (resolvePost token x key allow) = .error r ∧
        ¬(resolveBytes key allow ≤ maxBodyBytes ∧ Text.trimSpace key = key) := by
  by_cases hsize : maxBodyBytes < resolveBytes key allow
  · refine .inr ⟨errorBody 413 "PAYLOAD_TOO_LARGE" "body exceeds 1 MiB", ?_, fun h => ?_⟩
    · unfold approvalFields resolvePost Body.ofObject
      rw [if_pos hsize]
      rfl
    · exact absurd hsize (Nat.not_lt.mpr h.1)
  · have hfields : approvalFields (resolvePost token x key allow) =
        if key = "" then .error (errorBody 400 "MALFORMED" "approval_id must not be empty")
        else if requestIdOf (resolvePost token x key allow) ≠ some key then
          .error (errorBody 400 "MALFORMED" "X-Request-ID must equal approval_id")
        else .ok (key, allow) := by
      unfold approvalFields
      rw [show (resolvePost token x key allow).body =
        .text (some (.obj [("approval_id", .str key), ("allow", .bool allow)])) from if_neg hsize]
      rfl
    rw [hfields, if_neg hne, requestIdOf_resolve]
    by_cases htrim : Text.trimSpace key = key
    · rw [htrim, if_neg hne, if_neg (not_not_intro rfl)]
      exact .inl ⟨rfl, Nat.not_lt.mp hsize, rfl⟩
    · have hread : (if Text.trimSpace key = "" then none else some (Text.trimSpace key)) ≠
          some key := by
        split
        · exact (Option.some_ne_none key).symm
        · exact fun h => htrim (Option.some.inj h)
      rw [if_pos hread]
      exact .inr ⟨_, rfl, fun h => htrim h.2⟩

/-- At the route of an input it is refused. -/
theorem inputFields_resolve (token x key : String) (allow : Bool) :
    ∃ r, inputFields (resolvePost token x key allow) = .error r := by
  unfold inputFields
  by_cases hsize : maxBodyBytes < resolveBytes key allow
  · rw [show (resolvePost token x key allow).body = .tooLarge from if_pos hsize]
    exact ⟨_, rfl⟩
  · rw [show (resolvePost token x key allow).body =
      .text (some (.obj [("approval_id", .str key), ("allow", .bool allow)])) from if_neg hsize]
    exact ⟨_, rfl⟩

end Fields

section Served

variable {S : Setup} {p : Party} {q : HttpRequest} {r : String} {approved : Bool}

/-- The post that a tap makes. -/
theorem posts_some (h : p.posts S r approved = some q) :
    (isHeaderValue ("Bearer " ++ S.token) = true ∧
      isHeaderValue (namespacedKey p.phone.workflowId r) = true) ∧
    ∀ x, (⟨q.headers, x, q.body⟩ : Post) =
        resolvePost S.token x (namespacedKey p.phone.workflowId r) approved ∧
      (route q.method q.target = .approval x ↔ PostsFor p x) := by
  obtain ⟨hheaders, hq⟩ := Option.ite_none_right_eq_some.mp h
  rw [← Option.some.inj hq]
  refine ⟨⟨?_, ?_⟩, fun x => ⟨rfl, Iff.rfl⟩⟩
  · exact hheaders ("Authorization", "Bearer " ++ S.token) (by simp [channelHeaders])
  · exact hheaders ("X-Request-ID", namespacedKey p.phone.workflowId r)
      (by simp [channelHeaders, approvalIdempotencyKey, namespacedKey])

/-- Nothing stops the post on the phone whose headers are taken. -/
theorem posts_sent (approved : Bool)
    (hheader : isHeaderValue ("Bearer " ++ S.token) = true)
    (hkey : isHeaderValue (namespacedKey p.phone.workflowId r) = true) :
    ∃ q, p.posts S r approved = some q := by
  refine ⟨_, if_pos fun h hmem => ?_⟩
  simp only [channelHeaders, Option.map_some, Option.toList_some, List.cons_append,
    List.nil_append, List.mem_cons, List.not_mem_nil, or_false] at hmem
  obtain rfl | rfl | rfl := hmem
  · decide
  · exact hheader
  · exact hkey

/-- A post is served at the route of an approval that its address leads to. -/
theorem posts_approval (h : p.posts S r approved = some q) {x : String} (hx : PostsFor p x) :
    replyRequest S.cfg S.computerId S.others q = replyApproval S.cfg
      (resolvePost S.token x (namespacedKey p.phone.workflowId r) approved) := by
  have hparts := (posts_some h).2 x
  unfold replyRequest
  rw [hparts.2.mpr hx, ← hparts.1]

/-- A post is served as an approval of the workflow in its address, or answered at once. -/
theorem posts_served (h : p.posts S r approved = some q) :
    (∃ x, PostsFor p x ∧ replyRequest S.cfg S.computerId S.others q = replyApproval S.cfg
      (resolvePost S.token x (namespacedKey p.phone.workflowId r) approved)) ∨
    ∃ response, replyRequest S.cfg S.computerId S.others q = .ret response := by
  have hpost : q.method = .post := by
    obtain ⟨-, hq⟩ := Option.ite_none_right_eq_some.mp h
    rw [← Option.some.inj hq]
    rfl
  have hparts := (posts_some h).2
  have hat_once : ∀ (y : Post) (handle : Post → Code Response) (answer : Response),
      handle y = .ret answer → ∃ response, reply S.cfg y handle = .ret response := by
    intro y handle answer hanswer
    unfold reply
    split
    · exact ⟨answer, hanswer⟩
    · exact ⟨⟨401, none⟩, rfl⟩
  obtain ⟨x, hx⟩ | ⟨x, hx⟩ | hx := route_post q.target
  · have hfor : PostsFor p x := (hparts x).2.mp (by rw [hpost, hx])
    exact .inl ⟨x, hfor, posts_approval h hfor⟩
  · refine .inr ?_
    unfold replyRequest
    rw [hpost, hx]
    show ∃ response, reply S.cfg ⟨q.headers, x, q.body⟩ (handleInput S.cfg) = .ret response
    rw [(hparts x).1]
    obtain ⟨answer, hanswer⟩ := inputFields_resolve S.token x
      (namespacedKey p.phone.workflowId r) approved
    refine hat_once _ _ answer ?_
    unfold handleInput
    rw [hanswer]
    rfl
  · unfold replyRequest
    rw [hpost, hx]
    exact .inr (hat_once _ _ _ rfl)

end Served

section Post

variable {S : Setup} {m : Machine} {w r : String} {approved : Bool} {j : Nat}

theorem approvalRefused_status (e : StorageError) :
    (approvalRefused e).Yields fun response => response.status ≠ 200 := by
  have hinternal : ∀ e, (internalError e).Yields fun response => response.status ≠ 200 := by
    intro e text
    show (500 : Nat) ≠ 200
    omega
  cases e with
  | sqlite => exact hinternal _
  | invalidState _ => exact hinternal _
  | notFound _ =>
      show (404 : Nat) ≠ 200
      omega
  | alreadyResolved _ =>
      show (409 : Nat) ≠ 200
      omega
  | expired _ =>
      show (410 : Nat) ≠ 200
      omega

/-- What a resolve that succeeds does to its row. -/
theorem resolve_row {key payload : String} (h : DistinctIds m.db) :
    (resolvePendingRequest key payload).Meets exec j
      (fun a m' => a = .ok () → ∃ row now, m.db.requestOf key = some row ∧
        row.state = .pending ∧ m'.db.requestOf key = some { row with
          state := .resolved, resolvedAtMillis := some now, resolvePayload := some payload })
      (fun _ => True) m := by
  rw [resolvePendingRequest_eq]
  refine Prog.meets_bind (meets_now trivial fun t _ => ?_)
  refine (resolveAt_answer h).mono (fun a m' ha hok => ?_) fun _ hc => hc
  subst hok
  generalize hpre : m.db.requestOf key = pre at ha
  generalize hpost : m'.db.requestOf key = post at ha
  cases ha with
  | applied row hpending _ => exact ⟨row, t, rfl, hpending, rfl⟩

/-- Saving the registry changes what is saved. -/
theorem saveRegistry_same (o : Oracle) (m : Machine) :
    (Cmd.saveRegistry.run o m).1.db = m.db ∧ (Cmd.saveRegistry.run o m).1.registry = m.registry := by
  obtain hm | hm := Cmd.saveRegistry_changes o m
  · rw [hm]
    exact ⟨rfl, rfl⟩
  · rw [hm]
    exact ⟨rfl, rfl⟩

/-- The outcome of the post is filed once its row is resolved. -/
theorem approvalResolved_files {key payload : String} :
    (approvalResolved w key payload).Meets exec j
      (fun _ m' => m'.db = m.db ∧ ⟨key, w, payload⟩ ∈ m'.registry.approvals)
      (fun _ => True) m := by
  refine Prog.meets_bind (p := Prog.perform (Cmd.touchWorkflow w))
    (meets_perform trivial fun o => ⟨trivial, fun _ => ?_⟩)
  refine Prog.meets_bind (p := Prog.perform (Cmd.recordApproval ⟨key, w, payload⟩))
    (meets_perform trivial fun o' => ⟨trivial, fun _ => ?_⟩)
  refine Prog.meets_bind (p := Prog.perform Cmd.saveRegistry)
    (meets_perform trivial fun o'' => ⟨trivial, fun _ => ⟨trivial, ?_⟩⟩)
  have hlisted : (⟨key, w, payload⟩ : ResolvedApproval) ∈
      ((m.registry.touchWorkflow w).recordApproval ⟨key, w, payload⟩).approvals :=
    List.mem_append_right _ (List.mem_singleton_self _)
  have hsaves : ∀ m₁ : Machine, m₁.db = m.db → ⟨key, w, payload⟩ ∈ m₁.registry.approvals →
      (Cmd.saveRegistry.run o'' m₁).1.db = m.db ∧
        ⟨key, w, payload⟩ ∈ (Cmd.saveRegistry.run o'' m₁).1.registry.approvals := by
    intro m₁ hdb hlisted₁
    obtain ⟨hsame, hregistry⟩ := saveRegistry_same o'' m₁
    rw [hsame, hregistry]
    exact ⟨hdb, hlisted₁⟩
  exact hsaves _ rfl hlisted

/-- What a post leaves that is answered 200. -/
def Answered (key w payload : String) (m m' : Machine) : Prop :=
  (∃ row now, m.db.requestOf key = some row ∧ row.state = .pending ∧
    m'.db.requestOf key = some { row with
      state := .resolved, resolvedAtMillis := some now, resolvePayload := some payload }) ∧
    Settled key m'.db ∧ ⟨key, w, payload⟩ ∈ m'.registry.approvals

theorem approve_answered (cfg : ConnectConfig) {p : Post} {key : String} {allow : Bool}
    (hf : approvalFields p = .ok (key, allow)) (h : DistinctIds m.db) :
    (replyApproval cfg p).Meets exec j
      (fun response m' => response.status = 200 →
        Answered key p.workflow (if allow then "approved" else "rejected") m m')
      (fun _ => True) m := by
  have hinternal : ∀ (text : String) {P : Prop},
      (errorBody 500 "INTERNAL" text).status = 200 → P := by
    intro text P hstatus
    have hno : (500 : Nat) = 200 := hstatus
    omega
  unfold replyApproval reply
  by_cases hb : bearerOk p cfg.token = true
  · rw [if_pos hb]
    unfold handleApproval
    rw [hf]
    refine meets_orInternal (meets_openStore trivial (fun text => hinternal text) ?_)
    refine meets_orInternal (p := sql (.selectWorkflow p.workflow))
      (meets_sql trivial (fun text => hinternal text) ⟨trivial, ?_⟩)
    have hread : (Sql.selectWorkflow p.workflow).step m.db =
        (m.db, .ok (m.db.getWorkflow p.workflow)) := rfl
    rw [hread]
    cases m.db.getWorkflow p.workflow with
    | none =>
        refine ⟨trivial, fun hstatus => ?_⟩
        have hno : (404 : Nat) = 200 := hstatus
        omega
    | some row =>
        refine meets_orInternal (meets_openStore trivial (fun text => hinternal text) ?_)
        refine Prog.meets_bind (((resolve_row h).and resolve_settles).mono
          (fun a m' ha _ => ?_) fun _ _ => trivial)
        cases a with
        | error e =>
            refine (approvalRefused_status e).meets.mono (fun response _ hno hstatus => ?_)
              fun _ _ => trivial
            exact absurd hstatus hno
        | ok u =>
            refine approvalResolved_files.mono (fun response m'' hm'' _ => ?_) fun _ _ => trivial
            obtain ⟨hdb, hlisted⟩ := hm''
            obtain ⟨hrow, hsettled⟩ := ha
            unfold Answered
            rw [hdb]
            exact ⟨hrow rfl, hsettled rfl, hlisted⟩
  · rw [if_neg hb]
    refine ⟨trivial, fun hstatus => ?_⟩
    have hno : (401 : Nat) = 200 := hstatus
    omega

end Post

section Delivery

variable {S : Setup} {p : Party} {t : PartyStep} {r : String} {approved : Bool} {now : Int}
  {n : Nat} {os : Nat → Oracle}

theorem attempt_ret {α : Type} (a : α) (m : Machine) :
    ((.ret a : Code α).attempt exec 0 n os m).1 = m := by
  cases n with
  | zero => rfl
  | succ n => rfl

theorem replyApproval_refused (cfg : ConnectConfig) {y : Post} {answer : Response}
    (h : approvalFields y = .error answer) : ∃ response, replyApproval cfg y = .ret response := by
  unfold replyApproval reply handleApproval
  rw [h]
  split
  · exact ⟨answer, rfl⟩
  · exact ⟨⟨401, none⟩, rfl⟩

/-- What the handler keeps holds behind every post: one that does not get to the handler, or
is refused by it, changes nothing. -/
theorem sends_keeps {I : Machine → Prop} (hstart : I p.agent)
    (hpost : ∀ q x, p.posts S r approved = some q → PostsFor p x →
      approvalFields (resolvePost S.token x (namespacedKey p.phone.workflowId r) approved) =
        .ok (namespacedKey p.phone.workflowId r, approved) →
      resolveBytes (namespacedKey p.phone.workflowId r) approved ≤ maxBodyBytes ∧
        Text.trimSpace (namespacedKey p.phone.workflowId r) =
          namespacedKey p.phone.workflowId r →
      (replyApproval S.cfg (resolvePost S.token x (namespacedKey p.phone.workflowId r)
        approved)).Meets exec 0 (fun _ => I) I p.agent) :
    I (p.sends S n os (p.posts S r approved)).1 := by
  cases hq : p.posts S r approved with
  | none => exact hstart
  | some q =>
      show I ((replyRequest S.cfg S.computerId S.others q).attempt exec 0 n os p.agent).1
      obtain ⟨x, hx, hserved⟩ | ⟨response, hserved⟩ := posts_served hq
      · rw [hserved]
        obtain ⟨hf, hsound⟩ | ⟨answer, hf, -⟩ := approvalFields_resolve S.token x approved
          (namespacedKey_ne_empty p.phone.workflowId r)
        · exact (Prog.meets_attempt (hpost q x hq hx hf hsound) n os).1
        · obtain ⟨response, hret⟩ := replyApproval_refused S.cfg hf
          rw [hret, attempt_ret]
          exact hstart
      · rw [hserved, attempt_ret]
        exact hstart

/-- **A post changes no row but that of its key**, wherever it stops. -/
theorem post_rest (S : Setup) (p : Party) (r : String) (approved : Bool) (n : Nat)
    (os : Nat → Oracle) :
    rest (namespacedKey p.phone.workflowId r)
        (p.sends S n os (p.posts S r approved)).1.db =
      rest (namespacedKey p.phone.workflowId r) p.agent.db := by
  refine sends_keeps (I := fun m => rest (namespacedKey p.phone.workflowId r) m.db =
    rest (namespacedKey p.phone.workflowId r) p.agent.db) rfl fun q x _ _ hf _ => ?_
  have htarget := handleApproval_concerns (resolvePost S.token x
    (namespacedKey p.phone.workflowId r) approved)
  unfold approvalTarget at htarget
  rw [hf] at htarget
  exact meets_keep (j := 0) (@reply_only _ S.cfg _ _ htarget)
    (fun _ o m' hc hm' => (hc.rest o m').trans hm') rfl

/-- **A post that is not delivered** changes no row. -/
theorem post_unread (hno : ¬Delivered S p r approved) :
    (p.sends S n os (p.posts S r approved)).1.db = p.agent.db := by
  refine sends_keeps (I := fun m => m.db = p.agent.db) rfl fun q x hq hx hf hsound => ?_
  obtain ⟨hheader, hkey⟩ := (posts_some hq).1
  unfold replyApproval reply
  by_cases hb : bearerOk (resolvePost S.token x
      (namespacedKey p.phone.workflowId r) approved) S.cfg.token = true
  · have hunknown : p.agent.db.getWorkflow x = none := by
      by_contra hknown
      exact hno ⟨hheader, hkey, hsound.2, hsound.1, (bearerOk_resolve _).mp hb, x, hx,
        Option.isSome_iff_ne_none.mpr hknown⟩
    rw [if_pos hb]
    unfold handleApproval
    rw [hf]
    refine meets_orInternal (meets_openStore rfl (fun _ => rfl) ?_)
    refine meets_orInternal (p := sql (.selectWorkflow x))
      (meets_sql rfl (fun _ => rfl) ⟨rfl, ?_⟩)
    have hread : (Sql.selectWorkflow x).step p.agent.db = (p.agent.db, .ok none) := by
      rw [Sql.step, hunknown]
    rw [hread]
    exact ⟨rfl, rfl⟩
  · rw [if_neg hb]
    exact ⟨rfl, rfl⟩

end Delivery

/-- What is filed under the workflow that the agent reads in the address. -/
def filed (w r x : String) (approved : Bool) : ResolvedApproval :=
  ⟨namespacedKey w r, x, WorkflowController.resolutionWord approved⟩

section Returns

variable {α : Type} {ok : Oracle → Prop} {Q : α → Machine → Prop} {m : Machine} {n : Nat}

theorem returns_call {c : Cmd} {k : c.Ans → Code α}
    (h : ∀ o, ok o → (k (c.run o m).2).Returns exec 0 ok Q n (c.run o m).1) :
    (Prog.call c k).Returns exec 0 ok Q (n + 1) m :=
  fun o ho => ⟨_, _, rfl, h o ho⟩

theorem returns_sql (hok : ∀ o, ok o → Works o) {s : Sql} {f : Except StorageError s.Ret → Code α}
    {db : Db} {a : Except StorageError s.Ret} (hs : s.step m.db = (db, a))
    (h : (f a).Returns exec 0 ok Q n { m with db := db }) :
    (sql s >>= f).Returns exec 0 ok Q (n + 1) m := by
  refine returns_call (c := .sql s) fun o ho => ?_
  rw [(hok o ho).sql, hs]
  exact h

theorem returns_openStore {Q : Response → Machine → Prop} (hok : ∀ o, ok o → Works o)
    {f : Unit → Code Response} (h : (f ()).Returns exec 0 ok Q n m) :
    (orInternal openStore f).Returns exec 0 ok Q (n + 1) m := by
  refine returns_call (c := .openStore) fun o ho => ?_
  rw [(hok o ho).openStore]
  exact h

/-- A request that waits is resolved, while its deadline is to come. -/
theorem returns_resolve {key payload : String} {row : RequestRow}
    {f : Except StorageError Unit → Code α} (hm : DistinctIds m.db)
    (hrow : m.db.requestOf key = some row) (hpending : row.state = .pending)
    (hok : ∀ o, ok o → Works o ∧ row.overdue o.clock = false)
    (h : ∀ db, (f (.ok ())).Returns exec 0 ok Q n { m with db := db }) :
    (resolvePendingRequest key payload >>= f).Returns exec 0 ok Q (n + 3) m := by
  refine returns_call (c := .now) fun o ho => ?_
  have hlapse : row.lapse o.clock = row := by
    unfold RequestRow.lapse
    rw [(hok o ho).2, if_neg Bool.false_ne_true]
  have hids : DistinctIds (m.db.updateExpired key o.clock) := hm.step (.updateExpired key o.clock)
  have hcount : ((m.db.updateExpired key o.clock).updateResolved key payload o.clock).2 = 1 := by
    rw [updateResolved_count hids, requestOf_lapse, hrow,
      Option.map_some, hlapse]
    simp [waits, hpending]
  refine returns_sql (s := .updateExpired key o.clock) (fun o ho => (hok o ho).1) rfl ?_
  have hdone : (Sql.updateResolved key payload o.clock).step (m.db.updateExpired key o.clock) =
      (((m.db.updateExpired key o.clock).updateResolved key payload o.clock).1, .ok (1 : Nat)) := by
    rw [Sql.step, hcount]
  exact returns_sql (fun o ho => (hok o ho).1) hdone (h _)

/-- An approval post whose request waits is answered 200, and the registry saved. -/
theorem returns_approve (cfg : ConnectConfig) {y : Post} {key : String} {allow : Bool}
    {row : RequestRow} (hm : DistinctIds m.db) (hb : bearerOk y cfg.token = true)
    (hf : approvalFields y = .ok (key, allow))
    (hknown : (m.db.getWorkflow y.workflow).isSome = true)
    (hrow : m.db.requestOf key = some row) (hpending : row.state = .pending) :
    (replyApproval cfg y).Returns exec 0 (fun o => Works o ∧ row.overdue o.clock = false)
      (fun response m' => response.status = 200 ∧
        ⟨key, y.workflow, if allow then "approved" else "rejected"⟩ ∈ m'.saved.approvals) 10 m := by
  obtain ⟨known, hknown⟩ := Option.isSome_iff_exists.mp hknown
  have hread : (Sql.selectWorkflow y.workflow).step m.db = (m.db, .ok (some known)) := by
    rw [Sql.step, hknown]
  unfold replyApproval reply
  rw [if_pos hb]
  unfold handleApproval
  rw [hf]
  refine returns_openStore (fun _ ho => ho.1) ?_
  refine returns_sql (s := .selectWorkflow y.workflow) (fun _ ho => ho.1) hread ?_
  refine returns_openStore (fun _ ho => ho.1) ?_
  refine returns_resolve hm hrow hpending (fun _ ho => ho) fun db => ?_
  refine returns_call (c := .touchWorkflow y.workflow) fun _ _ => ?_
  refine returns_call (c := .recordApproval ⟨key, y.workflow, _⟩) fun _ _ => ?_
  refine returns_call (c := .saveRegistry) fun o ho => ?_
  rw [ho.1.saveRegistry]
  exact ⟨rfl, List.mem_append_right _ (List.mem_singleton_self _)⟩

end Returns

section Delivery

variable {S : Setup} {p : Party} {t : PartyStep} {r x : String} {approved : Bool} {now : Int}

/-- What the agent does with a post that its address leads to a workflow. -/
theorem sends_approval {q : HttpRequest} (hq : p.posts S r approved = some q) (hx : PostsFor p x)
    (n : Nat) (os : Nat → Oracle) :
    p.sends S n os (some q) = (replyApproval S.cfg (resolvePost S.token x
      (namespacedKey p.phone.workflowId r) approved)).attempt exec 0 n os p.agent := by
  rw [← posts_approval hq hx]
  rfl

/-- What the agent reads of a post that is delivered. -/
theorem delivered_fields (hd : Delivered S p r approved) (x : String) :
    approvalFields (resolvePost S.token x (namespacedKey p.phone.workflowId r) approved) =
      .ok (namespacedKey p.phone.workflowId r, approved) := by
  obtain ⟨hf, -⟩ | ⟨answer, -, hrefused⟩ := approvalFields_resolve S.token x approved
    (namespacedKey_ne_empty p.phone.workflowId r)
  · exact hf
  · exact absurd ⟨hd.size, hd.trimmed⟩ hrefused

/-- **A post that is delivered** while the request waits is answered 200, and its outcome is
saved. -/
theorem post_succeeds (hm : DistinctIds p.agent.db) (h : CarriedOut S p t r approved now)
    (hd : Delivered S p r approved) (hx : PostsFor p x) :
    ∃ response, (p.sends S t.steps t.oracles (p.posts S r approved)).2 = some response ∧
      response.status = 200 ∧ filed p.phone.workflowId r x approved ∈
        (p.sends S t.steps t.oracles (p.posts S r approved)).1.saved.approvals := by
  obtain ⟨q, hq⟩ := posts_sent approved hd.header hd.key
  obtain ⟨y, hy, hknown⟩ := hd.known
  obtain rfl : y = x := by
    have hsame : Route.approval y = .approval x := hy.symm.trans hx
    cases hsame
    rfl
  obtain ⟨row, hrow, hpending, hdue⟩ := h.waits
  have hreturns := returns_approve S.cfg hm ((bearerOk_resolve _).mpr hd.token)
    (delivered_fields hd y) hknown hrow hpending
  rw [hq, sends_approval hq hy]
  exact Prog.returns_attempt (fun k => ⟨h.works k, hdue k⟩) hreturns h.steps

/-- **A post that is answered 200** resolves its row and no other. -/
theorem post_reaches {n : Nat} {os : Nat → Oracle} (hm : DistinctIds p.agent.db)
    (hd : Delivered S p r approved) (hx : PostsFor p x) {response : Response}
    (hresponse : (p.sends S n os (p.posts S r approved)).2 = some response)
    (hstatus : response.status = 200) :
    Reaches (namespacedKey p.phone.workflowId r) (WorkflowController.resolutionWord approved)
        p.agent (p.sends S n os (p.posts S r approved)).1 ∧
      Answered (namespacedKey p.phone.workflowId r) x (WorkflowController.resolutionWord approved)
        p.agent (p.sends S n os (p.posts S r approved)).1 := by
  have hrest := post_rest S p r approved n os
  cases hq : p.posts S r approved with
  | none =>
      rw [hq] at hresponse
      cases hresponse
  | some q =>
      rw [hq, sends_approval hq hx] at hresponse hrest
      rw [sends_approval hq hx]
      have hanswered := (Prog.meets_attempt
        (approve_answered S.cfg (delivered_fields hd x) hm) n os).2 response hresponse hstatus
      exact ⟨⟨hrest, hanswered.1⟩, hanswered⟩

end Delivery

/-! ## The snapshot -/

/-- How the phone reads an outcome of the registry. -/
def shownAs (workflowId : String) (row : ResolvedApproval) : TrackedApproval where
  approvalId := row.approvalId
  workflowId := workflowId
  title := ""
  detail := ""
  expiresAtMillis := 0
  resolution := some row.resolution
  destructive := false

section Snapshot

variable {S : Setup} {m : Machine} {w : String} {j : Nat} {registry : Registry}

theorem trackedFrom_row (w : String) (row : ResolvedApproval) :
    trackedFrom w (approvalRow row) = some (shownAs w row) := rfl

/-- **The phone takes the outcomes as they are**, but for those without an id. -/
theorem approvalsFrom_rows (w : String) (rows : List ResolvedApproval) :
    approvalsFrom w (rows.map approvalRow) =
      some ((rows.filter fun row => row.approvalId ≠ "").map (shownAs w)) := by
  induction rows with
  | nil => rfl
  | cons row rows ih =>
      have hid : textField (approvalRow row) "approval_id" "" = row.approvalId := rfl
      rw [List.map_cons, approvalsFrom, hid, trackedFrom_row, ih]
      by_cases hempty : row.approvalId = ""
      · rw [if_pos hempty, List.filter_cons_of_neg (by simp [hempty])]
      · rw [if_neg hempty, List.filter_cons_of_pos (by simp [hempty])]
        rfl

/-- The rows of a snapshot are all maps. -/
theorem rowsOf_snapshot (row : WorkflowRow) (events : List WorkflowEvent) (computerId : String) :
    rowsOf (snapshotObject registry row events computerId w) "approvals" =
      (registry.approvals.filter fun r => r.workflowId = w).map approvalRow := by
  have hrows : rowsOf (snapshotObject registry row events computerId w) "approvals" =
      ((registry.approvals.filter fun r => r.workflowId = w).map approvalRow).filter isMap := rfl
  rw [hrows, List.filter_eq_self]
  intro v hv
  obtain ⟨r, _, rfl⟩ := List.mem_map.mp hv
  rfl

/-- **What the phone holds after a snapshot**: the outcomes of the registry
that are filed under the workflow, each under the id it is filed under. -/
theorem snapshot_lists (c : WorkflowController) (row : WorkflowRow) (events : List WorkflowEvent)
    (computerId : String) {response : Response} (hstatus : response.status = 200)
    (hbody : response.body = some (snapshotObject registry row events computerId w)) :
    (c.loadSnapshot (some response)).state.approvals =
      ((registry.approvals.filter fun r => r.workflowId = w).filter fun r =>
        r.approvalId ≠ "").map (shownAs row.workflowId) := by
  have hdecode : decodeBuffers response =
      buffersFrom (snapshotObject registry row events computerId w) := by
    unfold decodeBuffers
    rw [hstatus, if_neg (by omega), hbody]
    rfl
  have happrovals := approvalsFrom_rows row.workflowId
    (registry.approvals.filter fun r => r.workflowId = w)
  have hbuffers : (buffersFrom (snapshotObject registry row events computerId w)).map
        WorkflowBuffers.approvals =
      approvalsFrom row.workflowId ((registry.approvals.filter fun r => r.workflowId = w).map
        approvalRow) := by
    rw [← rowsOf_snapshot row events computerId]
    unfold buffersFrom
    have hid : textField (snapshotObject registry row events computerId w) "workflow_id" "" =
        row.workflowId := rfl
    have hseq : ∃ n, numField (snapshotObject registry row events computerId w) "last_seq_no" =
        some n := ⟨_, rfl⟩
    obtain ⟨n, hn⟩ := hseq
    rw [hid, hn]
    cases approvalsFrom row.workflowId
      (rowsOf (snapshotObject registry row events computerId w) "approvals") with
    | none => rfl
    | some approvals => rfl
  rw [happrovals] at hbuffers
  obtain ⟨snap, hsnap, hlist⟩ := Option.map_eq_some_iff.mp hbuffers
  have hload : c.loadSnapshot (some response) =
      { c with snapshotLoaded := true, frozen := false, state := snap } := by
    unfold WorkflowController.loadSnapshot
    rw [Option.bind_some, hdecode, hsnap]
  rw [hload]
  exact hlist

theorem readSnapshot_reads (computerId w : String) :
    (readSnapshot computerId w).Meets exec j
      (fun a m' => m'.registry = m.registry ∧ ∀ body, a = .ok (some body) →
        ∃ row events, body = snapshotObject m.registry row events computerId w)
      (fun m' => m'.registry = m.registry) m := by
  unfold readSnapshot
  refine Prog.meets_bind (p := Prog.perform Cmd.readRegistry)
    (meets_perform rfl fun o => ⟨rfl, fun _ => ?_⟩)
  refine meets_andThen (p := sql (.selectWorkflow w))
    (meets_sql rfl (fun _ => ⟨rfl, fun body h => by cases h⟩) ⟨rfl, fun _ => ?_⟩)
  have hread : (Sql.selectWorkflow w).step (Cmd.readRegistry.run o m).1.db =
      (m.db, .ok (m.db.getWorkflow w)) := rfl
  rw [hread]
  cases m.db.getWorkflow w with
  | none => exact ⟨rfl, rfl, fun body h => by cases h⟩
  | some row =>
      refine meets_andThen (meets_sql rfl (fun _ => ⟨rfl, fun body h => by cases h⟩)
        ⟨rfl, fun _ => ?_⟩)
      exact ⟨rfl, rfl, fun body h => ⟨row, _, (Option.some.inj (Except.ok.inj h)).symm⟩⟩

/-- **What is served** is made of the registry as it is. -/
theorem replySnapshot_serves (S : Setup) (g : SnapshotGet) :
    (replySnapshot S.cfg S.computerId g).Meets exec j
      (fun response _ => response.status = 200 → ∃ row events,
        response.body = some (snapshotObject m.registry row events g.computer g.workflow))
      (fun _ => True) m := by
  have hrefused : ∀ {response : Response} {P : Prop}, response.status ≠ 200 →
      response.status = 200 → P := fun hne h => absurd h hne
  have hinternal : ∀ text, (errorBody 500 "INTERNAL" text).status ≠ 200 := by
    intro text
    show (500 : Nat) ≠ 200
    omega
  unfold replySnapshot handleWorkflowSnapshot
  by_cases hb : bearerOk ⟨g.headers, g.workflow, .unreadable⟩ S.cfg.token = true
  · rw [if_pos hb]
    by_cases hcomputer : g.computer ≠ S.computerId
    · rw [if_pos hcomputer]
      refine ⟨trivial, hrefused ?_⟩
      show (404 : Nat) ≠ 200
      omega
    · rw [if_neg hcomputer]
      refine meets_orInternal (meets_openStore trivial (fun text => hrefused (hinternal text)) ?_)
      refine meets_orInternal ((readSnapshot_reads g.computer g.workflow).mono
        (fun a m' ha => ?_) fun _ _ => trivial)
      match a with
      | .error e => exact fun text => hrefused (hinternal text)
      | .ok none =>
          refine ⟨trivial, hrefused ?_⟩
          show (404 : Nat) ≠ 200
          omega
      | .ok (some body) =>
          obtain ⟨row, events, hbody⟩ := ha.2 body rfl
          refine ⟨trivial, fun _ _ _ _ => ⟨trivial, fun _ _ _ _ => ⟨trivial, fun _ => ?_⟩⟩⟩
          exact ⟨row, events, congrArg some hbody⟩
  · rw [if_neg hb]
    refine ⟨trivial, hrefused ?_⟩
    show (401 : Nat) ≠ 200
    omega

/-- The request for a snapshot is served by the route its address leads to. -/
theorem asks_served {p : Party} {q : HttpRequest} (h : p.asks S = some q) {computer x : String}
    (hroute : (AgentCall.fetchWorkflow p.phone.computerId p.phone.workflowId).served =
      .workflowSnapshot computer x) :
    replyRequest S.cfg S.computerId S.others q =
      replySnapshot S.cfg S.computerId ⟨q.headers, computer, x⟩ := by
  obtain ⟨-, hq⟩ := Option.ite_none_right_eq_some.mp h
  have hsame : route q.method q.target = .workflowSnapshot computer x := by
    rw [← Option.some.inj hq]
    exact hroute
  unfold replyRequest
  rw [hsame]

/-- **A snapshot brings the outcome under the key.** -/
theorem loads_under_key {l : PartyStep} {p : Party} {x : String} {row : ResolvedApproval}
    (hload : Loads S x l p) (hlisted : row ∈ p.agent.registry.approvals)
    (hworkflow : row.workflowId = x) (hid : row.approvalId ≠ "") :
    ∃ a ∈ (l.after S p).phone.state.approvals,
      a.approvalId = row.approvalId ∧ a.resolution = some row.resolution := by
  obtain ⟨htask, ⟨computer, hroute⟩, response, hresponse, hstatus⟩ := hload
  have hsent : (p.sends S l.steps l.oracles (p.asks S)).2 = some response := by
    unfold PartyStep.response at hresponse
    rw [htask] at hresponse
    exact hresponse
  have hafter : (l.after S p).phone = p.phone.loadSnapshot (some response) := by
    unfold PartyStep.after
    rw [htask, ← hsent]
    rfl
  cases hq : p.asks S with
  | none =>
      rw [hq] at hsent
      cases hsent
  | some q =>
      have hserved : ((replySnapshot S.cfg S.computerId ⟨q.headers, computer, x⟩).attempt exec 0
          l.steps l.oracles p.agent).2 = some response := by
        rw [hq] at hsent
        rw [← asks_served hq hroute]
        exact hsent
      obtain ⟨wrow, events, hbody⟩ := (Prog.meets_attempt
        (replySnapshot_serves S ⟨q.headers, computer, x⟩) l.steps l.oracles).2 response hserved
        hstatus
      rw [hafter, snapshot_lists p.phone wrow events computer hstatus hbody]
      refine ⟨shownAs wrow.workflowId row, List.mem_map_of_mem ?_, rfl, rfl⟩
      have hfiled : decide (row.workflowId = x) = true := decide_eq_true hworkflow
      have hnamed : decide (row.approvalId ≠ "") = true := decide_eq_true hid
      exact List.mem_filter.mpr ⟨List.mem_filter.mpr ⟨hlisted, hfiled⟩, hnamed⟩

end Snapshot

/-! ## The law in every run -/

section Runs

variable {S : Setup} {p : Party} {t : PartyStep} {r : String} {approved : Bool} {now : Int}
  {vs : List PartyStep}

/-- A post that resolved the row was delivered. -/
theorem delivered_of_reaches (htask : t.task = .tap r approved now)
    (h : Reaches (namespacedKey p.phone.workflowId r) (WorkflowController.resolutionWord approved)
      p.agent (t.after S p).agent) : Delivered S p r approved := by
  by_contra hno
  have hsame : (t.after S p).agent.db = p.agent.db :=
    tap_keeps (I := fun m => m.db = p.agent.db) htask rfl (post_unread hno)
  obtain ⟨-, row, _, hrow, hpending, hresolved⟩ := h
  rw [hsame, hrow, Option.some.injEq] at hresolved
  rw [hresolved] at hpending
  cases hpending

/-- A snapshot that follows lists the outcome under the key. -/
theorem shown_under_key (hm : DistinctIds p.agent.db) (htask : t.task = .tap r approved now)
    (h : CarriedOut S p t r approved now) (hd : Delivered S p r approved) {x : String}
    (hx : PostsFor p x) {us : List PartyStep} {l : PartyStep}
    (hload : Loads S x l (partyAfter S (t.after S p) us)) :
    ∃ a ∈ (l.after S (partyAfter S (t.after S p) us)).phone.state.approvals,
      a.approvalId = namespacedKey p.phone.workflowId r := by
  obtain ⟨next, hguard⟩ := h.tapped
  obtain ⟨response, hresponse, hstatus, hsaved⟩ := post_succeeds hm h hd hx
  obtain ⟨-, -, hsettled, hlisted⟩ := post_reaches hm hd hx hresponse hstatus
  rw [← tap_run htask hguard] at hsaved hsettled hlisted
  have hrecorded : Recorded True (filed p.phone.workflowId r x approved) (t.after S p).agent :=
    ⟨hsettled, hlisted, fun _ => hsaved⟩
  obtain ⟨hkept, -⟩ := hrecorded.after us fun _ => trivial
  obtain ⟨a, ha, hid, -⟩ := loads_under_key hload hkept.listed rfl
    (namespacedKey_ne_empty p.phone.workflowId r)
  exact ⟨a, ha, hid⟩

/-- **An approval keeps its identity just when its post is delivered and no snapshot
follows.**  Whatever becomes of a tap, no row but that of its key changes.  Where it is
carried out, the row is resolved just when the post is delivered; and the first snapshot
afterwards, new starts of the agent or not, brings the outcome under the key and not under
the id. -/
theorem identity_kept_iff (S : Setup) (p : Party) (t : PartyStep) (r : String) (approved : Bool)
    (now : Int) (vs : List PartyStep) (hm : DistinctIds p.agent.db)
    (htask : t.task = .tap r approved now) :
    rest (namespacedKey p.phone.workflowId r) (t.after S p).agent.db =
        rest (namespacedKey p.phone.workflowId r) p.agent.db ∧
      (CarriedOut S p t r approved now →
        (IdentityKept S p t r approved vs ↔
          Delivered S p r approved ∧ Unserved S (t.after S p) vs)) := by
  refine ⟨?_, fun h => ⟨fun hkept => ?_, fun hboth => ?_⟩⟩
  · exact tap_keeps (I := fun m => rest (namespacedKey p.phone.workflowId r) m.db =
      rest (namespacedKey p.phone.workflowId r) p.agent.db) htask rfl
      (post_rest S p r approved t.steps t.oracles)
  · have hd := delivered_of_reaches htask hkept.reaches
    refine ⟨hd, fun x hx us l ws hvs hload => ?_⟩
    have hfor : PostsFor p x := by
      unfold PostsFor at hx ⊢
      rw [after_workflow] at hx
      exact hx
    obtain ⟨a, ha, hid⟩ := shown_under_key hm htask h hd hfor hload
    exact (hkept.shown x hfor us l ws hvs hload).2 a ha hid
  · obtain ⟨hd, hunserved⟩ := hboth
    obtain ⟨next, hguard⟩ := h.tapped
    obtain ⟨x, hx, -⟩ := hd.known
    obtain ⟨response, hresponse, hstatus, -⟩ := post_succeeds hm h hd hx
    refine ⟨?_, fun y hy us l ws hvs hload => absurd hload (hunserved y ?_ us l ws hvs)⟩
    · rw [tap_run htask hguard]
      exact (post_reaches hm hd hx hresponse hstatus).1
    · unfold PostsFor at hy ⊢
      rw [after_workflow]
      exact hy

/-- An id that is plain leads to its own workflow. -/
theorem postsFor_plain {p : Party} (hne : p.phone.workflowId ≠ "")
    (h : PlainId p.phone.workflowId) : PostsFor p p.phone.workflowId := by
  have hserved : (AgentCall.postApprovalResolve p.phone.workflowId).served =
      (AgentCall.postApprovalResolve p.phone.workflowId).meant :=
    (AgentCall.served_iff (by simpa [AgentCall.ids] using hne)).mpr
      (by simpa [AgentCall.ids] using h)
  exact hserved

end Runs

/-! ## A run in which the outcome is not known as the approval -/

namespace Approving

/-- The phone's approval `r`, as a stream of events made it known. -/
def waiting : TrackedApproval := ⟨"r", "w", "run", "rm -r", 10, none, true⟩

/-- The agent has recorded the request, and the phone knows it. -/
def party : Party where
  agent := machineAfter (oneWorkflow "w") [⟨.request "w" "r" "PH-1" "rm -r" 10, 9, fun _ => {}⟩]
  phone := {
    computerId := "PC-1"
    workflowId := "w"
    snapshotLoaded := true
    state := { workflowId := "w", computerId := "PC-1", approvals := [waiting] } }

def setup : Setup where
  cfg := sampleConfig
  computerId := "PC-1"
  others _ := return ⟨500, none⟩
  othersFile _ := trivial
  token := "token"

def tap : PartyStep := ⟨.tap "r" true 5, 20, fun _ => { clock := 5 }⟩

def start : PartyStep := ⟨.agent .restart, 2, fun _ => {}⟩
def load : PartyStep := ⟨.load true, 20, fun _ => {}⟩

theorem plain : PlainId "w" ∧ PlainId "PC-1" := by
  rw [plainId_iff, plainId_iff]
  exact ⟨sound_of_checks (by decide) (by decide) (by decide),
    sound_of_checks (by decide) (by decide) (by decide)⟩

theorem carriedOut : CarriedOut setup party tap "r" true 5 where
  tapped := ⟨_, rfl⟩
  waits := ⟨_, rfl, rfl, fun _ => rfl⟩
  steps := by decide
  works _ := rfl

theorem delivered : Delivered setup party "r" true where
  header := by decide
  key := by decide
  trimmed := by decide
  size := by decide
  token := by decide
  known := ⟨"w", postsFor_plain (by decide) plain.1, by decide⟩

/-- The snapshot that the agent serves after its new start. -/
theorem loads : Loads setup "w" load (partyAfter setup (tap.after setup party) [start]) := by
  have hroute : (AgentCall.fetchWorkflow "PC-1" "w").served = .workflowSnapshot "PC-1" "w" :=
    (AgentCall.served_iff (by decide)).mpr (by simpa [AgentCall.ids] using plain.symm)
  have hstatus : (load.response setup (partyAfter setup (tap.after setup party) [start])).map
      Response.status = some 200 := by decide
  obtain ⟨response, hresponse, hok⟩ := Option.map_eq_some_iff.mp hstatus
  exact ⟨rfl, ⟨"PC-1", hroute⟩, response, hresponse, hok⟩

end Approving

open Approving in
theorem identity_kept_iff_sample :
    rest "w:r" (tap.after setup party).agent.db = rest "w:r" party.agent.db ∧
      (IdentityKept setup party tap "r" true [start, load] ↔
        Delivered setup party "r" true ∧ Unserved setup (tap.after setup party) [start, load]) := by
  have hlaw := identity_kept_iff setup party tap "r" true 5 [start, load] (by decide) rfl
  exact ⟨hlaw.1, hlaw.2 carriedOut⟩

open Approving in
/-- **The outcome comes back under the key.**  The phone knows `r`, approves it
and takes a snapshot: it then holds the outcome of `w:r`, and no `r`. -/
theorem outcome_under_key :
    ¬ ∀ (S : Setup) (p : Party) (t : PartyStep) (r : String) (approved : Bool) (now : Int)
      (vs : List PartyStep), DistinctIds p.agent.db → t.task = .tap r approved now →
      CarriedOut S p t r approved now → Delivered S p r approved →
      IdentityKept S p t r approved vs := by
  intro hall
  have hm : DistinctIds party.agent.db := by decide
  have hkept := hall setup party tap "r" true 5 [start, load] hm rfl carriedOut delivered
  have hfor : PostsFor party "w" := postsFor_plain (by decide) plain.1
  obtain ⟨a, ha, hid⟩ := shown_under_key hm rfl carriedOut delivered hfor loads
  exact (hkept.shown "w" hfor [start] load [] rfl loads).2 a ha hid

end Calcar.Phone
