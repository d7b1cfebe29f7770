import Calcar.Agent.Registry
import Calcar.Agent.Snapshot
import Calcar.Verified.Inputs
import Calcar.Verified.JsonRoundTrip

/-!
# The registry is read back as it was saved

The file holds the ids that requests have touched.  Its loader leaves out entries
with empty ids and fills in an empty outcome; the handlers make no such entry, so
what they have recorded comes back.

## Main results

* `load_text` — the round trip of a registry without empty ids.
* `registry_round_trip` — the registries of the running server are such.
-/

namespace Calcar.Agent

open Lib

/-- Two registries are equal: the same set of workflow ids, and the same approvals
in the same order. -/
structure Registry.Same (r r' : Registry) : Prop where
  workflows : ∀ w, w ∈ r'.workflows ↔ w ∈ r.workflows
  approvals : r'.approvals = r.approvals

/-- An approval with ids and an outcome. -/
structure ResolvedApproval.Filled (row : ResolvedApproval) : Prop where
  approvalId : row.approvalId ≠ ""
  workflowId : row.workflowId ≠ ""
  resolution : row.resolution ≠ ""

/-- No id of the registry is empty, and every approval has its outcome. -/
structure Registry.Filled (r : Registry) : Prop where
  workflows : "" ∉ r.workflows
  approvals : ∀ row ∈ r.approvals, row.Filled

/-! ## The file -/

section File

variable {F : Type}

theorem touchWorkflow_mem (r : Registry) (w v : String) :
    v ∈ (r.touchWorkflow w).workflows ↔ v ∈ r.workflows ∨ (v = w ∧ w ≠ "") := by
  unfold Registry.touchWorkflow
  by_cases h : w = "" ∨ w ∈ r.workflows
  · rw [if_pos h]
    constructor
    · exact .inl
    · rintro (hmem | ⟨rfl, hne⟩)
      · exact hmem
      · exact h.resolve_left hne
  · rw [if_neg h]
    have hne : w ≠ "" := fun heq => h (.inl heq)
    simp [hne]

/-- The ids of the file become the set. -/
theorem readWorkflows (ids : List String) : ∀ r : Registry,
    ((ids.map (Json.Value.str (F := F))).foldl Registry.readWorkflow r).approvals = r.approvals ∧
      ∀ w, w ∈ ((ids.map (Json.Value.str (F := F))).foldl Registry.readWorkflow r).workflows ↔
        w ∈ r.workflows ∨ (w ∈ ids ∧ w ≠ "") := by
  induction ids with
  | nil => simp
  | cons id ids ih =>
      intro r
      have hrest := ih (r.touchWorkflow id)
      rw [List.map_cons, List.foldl_cons, Registry.readWorkflow]
      refine ⟨hrest.1.trans (r.touchWorkflow_approvals id), fun w => ?_⟩
      rw [hrest.2 w, touchWorkflow_mem, List.mem_cons]
      grind

theorem approvalEntry_eq (row : ResolvedApproval) : Registry.approvalEntry (F := F) row =
    .obj [("approval_id", .str row.approvalId), ("resolution", .str row.resolution),
      ("workflow_id", .str row.workflowId)] := by
  have h₁ : ¬"workflow_id" < "approval_id" := by decide
  have h₂ : ¬"resolution" < "approval_id" := by decide
  have h₃ : "resolution" < "workflow_id" := by decide
  simp [Registry.approvalEntry, Json.obj, Json.insert, h₁, h₂, h₃]

theorem readApproval_entry (r : Registry) {row : ResolvedApproval} (h : row.Filled) :
    r.readApproval (Registry.approvalEntry (F := F) row) =
      { r with approvals := r.approvals ++ [row] } := by
  rw [approvalEntry_eq]
  simp [Registry.readApproval, Json.Value.strField, h.approvalId, h.workflowId, h.resolution]

/-- The approvals of the file are taken one after another. -/
theorem readApprovals (rows : List ResolvedApproval) : ∀ r : Registry,
    (∀ row ∈ rows, row.Filled) →
      (rows.map (Registry.approvalEntry (F := F))).foldl Registry.readApproval r =
        { r with approvals := r.approvals ++ rows } := by
  induction rows with
  | nil => simp
  | cons row rows ih =>
      intro r h
      rw [List.map_cons, List.foldl_cons, readApproval_entry r (h row List.mem_cons_self),
        ih _ fun x hx => h x (List.mem_cons_of_mem row hx)]
      simp

theorem toValue_eq (r : Registry) : r.toValue (F := F) =
    .obj [("approvals", .arr (r.approvals.map Registry.approvalEntry)),
      ("workflows", .arr (r.orderedWorkflows.map .str))] := by
  have h : "approvals" < "workflows" := by decide
  simp [Registry.toValue, Json.obj, Json.insert, h]

/-- Lists of values without maps in them but those of the approvals. -/
theorem strings_plain (ids : List String) :
    Json.orderedItems (ids.map (Json.Value.str (F := F))) = true ∧
      Json.floatlessItems (ids.map (Json.Value.str (F := F))) = true ∧
      Json.depthItems (ids.map (Json.Value.str (F := F))) ≤ 1 := by
  induction ids with
  | nil => exact ⟨rfl, rfl, Nat.zero_le 1⟩
  | cons id ids ih =>
      refine ⟨?_, ?_, ?_⟩
      · rw [List.map_cons, Json.orderedItems, ih.1]
        rfl
      · rw [List.map_cons, Json.floatlessItems, ih.2.1]
        rfl
      · rw [List.map_cons, Json.depthItems]
        exact Nat.max_le.mpr ⟨Nat.le_refl 1, ih.2.2⟩

theorem approvals_plain (rows : List ResolvedApproval) :
    Json.orderedItems (rows.map (Registry.approvalEntry (F := F))) = true ∧
      Json.floatlessItems (rows.map (Registry.approvalEntry (F := F))) = true ∧
      Json.depthItems (rows.map (Registry.approvalEntry (F := F))) ≤ 2 := by
  induction rows with
  | nil => exact ⟨rfl, rfl, Nat.zero_le 2⟩
  | cons row rows ih =>
      have hordered : (Registry.approvalEntry (F := F) row).ordered = true := by
        have h₁ : "approval_id" < "resolution" := by decide
        have h₂ : "approval_id" < "workflow_id" := by decide
        have h₃ : "resolution" < "workflow_id" := by decide
        rw [approvalEntry_eq]
        simp only [Json.Value.ordered, Json.orderedMembers, List.all_cons, List.all_nil, h₁, h₂, h₃,
          decide_true, Bool.and_self]
      refine ⟨?_, ?_, ?_⟩
      · rw [List.map_cons, Json.orderedItems, hordered, ih.1]
        rfl
      · rw [List.map_cons, Json.floatlessItems, ih.2.1, approvalEntry_eq]
        rfl
      · rw [List.map_cons, Json.depthItems, approvalEntry_eq]
        exact Nat.max_le.mpr ⟨Nat.le_refl 2, ih.2.2⟩

/-- The saved value is one that the parser gives back. -/
theorem parse_text (f : Json.F64 F) (r : Registry) :
    Json.parse f (r.text f) = some r.toValue := by
  have hids := strings_plain (F := F) r.orderedWorkflows
  have hrows := approvals_plain (F := F) r.approvals
  have hless : "approvals" < "workflows" := by decide
  apply Json.parse_render
  · rw [toValue_eq]
    simp only [Json.Value.ordered, Json.orderedMembers, List.all_cons, List.all_nil, hids.1,
      hrows.1, hless, decide_true, Bool.and_self]
  · rw [toValue_eq]
    simp [Json.Value.floatless, Json.floatlessMembers, hids.2.1, hrows.2.1]
  · have hids := hids.2.2
    have hrows := hrows.2.2
    rw [toValue_eq]
    simp only [Json.Value.depth, Json.depthMembers, Json.maxDepth]
    omega

theorem text_not_blank (f : Json.F64 F) (r : Registry) : Text.trimSpace (r.text f) ≠ "" := by
  refine Text.trimSpace_ne_empty (c := '\x7b') ?_ (by decide)
  rw [Registry.text, Json.render, String.toList_ofList, toValue_eq]
  exact List.mem_cons_self

/-- **A registry is read back**, if it is filled. -/
theorem load_text (f : Json.F64 F) {r : Registry} (h : r.Filled) :
    r.Same (Registry.load f (some (r.text f))) := by
  have hload : Registry.load f (some (r.text f)) = Registry.fromValue (F := F) r.toValue := by
    rw [Registry.load, Option.getD_some, if_neg (text_not_blank f r), parse_text, Option.getD_some]
  have hless : "workflows" ≠ "approvals" := by decide
  have hids := readWorkflows (F := F) r.orderedWorkflows {}
  have hrows := readApprovals (F := F) r.approvals
    ((r.orderedWorkflows.map Json.Value.str).foldl (Registry.readWorkflow (F := F)) {}) h.approvals
  have hvalue : Registry.fromValue (F := F) r.toValue =
      (r.approvals.map Registry.approvalEntry).foldl (Registry.readApproval (F := F))
        ((r.orderedWorkflows.map Json.Value.str).foldl (Registry.readWorkflow (F := F)) {}) := by
    rw [toValue_eq]
    rfl
  rw [hload, hvalue, hrows]
  constructor
  · intro w
    have hmem : w ∈ r.orderedWorkflows ↔ w ∈ r.workflows := List.mem_mergeSort
    rw [hids.2 w, hmem]
    constructor
    · rintro (hnone | ⟨hin, _⟩)
      · exact absurd hnone List.not_mem_nil
      · exact hin
    · intro hin
      exact .inr ⟨hin, fun hempty => h.workflows (hempty ▸ hin)⟩
  · rw [hids.1]
    rfl

end File

/-! ## What the handlers record -/

/-- Commands that record filled approvals only. -/
def RecordsFilled : Cmd → Prop
  | .recordApproval row => row.Filled
  | _ => True

/-- Commands that file no outcome, in a process that stays up. -/
def FilesNothing : Cmd → Prop
  | .recordApproval _ => False
  | .restart => False
  | _ => True

theorem FilesNothing.recordsFilled {c : Cmd} (hc : FilesNothing c) : RecordsFilled c := by
  cases c with
  | recordApproval row => exact hc.elim
  | _ => trivial

theorem RequestCmd.filesNothing {k : String} {kind : Option RequestKind} {c : Cmd}
    (hc : RequestCmd k kind c) : FilesNothing c := by
  cases c with
  | recordApproval row => exact hc
  | restart => exact hc
  | _ => trivial

/-- The registry in memory and the saved one are filled. -/
structure RegistryKept (m : Machine) : Prop where
  registry : m.registry.Filled
  saved : m.saved.Filled

section Commands

variable {m : Machine} {α : Type}

theorem filled_touch {r : Registry} (h : r.Filled) (w : String) : (r.touchWorkflow w).Filled where
  workflows hmem := by
    rcases (touchWorkflow_mem r w "").mp hmem with hold | ⟨heq, hne⟩
    · exact h.workflows hold
    · exact hne heq.symm
  approvals row hrow := h.approvals row (r.touchWorkflow_approvals w ▸ hrow)

theorem filled_record {r : Registry} (h : r.Filled) {row : ResolvedApproval} (hrow : row.Filled) :
    (r.recordApproval row).Filled where
  workflows := h.workflows
  approvals := by
    intro x hx
    rw [Registry.recordApproval, List.mem_append, List.mem_singleton] at hx
    rcases hx with hold | rfl
    · exact h.approvals x (List.mem_filter.mp hold).1
    · exact hrow

/-- What is read from any file is filled. -/
theorem filled_load {F : Type} (f : Json.F64 F) (file : Option String) :
    (Registry.load f file).Filled := by
  have hids : ∀ (ids : List (Json.Value F)) (r : Registry), r.Filled →
      (ids.foldl Registry.readWorkflow r).Filled := by
    intro ids
    induction ids with
    | nil => exact fun r h => h
    | cons id ids ih =>
        intro r h
        refine ih _ ?_
        cases id with
        | str text => exact filled_touch h text
        | _ => exact h
  have hrows : ∀ (rows : List (Json.Value F)) (r : Registry), r.Filled →
      (rows.foldl Registry.readApproval r).Filled := by
    intro rows
    induction rows with
    | nil => exact fun r h => h
    | cons row rows ih =>
        intro r h
        refine ih _ ?_
        unfold Registry.readApproval
        by_cases hboth : (row.strField "approval_id").getD "" ≠ "" ∧
            (row.strField "workflow_id").getD "" ≠ ""
        · rw [if_pos hboth]
          refine ⟨h.workflows, fun x hx => ?_⟩
          rw [List.mem_append, List.mem_singleton] at hx
          rcases hx with hold | rfl
          · exact h.approvals x hold
          · refine ⟨hboth.1, hboth.2, ?_⟩
            by_cases hempty : (row.strField "resolution").getD "" = ""
            · simp [hempty]
            · simp [hempty]
        · rw [if_neg hboth]
          exact h
  have hnew : ({} : Registry).Filled :=
    ⟨List.not_mem_nil, fun x hx => absurd hx List.not_mem_nil⟩
  unfold Registry.load
  by_cases hblank : Text.trimSpace (file.getD "") = ""
  · rw [if_pos hblank]
    exact hnew
  · rw [if_neg hblank]
    exact hrows _ _ (hids _ _ hnew)

theorem kept_run {c : Cmd} (hc : RecordsFilled c) (o : Oracle) (h : RegistryKept m) :
    RegistryKept (c.run o m).1 := by
  cases c with
  | sql s =>
      obtain hm | hm := Cmd.sql_changes s o m
      · rw [hm]
        exact h
      · rw [hm]
        exact ⟨h.registry, h.saved⟩
  | saveRegistry =>
      obtain hm | hm := Cmd.saveRegistry_changes o m
      · rw [hm]
        exact h
      · rw [hm]
        exact ⟨h.registry, h.registry⟩
  | touchWorkflow w => exact ⟨filled_touch h.registry w, h.saved⟩
  | recordApproval row => exact ⟨filled_record h.registry hc, h.saved⟩
  | restart => exact ⟨h.saved, h.saved⟩
  | _ => exact ⟨h.registry, h.saved⟩

theorem approvalFields_id {p : Post} {id : String} {allow : Bool}
    (h : approvalFields p = .ok (id, allow)) : id ≠ "" := by
  unfold approvalFields at h
  cases hbody : bodyObject p.body with
  | error r => simp [hbody] at h
  | ok parsed =>
      cases hid : parsed.strField "approval_id" with
      | none => simp [hbody, hid] at h
      | some approvalId =>
          cases hallow : parsed.boolField "allow" with
          | none => simp [hbody, hid, hallow] at h
          | some b =>
              simp only [hbody, hid, hallow] at h
              by_cases hempty : approvalId = ""
              · rw [if_pos hempty] at h
                cases h
              · rw [if_neg hempty] at h
                by_cases hrequest : requestIdOf p ≠ some approvalId
                · rw [if_pos hrequest] at h
                  cases h
                · rw [if_neg hrequest] at h
                  cases h
                  exact hempty

theorem handleApproval_records {p : Post} (hw : p.workflow ≠ "") :
    (handleApproval p).Only RecordsFilled := by
  unfold handleApproval
  cases hfields : approvalFields p with
  | error r => trivial
  | ok fields =>
      obtain ⟨id, allow⟩ := fields
      refine orInternal_only (fun _ => trivial) (Prog.only_perform trivial) fun _ => ?_
      refine orInternal_only (fun _ => trivial) (Prog.only_perform trivial) fun row => ?_
      cases row with
      | none => trivial
      | some _ =>
          refine orInternal_only (fun _ => trivial) (Prog.only_perform trivial) fun _ => ?_
          have hresolve := (resolvePendingRequest_only id
            (if allow then "approved" else "rejected") none).mono
              fun _ hc => (RequestCmd.filesNothing hc).recordsFilled
          refine hresolve.bind fun a => ?_
          cases a with
          | error e => exact approvalRefused_only (fun _ => trivial) e
          | ok u =>
              have hpayload : (if allow then "approved" else "rejected") ≠ "" := by
                cases allow <;> decide
              exact ⟨trivial, fun _ => ⟨⟨approvalFields_id hfields, hw, hpayload⟩,
                fun _ => ⟨trivial, fun _ => trivial⟩⟩⟩

theorem appendEvent_files (d : EventDraft) : (appendEvent d).Only FilesNothing := by
  refine andThen_only (Prog.only_perform trivial) fun row => ?_
  cases row with
  | none => trivial
  | some _ => exact ⟨trivial, fun _ => ⟨trivial, fun _ => Prog.only_perform trivial⟩⟩

theorem recordInput_files (w i : String) (destructive : Bool) (session : Option String)
    (outcome : ExecOutcome) :
    (recordInput w i destructive session outcome).Only FilesNothing := by
  have hrun : (recordRun w i session outcome destructive).Only FilesNothing := by
    refine ⟨trivial, fun tail => ?_⟩
    cases tail with
    | error e => trivial
    | ok tail =>
        refine ⟨trivial, fun startedAt => ⟨trivial, fun completedAt => ?_⟩⟩
        refine (appendEvent_files _).bind fun a => ?_
        cases a with
        | error e => exact ⟨trivial, fun _ => trivial⟩
        | ok _ =>
            refine (appendEvent_files _).bind fun b => ?_
            cases b with
            | error e => exact ⟨trivial, fun _ => trivial⟩
            | ok _ => trivial
  refine orInternal_only (fun _ => trivial) (Prog.only_perform trivial) fun _ => ?_
  refine hrun.bind fun a => ?_
  cases a with
  | error message => trivial
  | ok truncated => exact ⟨trivial, fun _ => ⟨trivial, fun _ => trivial⟩⟩

theorem runGeneric_files (w i text : String) (timeoutSecs : Nat) :
    (runGeneric w i text timeoutSecs).Only FilesNothing := by
  unfold runGeneric
  by_cases hblank : Text.trimSpace text = ""
  · rw [if_pos hblank]
    trivial
  · rw [if_neg hblank]
    refine ⟨trivial, fun started => ?_⟩
    match started with
    | .error e => trivial
    | .ok () =>
        refine ⟨trivial, fun waited => ?_⟩
        match waited with
        | .error _ => trivial
        | .ok false => exact ⟨trivial, fun _ => trivial⟩
        | .ok true =>
            refine ⟨trivial, fun joined => ?_⟩
            cases joined with
            | error _ => trivial
            | ok _ => trivial

theorem routeInput_files (cfg : ConnectConfig) (w i text : String) (destructive : Bool)
    (session : Option String) :
    (routeInput cfg w i text destructive session).Only FilesNothing := by
  refine orInternal_only (fun _ => trivial) (Prog.only_perform trivial) fun _ => ?_
  have hdeliver := (deliver_only w i).mono fun _ hc => RequestCmd.filesNothing hc
  refine hdeliver.bind fun a => ?_
  match a with
  | .error (.notFound _) => trivial
  | .error (.invalidState _) => trivial
  | .error .sqlite => exact internalError_only (fun _ => trivial) _
  | .error (.alreadyResolved _) => exact internalError_only (fun _ => trivial) _
  | .error (.expired _) => exact internalError_only (fun _ => trivial) _
  | .ok .duplicate => exact ⟨trivial, fun _ => ⟨trivial, fun _ => trivial⟩⟩
  | .ok .delivered =>
      refine (runGeneric_files w i text cfg.execTimeoutSecs).bind fun ran => ?_
      match ran with
      | .error .timeout => trivial
      | .error (.spawn e) => trivial
      | .error (.join e) => trivial
      | .ok outcome => exact recordInput_files w i destructive session outcome

theorem handleInput_files (cfg : ConnectConfig) (p : Post) :
    (handleInput cfg p).Only FilesNothing := by
  unfold handleInput
  cases inputFields p with
  | error r => trivial
  | ok fields =>
      obtain ⟨i, text, destructive⟩ := fields
      refine orInternal_only (fun _ => trivial) (Prog.only_perform trivial) fun _ => ?_
      refine orInternal_only (fun _ => trivial) (Prog.only_perform trivial) fun row => ?_
      cases row with
      | none => trivial
      | some row =>
          by_cases hprov : Provider.fromI32 row.provider ≠ some .generic
          · simp only [if_pos hprov]
            refine orInternal_only (fun _ => trivial) (Prog.only_perform trivial) fun _ => ?_
            exact Prog.Only.bind (p := sql (.selectBinding p.workflow)) (Prog.only_perform trivial)
              fun _ => trivial
          · simp only [if_neg hprov]
            exact routeInput_files cfg p.workflow i text destructive row.providerSessionId

theorem readSnapshot_files (computerId w : String) :
    (readSnapshot computerId w).Only FilesNothing := by
  refine ⟨trivial, fun registry => andThen_only (Prog.only_perform trivial) fun found => ?_⟩
  cases found with
  | none => trivial
  | some row => exact andThen_only (Prog.only_perform trivial) fun _ => trivial

theorem replySnapshot_files (cfg : ConnectConfig) (computerId : String) (g : SnapshotGet) :
    (replySnapshot cfg computerId g).Only FilesNothing := by
  unfold replySnapshot handleWorkflowSnapshot
  by_cases hb : bearerOk ⟨g.headers, g.workflow, .unreadable⟩ cfg.token = true
  · rw [if_pos hb]
    by_cases hcomputer : g.computer ≠ computerId
    · rw [if_pos hcomputer]
      trivial
    · rw [if_neg hcomputer]
      refine orInternal_only (fun _ => trivial) (Prog.only_perform trivial) fun _ => ?_
      refine orInternal_only (fun _ => trivial) (readSnapshot_files _ _) fun found => ?_
      cases found with
      | none => trivial
      | some body => exact ⟨trivial, fun _ => ⟨trivial, fun _ => trivial⟩⟩
  · rw [if_neg hb]
    trivial

theorem reply_only {P : Cmd → Prop} {cfg : ConnectConfig} {p : Post}
    {handle : Post → Code Response} (h : (handle p).Only P) : (reply cfg p handle).Only P := by
  unfold reply
  by_cases hb : bearerOk p cfg.token = true
  · rw [if_pos hb]
    exact h
  · rw [if_neg hb]
    trivial

end Commands

/-! ## Every sequence of requests -/

/-- What reaches the registry: snapshots, posts, and new starts of the process. -/
inductive RegistryCall where
  | snapshot (g : SnapshotGet)
  | approval (p : Post)
  | input (p : Post)
  | restart

/-- The workflow id is a segment of the path, and empty segments are dropped. -/
def RegistryCall.Routed : RegistryCall → Prop
  | .snapshot g => g.workflow ≠ ""
  | .approval p => p.workflow ≠ ""
  | .input p => p.workflow ≠ ""
  | .restart => True

/-- The program of a call, at the computer of the agent. -/
def RegistryCall.code (cfg : ConnectConfig) (computerId : String) : RegistryCall → Code Unit
  | .snapshot g => do
      let _ ← replySnapshot cfg computerId g
      return ()
  | .approval p => do
      let _ ← replyApproval cfg p
      return ()
  | .input p => do
      let _ ← replyInput cfg p
      return ()
  | .restart => Prog.perform Cmd.restart

/-- The machine of a server that has read the file of its registry. -/
def loaded {F : Type} (f : Json.F64 F) (file : Option String) (db : Db) : Machine :=
  { db := db, registry := .load f file, saved := .load f file }

/-- The registry after calls. -/
def registryAfter (cfg : ConnectConfig) (computerId : String) (m : Machine)
    (ts : List (Prog.Try RegistryCall Oracle)) : Registry :=
  (Prog.afterAll exec (RegistryCall.code cfg computerId) m ts).registry

section Runs

variable {m : Machine} {cfg : ConnectConfig} {computerId : String}

theorem call_records {c : RegistryCall} (hc : c.Routed) :
    (c.code cfg computerId).Only RecordsFilled := by
  cases c with
  | snapshot g =>
      exact ((replySnapshot_files cfg computerId g).mono fun _ hc => hc.recordsFilled).bind
        fun _ => trivial
  | approval p => exact (reply_only (handleApproval_records hc)).bind fun _ => trivial
  | input p =>
      exact (reply_only ((handleInput_files cfg p).mono fun _ hc => hc.recordsFilled)).bind
        fun _ => trivial
  | restart => exact Prog.only_perform trivial

theorem kept_after (hm : RegistryKept m) (ts : List (Prog.Try RegistryCall Oracle))
    (hts : ∀ t ∈ ts, t.task.Routed) :
    RegistryKept (Prog.afterAll exec (RegistryCall.code cfg computerId) m ts) := by
  refine Prog.afterAll_keep (I := RegistryKept) (fun t ht w hw => ?_) hm
  have hmeets : (t.task.code cfg computerId).Meets exec 0 (fun _ => RegistryKept) RegistryKept w :=
    meets_keep (call_records (hts t ht)) (fun c o m' hc h => kept_run hc o h) hw
  exact (Prog.meets_attempt hmeets t.steps t.oracles).1

end Runs

/-- **The registry file round trip.** Whatever file a server has read at its start
and whatever requests it has served since, each cut short or failing anywhere, the text
that `save` writes of its registry is loaded as an equal one. -/
theorem registry_round_trip {F : Type} (f : Json.F64 F) (cfg : ConnectConfig)
    (computerId : String) (file : Option String) (db : Db)
    (ts : List (Prog.Try RegistryCall Oracle)) (hts : ∀ t ∈ ts, t.task.Routed) :
    let r := registryAfter cfg computerId (loaded f file db) ts
    r.Same (Registry.load f (some (r.text f))) := by
  intro r
  have hstart : RegistryKept (loaded f file db) := ⟨filled_load f file, filled_load f file⟩
  exact load_text f (kept_after hstart ts hts).registry

/-- An approval from the file, a snapshot, and an input that is served. -/
theorem registry_round_trip_sample :
    let f : Json.F64 Unit := ⟨fun _ => true, fun _ => [], fun _ => ()⟩
    let file := "\x7b\"approvals\":[\x7b\"approval_id\":\"a\\n1\",\"workflow_id\":\"wf-2\"\x7d]\x7d"
    let r := registryAfter sampleConfig "PC-1"
      (loaded f (some file) (twoWorkflows "wf-1" "wf-2").db)
      [⟨.snapshot ⟨[("Authorization", "Bearer token")], "PC-1", "wf-2"⟩, 20, fun _ => {}⟩,
        ⟨.input (samplePost "wf-1" "in-1"), 60, fun _ => {}⟩]
    r = ⟨["wf-2", "wf-1"], [⟨"a\n1", "wf-2", "approved"⟩]⟩ ∧
      r.Same (Registry.load f (some (r.text f))) := by
  intro f file r
  have hrouted : ∀ t ∈ [(⟨.snapshot ⟨[("Authorization", "Bearer token")], "PC-1", "wf-2"⟩, 20,
      fun _ => {}⟩ : Prog.Try RegistryCall Oracle),
      ⟨.input (samplePost "wf-1" "in-1"), 60, fun _ => {}⟩], t.task.Routed := by
    intro t ht
    simp only [List.mem_cons, List.not_mem_nil, or_false] at ht
    obtain rfl | rfl := ht
    · show ("wf-2" : String) ≠ ""
      decide
    · show ("wf-1" : String) ≠ ""
      decide
  exact ⟨by decide +kernel, registry_round_trip f sampleConfig "PC-1" (some file)
    (twoWorkflows "wf-1" "wf-2").db _ hrouted⟩

end Calcar.Agent
