import Calcar.Verified.WorkflowStates
import Mathlib.Data.List.Induction

/-!
# Session bindings

Bindings are written by `create_workflow` and by `bind`, and recovery hands out
what it finds.  The table refers to the workflows and asks nothing else; `bind`
refuses an empty session, `create_workflow` does not.

## Main results

* `step_bindings` — what a statement does to the table.
* `bindings_kept` — a call that binds no empty session keeps the bindings sound.
* `binding_law` — runs of such calls, and what recovery answers in them.
-/

namespace Calcar.Agent

open Lib

/-! ## The table -/

/-- A binding belongs to a workflow and could be reattached. -/
def BindingRow.Sound (db : Db) (b : BindingRow) : Prop :=
  b.providerSessionId ≠ "" ∧ (db.getWorkflow b.workflowId).isSome = true

/-- Every stored binding does. -/
def BindingsSound (db : Db) : Prop := ∀ b ∈ db.bindings, b.Sound db

section Statements

theorem trimRing_bindings {db db' : Db} {w : String} {now : Int}
    (h : db.trimRing w now = .ok db') : db'.bindings = db.bindings := by
  unfold Db.trimRing at h
  simp only at h
  split at h
  · cases h
    rfl
  · split at h
    · cases h
    · split at h
      · cases h
        rfl
      · cases h
        unfold Db.upsertTruncation
        split <;> rfl

theorem appendTx_bindings {db db' : Db} {d : EventDraft} {now trimNow seq : Int}
    (h : db.appendTx d now trimNow = .ok (db', seq)) : db'.bindings = db.bindings := by
  unfold Db.appendTx at h
  simp only at h
  split at h
  · cases h
  · split at h
    · cases h
    · split at h
      · cases h
      · split at h
        · cases h
        · rename_i htrim
          cases h
          have hbindings := trimRing_bindings htrim
          exact hbindings

theorem upsertBinding_bindings {db db' : Db} {row : BindingRow}
    (h : db.upsertBinding row = .ok db') :
    (db.getWorkflow row.workflowId).isSome = true ∧
      ∀ b ∈ db'.bindings, b = row ∨ b ∈ db.bindings := by
  unfold Db.upsertBinding at h
  by_cases hw : (db.getWorkflow row.workflowId).isNone = true
  · rw [if_pos hw] at h
    cases h
  · rw [if_neg hw] at h
    refine ⟨by simpa [Option.isSome_iff_ne_none] using hw, ?_⟩
    by_cases hb : (db.bindingOf row.workflowId).isSome = true
    · rw [if_pos hb] at h
      cases h
      intro b hmem
      obtain ⟨r, hr, rfl⟩ := List.mem_map.mp hmem
      by_cases hid : r.workflowId = row.workflowId
      · exact .inl (if_pos hid)
      · rw [if_neg hid]
        exact .inr hr
    · rw [if_neg hb] at h
      cases h
      intro b hmem
      rw [List.mem_append, List.mem_singleton] at hmem
      exact hmem.symm

/-- **What a statement does to the bindings.** -/
theorem step_bindings (s : Sql) (db : Db) :
    (s.step db).1.bindings = db.bindings ∨
      ∃ row, s = .upsertBinding row ∧ (db.getWorkflow row.workflowId).isSome = true ∧
        ∀ b ∈ (s.step db).1.bindings, b = row ∨ b ∈ db.bindings := by
  cases s with
  | insertWorkflow row =>
      refine .inl (wrote_keep (P := fun d => d.bindings = db.bindings) rfl fun db' h => ?_)
      rw [insertWorkflow_ok h]
  | updateWorkflowState w state now =>
      refine .inl (wrote_keep (P := fun d => d.bindings = db.bindings) rfl fun db' h => ?_)
      rw [updateWorkflowState_ok h]
  | insertRequest id w kind expiresAt now =>
      refine .inl (wrote_keep (P := fun d => d.bindings = db.bindings) rfl fun db' h => ?_)
      rw [(insertRequest_ok h).2.2]
  | upsertBinding row =>
      rw [Sql.step]
      cases h : db.upsertBinding row with
      | error e => exact .inl rfl
      | ok db' =>
          have hrow := upsertBinding_bindings h
          exact .inr ⟨row, rfl, hrow.1, hrow.2⟩
  | appendEvent d now trimNow =>
      left
      rw [Sql.step]
      cases h : db.appendTx d now trimNow with
      | error e => rfl
      | ok x => exact appendTx_bindings h
  | _ => exact .inl rfl

/-- No statement removes a workflow. -/
theorem step_known (s : Sql) {db : Db} {w : String} (h : (db.getWorkflow w).isSome = true) :
    ((s.step db).1.getWorkflow w).isSome = true := by
  obtain hsame | ⟨row, _, _, hnew⟩ | ⟨row, state, now, _, _, hset⟩ := step_getWorkflow s db w
  · rwa [hsame]
  · rw [hnew]
    rfl
  · rw [hset]
    rfl

/-- Commands that bind no empty session. -/
def BindsSession : Cmd → Prop
  | .sql (.upsertBinding row) => row.providerSessionId ≠ ""
  | _ => True

theorem sound_step {s : Sql} {db : Db} (hs : BindsSession (.sql s)) (h : BindingsSound db) :
    BindingsSound (s.step db).1 := by
  have hold : ∀ b ∈ db.bindings, b.Sound (s.step db).1 :=
    fun b hb => ⟨(h b hb).1, step_known s (h b hb).2⟩
  intro b hb
  obtain hsame | ⟨row, heq, hknown, hrows⟩ := step_bindings s db
  · rw [hsame] at hb
    exact hold b hb
  · cases hrows b hb with
    | inl hnew =>
        subst hnew heq
        exact ⟨hs, step_known _ hknown⟩
    | inr hmem => exact hold b hmem

end Statements

/-! ## The calls -/

/-- The calls that bind, and the one that reads bindings. -/
inductive BindingCall where
  | create (w : String) (provider : Provider) (title : String) (session : Option String)
  | bind (w session : String) (pointer : Option String)
  | reconcile (w : String)
  | restart

/-- What they return. -/
inductive BindingReply where
  | row (a : Except LifecycleError WorkflowRow)
  | bound (a : Except StorageError Unit)
  | decision (a : Except LifecycleError RecoveryDecision)
  | restarted

/-- The program of a call. -/
def BindingCall.code : BindingCall → Code BindingReply
  | .create w provider title session => do
      return .row (← WorkflowManager.createWorkflow w provider title session)
  | .bind w session pointer => do
      return .bound (← SessionManager.bind w session pointer)
  | .reconcile w => do
      return .decision (← WorkflowManager.reconcile w)
  | .restart => do
      Prog.perform Cmd.restart
      return .restarted

/-- A workflow is created with an empty session: the arguments pass the checks of
`create_workflow`, and the id is not taken. -/
def CreatesUnattachable (m : Machine) : BindingCall → Prop
  | .create w provider title session => w ≠ "" ∧ title ≠ "" ∧ provider ≠ .unspecified ∧
      session = some "" ∧ m.db.getWorkflow w = none
  | _ => False

section Calls

variable {m : Machine} {α : Type}

theorem meets_binds {p : Code α} (hp : p.Only BindsSession) (h : BindingsSound m.db) :
    p.Meets exec 0 (fun _ m => BindingsSound m.db) (fun m => BindingsSound m.db) m := by
  refine meets_keep hp (fun c o m hc hm => ?_) h
  refine run_db m o hm fun s hs => ?_
  subst hs
  exact sound_step hc hm

theorem appendEvent_binds (d : EventDraft) : (appendEvent d).Only BindsSession := by
  refine andThen_only (Prog.only_perform trivial) fun row => ?_
  cases row with
  | none => trivial
  | some row => exact ⟨trivial, fun _ => ⟨trivial, fun _ => Prog.only_perform trivial⟩⟩

theorem record_binds (w : String) (session : Option String) (next : WorkflowState)
    (reason : String) : (record w session next reason).Only BindsSession := by
  unfold record
  cases lifecycleEvent next with
  | none => trivial
  | some eventType => exact ⟨trivial, fun _ => stored_only (appendEvent_binds _)⟩

theorem setWorkflowState_binds (w : String) (next : WorkflowState) :
    (setWorkflowState w next).Only BindsSession := by
  unfold setWorkflowState
  by_cases hp : next.isPersistable = true
  · rw [if_neg (not_not_intro hp)]
    refine andThen_only (Prog.only_perform trivial) fun row => ?_
    cases row with
    | none => trivial
    | some current =>
        show Prog.Only _ (if current.state ∈ terminalStates then _ else _)
        by_cases ht : current.state ∈ terminalStates
        · rw [if_pos ht]
          trivial
        · rw [if_neg ht]
          refine ⟨trivial, fun t => andThen_only (Prog.only_perform trivial) fun _ => ?_⟩
          refine andThen_only (Prog.only_perform trivial) fun row => ?_
          cases row with
          | none => trivial
          | some row => trivial
  · rw [if_pos hp]
    trivial

theorem bind_binds (w session : String) (pointer : Option String) :
    (SessionManager.bind w session pointer).Only BindsSession := by
  unfold SessionManager.bind
  by_cases hw : w = ""
  · rw [if_pos hw]
    trivial
  rw [if_neg hw]
  by_cases hs : session = ""
  · rw [if_pos hs]
    trivial
  rw [if_neg hs]
  refine andThen_only (Prog.only_perform trivial) fun row => ?_
  cases row with
  | none => trivial
  | some row => exact ⟨trivial, fun _ => Prog.only_perform hs⟩

/-- The part of `create_workflow` behind its checks. -/
theorem create_cases (w : String) (provider : Provider) (title : String)
    (session : Option String) :
    (∃ e, WorkflowManager.createWorkflow w provider title session = .ret (.error e) ∧
        (w = "" ∨ title = "" ∨ provider = .unspecified)) ∨
      w ≠ "" ∧ title ≠ "" ∧ provider ≠ .unspecified ∧
        WorkflowManager.createWorkflow w provider title session =
          andThen (stored (createWorkflow w provider title session)) fun row =>
            andThen (WorkflowManager.bindCreated w session) fun _ =>
              andThen (record row.workflowId row.providerSessionId .running "workflow created")
                fun _ => return .ok row := by
  unfold WorkflowManager.createWorkflow
  by_cases hw : w = ""
  · rw [if_pos hw]
    exact .inl ⟨_, rfl, .inl hw⟩
  rw [if_neg hw]
  by_cases ht : title = ""
  · rw [if_pos ht]
    exact .inl ⟨_, rfl, .inr (.inl ht)⟩
  rw [if_neg ht]
  by_cases hp : provider = .unspecified
  · rw [if_pos hp]
    exact .inl ⟨_, rfl, .inr (.inr hp)⟩
  rw [if_neg hp]
  exact .inr ⟨hw, ht, hp, rfl⟩

theorem bindCreated_binds (w : String) {session : Option String} (hs : session ≠ some "") :
    (WorkflowManager.bindCreated w session).Only BindsSession := by
  cases session with
  | none => trivial
  | some s =>
      have hne : s ≠ "" := fun h => hs (congrArg some h)
      exact stored_only ⟨trivial, fun _ => Prog.only_perform hne⟩

theorem create_binds (w : String) (provider : Provider) (title : String)
    {session : Option String} (hs : session ≠ some "") :
    (WorkflowManager.createWorkflow w provider title session).Only BindsSession := by
  obtain ⟨e, heq, _⟩ | ⟨_, _, _, heq⟩ := create_cases w provider title session
  · rw [heq]
    trivial
  · rw [heq]
    refine andThen_only (stored_only ?_) fun row => ?_
    · exact ⟨trivial, fun _ => andThen_only (Prog.only_perform trivial) fun _ => trivial⟩
    · refine andThen_only (bindCreated_binds w hs) fun _ => ?_
      exact andThen_only (record_binds _ _ _ _) fun _ => trivial

/-- An id that is taken ends `create_workflow` at its first statement. -/
theorem create_taken (w : String) (provider : Provider) (title : String)
    (session : Option String) (hm : BindingsSound m.db)
    (htaken : (m.db.getWorkflow w).isSome = true) :
    (WorkflowManager.createWorkflow w provider title session).Meets exec 0
      (fun _ m => BindingsSound m.db) (fun m => BindingsSound m.db) m := by
  obtain ⟨e, heq, _⟩ | ⟨_, _, _, heq⟩ := create_cases w provider title session
  · rw [heq]
    exact ⟨hm, hm⟩
  · rw [heq]
    refine meets_andThen (meets_stored ?_)
    refine ⟨hm, fun o m₁ r hx => ?_⟩
    cases hx
    refine meets_andThen (meets_sql hm (fun _ _ _ => hm) ?_)
    have hrefused : ∀ row : WorkflowRow, row.workflowId = w →
        (Sql.insertWorkflow row).step m.db = (m.db, .error .sqlite) := by
      intro row hrow
      rw [Sql.step, Db.insertWorkflow, hrow, if_pos htaken]
      rfl
    rw [hrefused _ rfl]
    exact ⟨hm, fun _ _ _ => hm⟩

theorem reconcile_binds (w : String) : (WorkflowManager.reconcile w).Only BindsSession := by
  have hrecover : ∀ row, (WorkflowManager.recover w row).Only BindsSession := by
    intro row
    unfold WorkflowManager.recover getSessionBinding eventsAfter
    refine andThen_only (stored_only (Prog.only_perform trivial)) fun binding => ?_
    refine andThen_only (stored_only (Prog.only_perform trivial)) fun replayed => ?_
    cases binding with
    | some b => trivial
    | none =>
        refine andThen_only (stored_only (setWorkflowState_binds _ _)) fun _ => ?_
        exact andThen_only (record_binds _ _ _ _) fun _ => trivial
  unfold WorkflowManager.reconcile
  refine andThen_only (stored_only (Prog.only_perform trivial)) fun row => ?_
  cases row with
  | none => trivial
  | some row =>
      cases hs : WorkflowState.fromI32 row.state with
      | none =>
          simp only [hs]
          trivial
      | some state =>
          simp only [hs]
          cases state with
          | running => exact hrecover row
          | waitingInput => exact hrecover row
          | waitingApproval => exact hrecover row
          | _ => trivial

/-- **A call that creates nothing unattachable keeps the bindings sound.** -/
theorem bindings_kept (c : BindingCall) (hc : ¬CreatesUnattachable m c)
    (hm : BindingsSound m.db) :
    c.code.Meets exec 0 (fun _ m => BindingsSound m.db) (fun m => BindingsSound m.db) m := by
  cases c with
  | create w provider title session =>
      have hcreate : (WorkflowManager.createWorkflow w provider title session).Meets exec 0
          (fun _ m => BindingsSound m.db) (fun m => BindingsSound m.db) m := by
        by_cases hs : session = some ""
        · by_cases htaken : (m.db.getWorkflow w).isSome = true
          · exact create_taken w provider title session hm htaken
          · obtain ⟨e, heq, _⟩ | ⟨hw, ht, hp, _⟩ := create_cases w provider title session
            · rw [heq]
              exact ⟨hm, hm⟩
            · have hfree : m.db.getWorkflow w = none := by simpa using htaken
              exact absurd ⟨hw, ht, hp, hs, hfree⟩ hc
        · exact meets_binds (create_binds w provider title hs) hm
      exact Prog.meets_bind (hcreate.mono (fun _ _ h _ => ⟨h, h⟩) fun _ h => h)
  | bind w session pointer =>
      exact meets_binds ((bind_binds w session pointer).bind fun _ => trivial) hm
  | reconcile w => exact meets_binds ((reconcile_binds w).bind fun _ => trivial) hm
  | restart => exact meets_binds ⟨trivial, fun _ => trivial⟩ hm

/-- An answer that does not hand out an empty session. -/
def Attachable (a : Except LifecycleError RecoveryDecision) : Prop :=
  ∀ session pointer replayed last, a = .ok (.reattach session pointer replayed last) → session ≠ ""

theorem attachable_error (e : LifecycleError) : Attachable (.error e) := by
  intro _ _ _ _ h
  cases h

/-- What fails the workflow instead. -/
theorem fail_attachable (w : String) (row : WorkflowRow) :
    (andThen (stored (setWorkflowState w .failed)) fun _ =>
      andThen (record w row.providerSessionId .failed (WorkflowManager.unboundReason w)) fun _ =>
        return .ok (.cleanFailed (WorkflowManager.unboundReason w))).Yields Attachable := by
  refine Prog.Yields.bind (fun a => ?_) _
  cases a with
  | error e => exact attachable_error e
  | ok row' =>
      refine Prog.Yields.bind (fun b => ?_) _
      cases b with
      | error e => exact attachable_error e
      | ok seq =>
          intro _ _ _ _ h
          cases h

/-- **Recovery hands out no empty session** if none is stored. -/
theorem reconcile_attachable (w : String) (hm : BindingsSound m.db) :
    (WorkflowManager.reconcile w).Meets exec 0 (fun a _ => Attachable a) (fun _ => True) m := by
  have hrecover : ∀ row, (WorkflowManager.recover w row).Meets exec 0
      (fun a _ => Attachable a) (fun _ => True) m := by
    intro row
    unfold WorkflowManager.recover getSessionBinding eventsAfter
    refine meets_andThen (meets_stored (meets_sql (C := fun _ => True) trivial
      (fun _ _ => attachable_error _) ⟨trivial, fun _ _ => ?_⟩))
    have hread : (Sql.selectBinding w).step m.db =
        (m.db, .ok ((m.db.bindingOf w).map fun r => (r.providerSessionId, r.resumePointer))) := rfl
    rw [hread]
    refine meets_andThen (meets_stored (meets_sql (C := fun _ => True) trivial
      (fun _ _ => attachable_error _) ⟨trivial, fun _ _ => ?_⟩))
    cases hb : m.db.bindingOf w with
    | none => exact (fail_attachable w row).meets
    | some b =>
        have hsound := (hm b (List.mem_of_find?_eq_some hb)).1
        refine ⟨trivial, ?_⟩
        intro session pointer replayed last h
        simp only [Except.ok.injEq, RecoveryDecision.reattach.injEq] at h
        exact h.1 ▸ hsound
  unfold WorkflowManager.reconcile getWorkflow
  refine meets_andThen (meets_stored (meets_sql (C := fun _ => True) trivial
    (fun _ _ => attachable_error _) ⟨trivial, fun _ _ => ?_⟩))
  have hread : (Sql.selectWorkflow w).step m.db = (m.db, .ok (m.db.getWorkflow w)) := rfl
  rw [hread]
  cases hrow : m.db.getWorkflow w with
  | none => exact ⟨trivial, attachable_error _⟩
  | some row =>
      cases hs : WorkflowState.fromI32 row.state with
      | none =>
          simp only [mapError_ok, hs]
          exact ⟨trivial, attachable_error _⟩
      | some state =>
          have hended : ∀ s, Attachable (.ok (.alreadyTerminal s)) := by
            intro s _ _ _ _ h
            cases h
          simp only [mapError_ok, hs]
          cases state with
          | running => exact hrecover row
          | waitingInput => exact hrecover row
          | waitingApproval => exact hrecover row
          | completed => exact ⟨trivial, hended _⟩
          | failed => exact ⟨trivial, hended _⟩
          | stopped => exact ⟨trivial, hended _⟩
          | unspecified => exact ⟨trivial, attachable_error _⟩
          | disconnectedRunning => exact ⟨trivial, attachable_error _⟩

end Calls

/-! ## Runs -/

/-- The machine after calls on a fresh store. -/
def bindingsAfter (ts : List (Prog.Try BindingCall Oracle)) : Machine :=
  Prog.afterAll exec BindingCall.code {} ts

/-- Every store of the run has sound bindings, and no recovery of the run hands
out an empty session. -/
structure BindingLaw (ts : List (Prog.Try BindingCall Oracle)) : Prop where
  sound : ∀ us vs, ts = us ++ vs → BindingsSound (bindingsAfter us).db
  attachable : ∀ us t vs, ts = us ++ t :: vs → ∀ w, t.task = .reconcile w →
    ∀ a, (t.at exec BindingCall.code (bindingsAfter us)).2 = some (.decision a) → Attachable a

/-- No call of the run creates a workflow with an empty session. -/
def AllAttachable (ts : List (Prog.Try BindingCall Oracle)) : Prop :=
  ∀ us t vs, ts = us ++ t :: vs → ¬CreatesUnattachable (bindingsAfter us) t.task

section Law

theorem bindingsAfter_snoc (us : List (Prog.Try BindingCall Oracle))
    (t : Prog.Try BindingCall Oracle) :
    bindingsAfter (us ++ [t]) = (t.at exec BindingCall.code (bindingsAfter us)).1 := by
  unfold bindingsAfter
  rw [Prog.afterAll_append]
  rfl

theorem sound_run (ts : List (Prog.Try BindingCall Oracle)) (h : AllAttachable ts) :
    BindingsSound (bindingsAfter ts).db := by
  induction ts using List.reverseRecOn with
  | nil => exact fun b hb => absurd hb List.not_mem_nil
  | append_singleton us t ih =>
      have hbefore : AllAttachable us := fun xs y zs heq =>
        h xs y (zs ++ [t]) (by rw [heq, List.append_assoc, List.cons_append])
      rw [bindingsAfter_snoc]
      exact (Prog.meets_attempt (bindings_kept t.task (h us t [] rfl) (ih hbefore)) t.steps
        t.oracles).1

end Law

/-- **The binding invariant** of runs in which no workflow is created with an empty
session, each call cut short or failing anywhere. -/
theorem binding_law (ts : List (Prog.Try BindingCall Oracle)) (h : AllAttachable ts) :
    BindingLaw ts where
  sound := by
    rintro us vs rfl
    exact sound_run us fun xs y zs heq =>
      h xs y (zs ++ vs) (by rw [heq, List.append_assoc, List.cons_append])
  attachable := by
    rintro us t vs rfl w ht a ha
    have hsound : BindingsSound (bindingsAfter us).db := sound_run us fun xs y zs heq =>
      h xs y (zs ++ t :: vs) (by rw [heq, List.append_assoc, List.cons_append])
    obtain ⟨task, steps, os⟩ := t
    cases ht
    have hat : (Prog.Try.at exec BindingCall.code ⟨.reconcile w, steps, os⟩
        (bindingsAfter us)) = _ :=
      attempt_wrapped BindingReply.decision (WorkflowManager.reconcile w) steps os _ 0
    rw [hat] at ha
    obtain ⟨b, hb, hba⟩ := Option.map_eq_some_iff.mp ha
    cases hba
    exact (Prog.meets_attempt (reconcile_attachable w hsound) steps os).2 _ hb

/-- A workflow without a session that is bound later, and one that is not. -/
def sampleBindings : List (Prog.Try BindingCall Oracle) :=
  [⟨.create "v" .claude "t" none, 9, fun _ => {}⟩, ⟨.bind "v" "s1" none, 9, fun _ => {}⟩,
    ⟨.create "w" .codex "t" none, 9, fun _ => {}⟩, ⟨.reconcile "v", 9, fun _ => {}⟩]

theorem binding_law_sample :
    BindingLaw sampleBindings ∧
      (bindingsAfter sampleBindings).db.bindings.map BindingRow.providerSessionId = ["s1"] := by
  refine ⟨binding_law sampleBindings ?_, by decide⟩
  intro us t vs heq hunattachable
  have hmem : t ∈ sampleBindings := heq ▸ List.mem_append_right us List.mem_cons_self
  simp only [sampleBindings, List.mem_cons, List.not_mem_nil, or_false] at hmem
  rcases hmem with rfl | rfl | rfl | rfl
  · exact absurd hunattachable.2.2.2.1 (by decide)
  · exact hunattachable
  · exact absurd hunattachable.2.2.2.1 (by decide)
  · exact hunattachable

/-- A workflow is created with an empty session. -/
def emptySession : List (Prog.Try BindingCall Oracle) :=
  [⟨.create "w" .claude "t" (some ""), 9, fun _ => {}⟩]

/-- It is stored, and recovery would hand it out. -/
theorem unattachable_workflow : ¬∀ ts : List (Prog.Try BindingCall Oracle), BindingLaw ts := by
  intro hall
  have hsound := (hall emptySession).sound emptySession [] (List.append_nil _).symm
    ⟨"w", "", none, 0⟩ (by decide)
  exact hsound.1 rfl

end Calcar.Agent
