import Calcar.Verified.Inputs

/-!
# Inputs and approvals in one table

Inputs and approvals share `pending_requests`, each under a key of its own
making.  The two kinds of keys stay apart as long as no approval is requested
for a workflow whose id reads like the prefix of an input key (`InputLike`).

The approval route resolves the row stored under the approval id; that it belongs to
the workflow in the path is not checked there.  What holds is that no other row
changes, and no input row under an approval id that is no input key.

## Main results

* `keys_differ` — an input key is no approval key.
* `Filed.attempt` — every request leaves the table filed by kind.
* `requests_kept_apart` — the law for every sequence of requests.
* `approval_of_another_workflow` — a post that resolves an approval of another
  workflow.
-/

namespace Calcar.Agent

open Lib

/-! ## Keys -/

/-- A workflow id that reads like the prefix of an input key. -/
def InputLike (w : String) : Prop := w = "input" ∨ "input:".toList <+: w.toList

instance (w : String) : Decidable (InputLike w) := by
  unfold InputLike
  infer_instance

/-- **An input key is no approval key** of a plainly named workflow. -/
theorem keys_differ {w i w' r : String} (hw : ¬InputLike w') :
    storageKey w i ≠ namespacedKey w' r := by
  intro heq
  have hlist : w'.toList ++ (':' :: r.toList) =
      "input".toList ++ (':' :: (w ++ ":" ++ i).toList) := by
    have h := congrArg String.toList heq
    simp only [storageKey, namespacedKey, String.toList_append] at h ⊢
    simpa using h.symm
  rcases List.append_eq_append_iff.mp hlist with ⟨bs, hinput, htail⟩ | ⟨as, hw', htail⟩
  · cases bs with
    | nil =>
        rw [List.append_nil] at hinput
        exact hw (.inl (String.toList_inj.mp hinput.symm))
    | cons c bs =>
        rw [List.cons_append, List.cons.injEq] at htail
        have hcolon : ':' ∈ "input".toList := by
          rw [hinput, htail.1]
          exact List.mem_append_right _ List.mem_cons_self
        exact absurd hcolon (by decide)
  · cases as with
    | nil =>
        rw [List.append_nil] at hw'
        exact hw (.inl (String.toList_inj.mp hw'))
    | cons c as =>
        rw [List.cons_append, List.cons.injEq] at htail
        have hprefix : "input:".toList <+: w'.toList := by
          rw [hw', ← htail.1]
          exact ⟨as, rfl⟩
        exact hw (.inr hprefix)

/-- How rows of a kind are keyed. -/
def Named (k : String) : RequestKind → Prop
  | .input => ∃ w i, k = storageKey w i
  | .approval => ∃ w r, ¬InputLike w ∧ k = namespacedKey w r

theorem Named.apart {k k' : String} (h : Named k .input) (h' : Named k' .approval) : k ≠ k' := by
  obtain ⟨w, i, rfl⟩ := h
  obtain ⟨w', r, hw', rfl⟩ := h'
  exact keys_differ hw'

/-! ## The table -/

/-- One row for each id, keyed as its kind demands. -/
structure Filed (db : Db) : Prop where
  named : ∀ r, r ∈ db.requests → Named r.requestId r.kind
  distinct : (db.requests.map RequestRow.requestId).Nodup

/-- The rows of all requests but one. -/
def rest (k : String) (db : Db) : List RequestRow := db.requests.filter fun r => r.requestId ≠ k

/-- The input rows. -/
def inputsOf (db : Db) : List RequestRow := db.requests.filter fun r => r.kind = .input

/-- The approval rows. -/
def approvalsOf (db : Db) : List RequestRow := db.requests.filter fun r => r.kind = .approval

/-- Commands that change no request but `k`, and add it as one of this kind if
at all. -/
def Concerns (k : String) (kind : Option RequestKind) : Cmd → Prop
  | .sql s => Keyed k kind s ∨ LeavesRequests s
  | _ => True

section Commands

variable {k : String} {kind : Option RequestKind} {c : Cmd}

theorem RequestCmd.concerns (hc : RequestCmd k kind c) : Concerns k kind c := by
  cases c with
  | sql s => exact .inl hc
  | _ => trivial

theorem Aside.concerns (hc : Aside c) : Concerns k kind c := by
  cases c with
  | sql s => exact .inr hc
  | _ => trivial

theorem Concerns.rest (hc : Concerns k kind c) (o : Oracle) (m : Machine) :
    rest k (c.run o m).1.db = rest k m.db := by
  refine run_db (P := fun db => Agent.rest k db = Agent.rest k m.db) m o rfl fun s hs => ?_
  subst hs
  rcases hc with hkey | hleave
  · exact congrArg Prod.snd (hkey.apart m.db)
  · unfold Agent.rest
    rw [hleave.same m.db]

/-- **A command that names its rows well keeps the table filed.** -/
theorem Concerns.filed (hc : Concerns k kind c) (hk : ∀ kd, kind = some kd → Named k kd)
    (o : Oracle) {m : Machine} (hm : Filed m.db) : Filed (c.run o m).1.db := by
  refine run_db m o hm fun s hs => ?_
  subst hs
  by_cases hins : ∃ id w kd expiresAt now, s = .insertRequest id w kd expiresAt now
  · obtain ⟨id, w, kd, expiresAt, now, rfl⟩ := hins
    have hkey : id = k ∧ kind = some kd := hc.resolve_right fun h => h
    refine wrote_keep hm fun db' h => ?_
    obtain ⟨_, hnone, rfl⟩ := insertRequest_ok h
    have hfree : id ∉ m.db.requests.map RequestRow.requestId := by
      intro hmem
      obtain ⟨r, hr, hid⟩ := List.mem_map.mp hmem
      exact requestOf_eq_none.mp hnone ⟨r, hr, hid⟩
    refine ⟨fun r hr => ?_, ?_⟩
    · rw [List.mem_append, List.mem_singleton] at hr
      rcases hr with hr | hr
      · exact hm.named r hr
      · rw [hr]
        exact hkey.1 ▸ hk kd hkey.2
    · rw [List.map_append, List.nodup_append]
      refine ⟨hm.distinct, by simp, fun a ha b hb => ?_⟩
      rw [List.map_singleton, List.mem_singleton] at hb
      intro hab
      rw [hab, hb] at ha
      exact hfree ha
  · obtain ⟨f, hf, hmove⟩ := step_moves s m.db fun id w kd expiresAt now h =>
      hins ⟨id, w, kd, expiresAt, now, h⟩
    refine ⟨fun r hr => ?_, ?_⟩
    · rw [hf] at hr
      obtain ⟨r₀, hr₀, rfl⟩ := List.mem_map.mp hr
      rw [(hmove r₀).requestId, (hmove r₀).kind]
      exact hm.named r₀ hr₀
    · have hids : (s.step m.db).1.requests.map RequestRow.requestId =
          m.db.requests.map RequestRow.requestId := by
        rw [hf, List.map_map]
        exact List.map_congr_left fun r _ => (hmove r).requestId
      rw [hids]
      exact hm.distinct

end Commands

/-! ## The requests of the phone and of the adapters -/

/-- What reaches the table: the router, the permission manager, the two routes,
new workflows, and new starts of the process. -/
inductive Request where
  | deliver (w i : String)
  | requestApproval (w r device summary : String) (ttlMillis : Nat)
  | approvalPost (p : Post)
  | inputPost (p : Post)
  | createWorkflow (w : String) (provider : Provider) (title : String) (session : Option String)
  | restart

/-- The program behind a request, its answer left aside. -/
def serve (cfg : ConnectConfig) : Request → Code Unit
  | .deliver w i => do
      let _ ← deliver w i
      return ()
  | .requestApproval w r device summary ttlMillis => do
      let _ ← requestApproval w r device summary ttlMillis
      return ()
  | .approvalPost p => do
      let _ ← replyApproval cfg p
      return ()
  | .inputPost p => do
      let _ ← replyInput cfg p
      return ()
  | .createWorkflow w provider title session => do
      let _ ← createWorkflow w provider title session
      return ()
  | .restart => Prog.perform Cmd.restart

/-- No approval is requested for a workflow named like an input key. -/
def Request.PlainlyNamed : Request → Prop
  | .requestApproval w _ _ _ _ => ¬InputLike w
  | _ => True

/-- The row a post is about, and the kind it adds it as. -/
def approvalTarget (p : Post) : String × Option RequestKind :=
  match approvalFields p with
  | .ok (approvalId, _) => (approvalId, none)
  | .error _ => ("", none)

def inputTarget (p : Post) : String × Option RequestKind :=
  match inputFields p with
  | .ok (inputId, _, _) => (storageKey p.workflow inputId, some .input)
  | .error _ => ("", none)

/-- The row a request is about, and the kind it adds it as. -/
def Request.row : Request → String × Option RequestKind
  | .deliver w i => (storageKey w i, some .input)
  | .requestApproval w r _ _ _ => (namespacedKey w r, some .approval)
  | .approvalPost p => approvalTarget p
  | .inputPost p => inputTarget p
  | _ => ("", none)

section Programs

variable {k : String} {kind : Option RequestKind}

theorem deliver_concerns (w i : String) :
    (deliver w i).Only (Concerns (storageKey w i) (some .input)) :=
  (deliver_only w i).mono fun _ hc => hc.concerns

theorem resolvePendingRequest_concerns (payload : String) :
    (resolvePendingRequest k payload).Only (Concerns k kind) :=
  (resolvePendingRequest_only k payload kind).mono fun _ hc => hc.concerns

theorem requestApproval_concerns (w r device summary : String) (ttlMillis : Nat) :
    (requestApproval w r device summary ttlMillis).Only
      (Concerns (namespacedKey w r) (some .approval)) := by
  unfold requestApproval
  by_cases h : w = "" ∨ r = "" ∨ device = ""
  · rw [if_pos h]
    trivial
  · rw [if_neg h]
    refine ⟨trivial, fun t => andThen_only ?_ fun _ => ⟨trivial, fun _ => trivial⟩⟩
    exact (createPendingRequest_only _ w .approval _).mono fun _ hc => hc.concerns

theorem createWorkflow_only (w : String) (provider : Provider) (title : String)
    (session : Option String) : (createWorkflow w provider title session).Only Aside :=
  ⟨trivial, fun _ => andThen_only (Prog.only_perform trivial) fun _ => trivial⟩

theorem handleApproval_concerns (p : Post) :
    (handleApproval p).Only (Concerns (approvalTarget p).1 (approvalTarget p).2) := by
  unfold handleApproval approvalTarget
  cases approvalFields p with
  | error r => trivial
  | ok fields =>
      obtain ⟨approvalId, allow⟩ := fields
      refine orInternal_only (fun _ => trivial) (Prog.only_perform trivial) fun _ => ?_
      refine orInternal_only (fun _ => trivial)
        ((getWorkflow_only _).mono fun _ hc => hc.concerns) fun row => ?_
      cases row with
      | none => trivial
      | some _ =>
          refine orInternal_only (fun _ => trivial) (Prog.only_perform trivial) fun _ => ?_
          refine (resolvePendingRequest_concerns _).bind fun a => ?_
          cases a with
          | error e => exact approvalRefused_only (fun _ => trivial) e
          | ok _ => exact ⟨trivial, fun _ => ⟨trivial, fun _ => ⟨trivial, fun _ => trivial⟩⟩⟩

theorem executeInput_concerns (cfg : ConnectConfig) (w i text : String) (destructive : Bool)
    (session : Option String) :
    (executeInput cfg w i text destructive session).Only (Concerns k kind) := by
  have hrun : (runGeneric w i text cfg.execTimeoutSecs).Only (Concerns k kind) := by
    unfold runGeneric
    by_cases h : Text.trimSpace text = ""
    · rw [if_pos h]
      trivial
    · rw [if_neg h]
      refine ⟨trivial, fun spawned => ?_⟩
      cases spawned with
      | error _ => trivial
      | ok _ => exact (collectChild_only _).mono fun _ hc => hc.concerns
  refine hrun.bind fun ran => ?_
  match ran with
  | .error .timeout => trivial
  | .error (.spawn _) => trivial
  | .error (.join _) => trivial
  | .ok outcome =>
      exact (recordInput_only w i destructive session outcome).mono fun _ hc => hc.concerns

theorem handleInput_concerns (cfg : ConnectConfig) (p : Post) :
    (handleInput cfg p).Only (Concerns (inputTarget p).1 (inputTarget p).2) := by
  unfold handleInput inputTarget
  cases inputFields p with
  | error r => trivial
  | ok fields =>
      obtain ⟨inputId, text, destructive⟩ := fields
      refine orInternal_only (fun _ => trivial) (Prog.only_perform trivial) fun _ => ?_
      refine orInternal_only (fun _ => trivial)
        ((getWorkflow_only _).mono fun _ hc => hc.concerns) fun row => ?_
      cases row with
      | none => trivial
      | some row =>
          by_cases hprov : Provider.fromI32 row.provider ≠ some .generic
          · simp only [if_pos hprov]
            exact (interactiveInput_only _).mono fun _ hc => hc.concerns
          · simp only [if_neg hprov]
            refine orInternal_only (fun _ => trivial) (Prog.only_perform trivial)
              fun _ => ?_
            refine (deliver_concerns _ _).bind fun a => ?_
            match a with
            | .error (.notFound _) => trivial
            | .error (.invalidState _) => trivial
            | .error .sqlite => exact internalError_only (fun _ => trivial) _
            | .error (.alreadyResolved _) => exact internalError_only (fun _ => trivial) _
            | .error (.expired _) => exact internalError_only (fun _ => trivial) _
            | .ok .duplicate => exact (duplicateInput_only _ _).mono fun _ hc => hc.concerns
            | .ok .delivered => exact executeInput_concerns ..

/-- Every request is about one row. -/
theorem serve_concerns (cfg : ConnectConfig) (q : Request) :
    (serve cfg q).Only (Concerns q.row.1 q.row.2) := by
  cases q with
  | deliver w i => exact (deliver_concerns w i).bind fun _ => trivial
  | requestApproval w r device summary ttlMillis =>
      exact (requestApproval_concerns ..).bind fun _ => trivial
  | approvalPost p =>
      refine Prog.Only.bind ?_ fun _ => trivial
      unfold replyApproval reply
      by_cases hb : bearerOk p cfg.token = true
      · rw [if_pos hb]
        exact handleApproval_concerns p
      · rw [if_neg hb]
        trivial
  | inputPost p =>
      refine Prog.Only.bind ?_ fun _ => trivial
      unfold replyInput reply
      by_cases hb : bearerOk p cfg.token = true
      · rw [if_pos hb]
        exact handleInput_concerns cfg p
      · rw [if_neg hb]
        trivial
  | createWorkflow w provider title session =>
      refine Prog.Only.bind ?_ fun _ => trivial
      exact (createWorkflow_only ..).mono fun _ hc => hc.concerns
  | restart => exact Prog.only_perform trivial

/-- … and names it as its kind demands. -/
theorem row_named {q : Request} (hq : q.PlainlyNamed) (kd : RequestKind)
    (h : q.row.2 = some kd) : Named q.row.1 kd := by
  cases q with
  | deliver w i =>
      cases Option.some.inj h
      exact ⟨w, i, rfl⟩
  | requestApproval w r device summary ttlMillis =>
      cases Option.some.inj h
      exact ⟨w, r, hq, rfl⟩
  | approvalPost p =>
      have hnone : (approvalTarget p).2 = none := by
        unfold approvalTarget
        cases approvalFields p <;> rfl
      cases hnone.symm.trans h
  | inputPost p =>
      change (inputTarget p).2 = some kd at h
      change Named (inputTarget p).1 kd
      unfold inputTarget at h ⊢
      cases hf : inputFields p with
      | error r =>
          rw [hf] at h
          cases h
      | ok fields =>
          rw [hf] at h
          cases Option.some.inj h
          exact ⟨p.workflow, fields.1, rfl⟩
  | createWorkflow w provider title session => cases h
  | restart => cases h

end Programs

/-! ## Every sequence of requests -/

theorem Filed.keep {cfg : ConnectConfig} {q : Request} (hq : q.PlainlyNamed) {m : Machine}
    (hm : Filed m.db) :
    (serve cfg q).Meets exec 0 (fun _ m => Filed m.db) (fun m => Filed m.db) m :=
  meets_keep (serve_concerns cfg q) (I := fun m => Filed m.db)
    (fun _ o _ hc h => hc.filed (row_named hq) o h) hm

/-- **Every request leaves the table filed**, wherever it is cut short. -/
theorem Filed.attempt {cfg : ConnectConfig} {t : Prog.Try Request Oracle}
    (hq : t.task.PlainlyNamed) {m : Machine} (hm : Filed m.db) :
    Filed (t.at exec (serve cfg) m).1.db :=
  (Prog.meets_attempt (hm.keep hq) t.steps t.oracles).1

/-- A request leaves every row but its own as it was. -/
theorem attempt_rest (cfg : ConnectConfig) (t : Prog.Try Request Oracle) (m : Machine) :
    rest t.task.row.1 (t.at exec (serve cfg) m).1.db = rest t.task.row.1 m.db :=
  (Prog.meets_attempt
    (meets_keep (serve_concerns cfg t.task)
      (I := fun n => rest t.task.row.1 n.db = rest t.task.row.1 m.db)
      (fun _ o n hc h => (hc.rest o n).trans h) rfl) t.steps t.oracles).1

/-- Where no row of a kind is stored under `k`, its rows are among the rest. -/
theorem rest_kind {db : Db} {k : String} {kind : RequestKind}
    (h : ∀ r, r ∈ db.requests → r.kind = kind → r.requestId ≠ k) :
    (db.requests.filter fun r => r.kind = kind) = (rest k db).filter fun r => r.kind = kind := by
  unfold rest
  rw [List.filter_filter]
  apply List.filter_congr
  intro r hr
  by_cases hkind : r.kind = kind
  · simp [hkind, h r hr hkind]
  · simp [hkind]

/-- In a filed table no approval is stored under an input key. -/
theorem Filed.approvals {db : Db} (h : Filed db) {k : String} (hk : Named k .input) :
    approvalsOf db = (rest k db).filter fun r => r.kind = .approval :=
  rest_kind fun r hr hkind hid => hk.apart (hkind ▸ h.named r hr) hid.symm

/-- Nor an input under what is no input key. -/
theorem Filed.inputs {db : Db} (h : Filed db) {k : String} (hk : ¬Named k .input) :
    inputsOf db = (rest k db).filter fun r => r.kind = .input :=
  rest_kind fun r hr hkind hid => hk (hid ▸ hkind ▸ h.named r hr)

/-- A request whose row is keyed as an input leaves the approvals alone. -/
theorem attempt_approvals {cfg : ConnectConfig} {t : Prog.Try Request Oracle} {m : Machine}
    (hq : t.task.PlainlyNamed) (hk : Named t.task.row.1 .input) (hm : Filed m.db) :
    approvalsOf (t.at exec (serve cfg) m).1.db = approvalsOf m.db := by
  rw [(hm.attempt hq).approvals hk, hm.approvals hk, attempt_rest]

/-- A request whose row is not keyed as an input leaves the inputs alone. -/
theorem attempt_inputs {cfg : ConnectConfig} {t : Prog.Try Request Oracle} {m : Machine}
    (hq : t.task.PlainlyNamed) (hk : ¬Named t.task.row.1 .input) (hm : Filed m.db) :
    inputsOf (t.at exec (serve cfg) m).1.db = inputsOf m.db := by
  rw [(hm.attempt hq).inputs hk, hm.inputs hk, attempt_rest]

/-- A post that is malformed or not authorised is answered at once. -/
theorem inputPost_refused {cfg : ConnectConfig} {p : Post} {r : Response}
    (h : inputFields p = .error r) {t : Prog.Try Request Oracle} (ht : t.task = .inputPost p)
    (m : Machine) : (t.at exec (serve cfg) m).1 = m := by
  have hquiet : (replyInput cfg p).Meets exec 0 (fun _ n => n = m) (fun n => n = m) m := by
    unfold replyInput reply handleInput
    rw [h]
    by_cases hb : bearerOk p cfg.token = true
    · rw [if_pos hb]
      exact ⟨rfl, rfl⟩
    · rw [if_neg hb]
      exact ⟨rfl, rfl⟩
  have hserve : (serve cfg t.task).Meets exec 0 (fun _ n => n = m) (fun n => n = m) m := by
    rw [ht]
    exact Prog.meets_bind (hquiet.mono (fun _ _ hn _ => ⟨hn, hn⟩) fun _ hc => hc)
  exact (Prog.meets_attempt hserve t.steps t.oracles).1

/-- An approval post that is not authorised, is malformed or names no known
workflow is answered at once. -/
theorem replyApproval_refused {cfg : ConnectConfig} {p : Post} {m : Machine}
    (h : bearerOk p cfg.token = false ∨ (∀ id allow, approvalFields p ≠ .ok (id, allow)) ∨
      m.db.getWorkflow p.workflow = none) :
    (replyApproval cfg p).Meets exec 0 (fun _ n => n = m) (fun n => n = m) m := by
  unfold replyApproval reply
  by_cases hb : bearerOk p cfg.token = true
  · rw [if_pos hb]
    have hrest := h.resolve_left fun hno => by simp [hb] at hno
    unfold handleApproval
    cases hf : approvalFields p with
    | error r => exact ⟨rfl, rfl⟩
    | ok fields =>
        obtain ⟨approvalId, allow⟩ := fields
        have hnone := hrest.resolve_left fun hno => hno approvalId allow hf
        refine meets_orInternal (meets_openStore rfl (fun _ => rfl) ?_)
        refine meets_orInternal (p := sql (.selectWorkflow p.workflow))
          (meets_sql rfl (fun _ => rfl) ⟨rfl, ?_⟩)
        have hstep : (Sql.selectWorkflow p.workflow).step m.db = (m.db, .ok none) := by
          rw [Sql.step, hnone]
        rw [hstep]
        exact ⟨rfl, rfl⟩
  · rw [if_neg hb]
    exact ⟨rfl, rfl⟩

/-- Such a post changes nothing. -/
theorem approvalPost_refused {cfg : ConnectConfig} {p : Post} {m : Machine}
    (h : (∀ id allow, approvalFields p ≠ .ok (id, allow)) ∨ m.db.getWorkflow p.workflow = none)
    {t : Prog.Try Request Oracle} (ht : t.task = .approvalPost p) :
    (t.at exec (serve cfg) m).1 = m := by
  have hserve : (serve cfg t.task).Meets exec 0 (fun _ n => n = m) (fun n => n = m) m := by
    rw [ht]
    exact Prog.meets_bind ((replyApproval_refused (.inr h)).mono
      (fun _ _ hn _ => ⟨hn, hn⟩) fun _ hc => hc)
  exact (Prog.meets_attempt hserve t.steps t.oracles).1

theorem approvalPost_row {p : Post} {approvalId : String} {allow : Bool}
    (h : approvalFields p = .ok (approvalId, allow)) :
    (Request.approvalPost p).row.1 = approvalId := by
  change (approvalTarget p).1 = approvalId
  unfold approvalTarget
  rw [h]

/-- What the table keeps apart, and what the next request changes. -/
structure KeptApart (cfg : ConnectConfig) (m : Machine) : Prop where
  oneRow : (m.db.requests.map RequestRow.requestId).Nodup
  named : ∀ r, r ∈ m.db.requests → Named r.requestId r.kind
  keys : ∀ w i w' r, ¬InputLike w' → storageKey w i ≠ namespacedKey w' r
  deliveries : ∀ (t : Prog.Try Request Oracle) w i, t.task = .deliver w i →
    approvalsOf (t.at exec (serve cfg) m).1.db = approvalsOf m.db
  inputPosts : ∀ (t : Prog.Try Request Oracle) p, t.task = .inputPost p →
    approvalsOf (t.at exec (serve cfg) m).1.db = approvalsOf m.db
  approvalPosts : ∀ (t : Prog.Try Request Oracle) p approvalId allow,
    t.task = .approvalPost p → approvalFields p = .ok (approvalId, allow) →
      rest approvalId (t.at exec (serve cfg) m).1.db = rest approvalId m.db
  approvalIds : ∀ (t : Prog.Try Request Oracle) p approvalId allow,
    t.task = .approvalPost p → approvalFields p = .ok (approvalId, allow) →
      (∀ w i, approvalId ≠ storageKey w i) →
      inputsOf (t.at exec (serve cfg) m).1.db = inputsOf m.db
  refusedPosts : ∀ (t : Prog.Try Request Oracle) p, t.task = .approvalPost p →
    (∀ approvalId allow, approvalFields p ≠ .ok (approvalId, allow)) ∨
        m.db.getWorkflow p.workflow = none →
      (t.at exec (serve cfg) m).1.db.requests = m.db.requests

theorem Filed.keptApart {cfg : ConnectConfig} {m : Machine} (h : Filed m.db) :
    KeptApart cfg m where
  oneRow := h.distinct
  named := h.named
  keys _ _ _ _ := keys_differ
  deliveries t w i ht := by
    have hq : t.task.PlainlyNamed := by
      rw [ht]
      trivial
    have hk : Named t.task.row.1 .input := by
      rw [ht]
      exact ⟨w, i, rfl⟩
    exact attempt_approvals hq hk h
  inputPosts t p ht := by
    cases hf : inputFields p with
    | error r => rw [inputPost_refused hf ht m]
    | ok fields =>
        have hq : t.task.PlainlyNamed := by
          rw [ht]
          trivial
        have hk : Named t.task.row.1 .input := by
          rw [ht]
          change Named (inputTarget p).1 .input
          unfold inputTarget
          rw [hf]
          exact ⟨p.workflow, fields.1, rfl⟩
        exact attempt_approvals hq hk h
  approvalPosts t p approvalId allow ht hf := by
    have hrest := attempt_rest cfg t m
    rw [ht, approvalPost_row hf] at hrest
    exact hrest
  approvalIds t p approvalId allow ht hf hid := by
    have hq : t.task.PlainlyNamed := by
      rw [ht]
      trivial
    refine attempt_inputs hq ?_ h
    rw [ht, approvalPost_row hf]
    exact fun ⟨w, i, hkey⟩ => hid w i hkey
  refusedPosts t p ht hrefused := by
    rw [approvalPost_refused hrefused ht]

/-- The machine after requests in order, with no row in the table at first. -/
def afterRequests (cfg : ConnectConfig) (m : Machine) (ts : List (Prog.Try Request Oracle)) :
    Machine :=
  Prog.afterAll exec (serve cfg) { m with db := { m.db with requests := [] } } ts

/-- **Inputs and approvals are kept apart** after any sequence of requests, each
cut short anywhere, in which approvals are requested for plainly named
workflows only. -/
theorem requests_kept_apart (cfg : ConnectConfig) (m : Machine)
    (ts : List (Prog.Try Request Oracle)) (hts : ∀ t, t ∈ ts → t.task.PlainlyNamed) :
    KeptApart cfg (afterRequests cfg m ts) := by
  have hempty : Filed { m.db with requests := [] } :=
    ⟨fun r hr => absurd hr List.not_mem_nil, List.nodup_nil⟩
  have hfiled : Filed (afterRequests cfg m ts).db :=
    Prog.afterAll_keep (I := fun m : Machine => Filed m.db) (fun t ht w hw => hw.attempt (hts t ht)) hempty
  exact hfiled.keptApart

/-- A request served to its end. -/
def whole (q : Request) : Prog.Try Request Oracle := ⟨q, 60, fun _ => {}⟩

/-- A well-formed approval post. -/
def approvalSample (w approvalId : String) : Post where
  headers := [("authorization", "Bearer token"), ("x-request-id", approvalId)]
  workflow := w
  body := .text (some (.obj [("approval_id", .str approvalId), ("allow", .bool true)]))

theorem requests_kept_apart_sample :
    KeptApart sampleConfig (afterRequests sampleConfig {}
      [whole (.createWorkflow "wf-1" .generic "one" none),
        whole (.requestApproval "wf-1" "r1" "phone" "delete" 60000),
        whole (.inputPost (samplePost "wf-1" "in-1")),
        whole (.approvalPost (approvalSample "wf-1" "wf-1:r1"))]) := by
  apply requests_kept_apart
  intro t ht
  simp only [List.mem_cons, List.not_mem_nil, or_false] at ht
  rcases ht with rfl | rfl | rfl | rfl
  · trivial
  · exact fun h => absurd h (by decide)
  · trivial
  · trivial

/-- **An approval of another workflow.**  The approval `r1` of `wf-2` is stored
under `wf-2:r1`; a post to the approvals of `wf-1` that names that id resolves
it. -/
theorem approval_of_another_workflow :
    let before := afterRequests sampleConfig {}
      [whole (.createWorkflow "wf-1" .generic "one" none),
        whole (.createWorkflow "wf-2" .generic "two" none),
        whole (.requestApproval "wf-2" "r1" "phone" "delete" 60000)]
    let after :=
      ((whole (.approvalPost (approvalSample "wf-1" "wf-2:r1"))).at exec (serve sampleConfig)
        before).1
    before.db.requests.map (fun r => (r.workflowId, r.state)) = [("wf-2", .pending)] ∧
      after.db.requests.map (fun r => (r.workflowId, r.state)) = [("wf-2", .resolved)] :=
  ⟨rfl, rfl⟩

end Calcar.Agent
