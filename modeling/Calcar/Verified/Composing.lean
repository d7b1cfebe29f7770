import Calcar.Lib.Decimal
import Calcar.Lib.Segments
import Calcar.Phone.Inputs
import Calcar.Verified.AgentRoutes
import Calcar.Verified.Approvals

/-!
# Composing inputs

An input that is newly composed should be run, whatever was composed before.
The agent remembers the pair of workflow and input id for good, while a view
numbers its inputs from one, so the second view that writes to a workflow
starts with ids the first one has used.

Where each workflow is written to from one view, every id is new: an input is
found among the request rows only if it was posted (`Asked`), and the posts of
a view carry the numbers it has counted (`Phones.Counted`).

## Main results

* `deliver_fresh` — an input without a row is no duplicate.
* `composed_inputs_run` — every sequence of views, posts and retries.
* `second_view_dropped` — what a second view composes is lost.
-/

namespace Calcar.Agent

open Lib

/-! ## Inputs without a row -/

section Fresh

variable {k w i payload : String} {m : Machine} {j : Nat}

theorem held_rest {k k' : String} {db db' : Db} (hk : k' ≠ k) (h : rest k db = rest k db')
    (hheld : Held k' db) : Held k' db' := by
  obtain ⟨r, hr, hid⟩ := hheld
  have hmem : r ∈ rest k db := by
    refine List.mem_filter.mpr ⟨hr, ?_⟩
    rw [hid]
    exact decide_eq_true hk
  rw [h] at hmem
  exact ⟨r, (List.mem_filter.mp hmem).1, hid⟩

/-- Only an insertion gives a request its row. -/
theorem Held.back {s : Sql} {db : Db} (h : Held k (s.step db).1)
    (hs : ∀ id w kind expiresAt now, s ≠ .insertRequest id w kind expiresAt now) :
    Held k db := by
  obtain ⟨f, hf, hmove⟩ := step_moves s db hs
  obtain ⟨r, hr, hid⟩ := h
  rw [hf] at hr
  obtain ⟨r₀, hr₀, hmap⟩ := List.mem_map.mp hr
  have hsame : r.requestId = r₀.requestId := by
    rw [← hmap]
    exact (hmove r₀).requestId
  exact ⟨r₀, hr₀, hsame.symm.trans hid⟩

/-- The errors that `deliver` takes for a duplicate. -/
def StorageError.Over : StorageError → Prop
  | .alreadyResolved _ => True
  | .expired _ => True
  | _ => False

/-- A request without a row is not resolved, and is not over either. -/
theorem resolve_fresh (h : ¬Held k m.db) :
    (resolvePendingRequest k payload).Meets exec j (fun a _ => ∃ e, a = .error e ∧ ¬e.Over)
      (fun _ => True) m := by
  have hsqlite : ∃ e, (Except.error StorageError.sqlite : Except StorageError Unit) = .error e ∧
      ¬e.Over := ⟨_, rfl, id⟩
  refine Prog.meets_bind (meets_now trivial fun t _ => ?_)
  refine meets_andThen (meets_sql trivial (fun _ => hsqlite) ⟨trivial, fun _ => ?_⟩)
  have h₁ : ¬Held k (m.db.updateExpired k t) := fun hheld =>
    h (Held.back (s := .updateExpired k t) hheld nofun)
  have hnone : ((m.db.updateExpired k t).updateResolved k payload t).2 = 0 := by
    unfold Db.updateResolved
    rw [List.countP_eq_zero]
    intro r hr hp
    have hp' : r.requestId = k ∧ r.state = .pending := of_decide_eq_true hp
    exact h₁ ⟨r, hr, hp'.1⟩
  refine meets_andThen (meets_sql trivial (fun _ => hsqlite) ⟨trivial, fun _ => ?_⟩)
  have h₂ : ¬Held k ((m.db.updateExpired k t).updateResolved k payload t).1 := fun hheld =>
    h₁ (Held.back (s := .updateResolved k payload t) hheld nofun)
  show Prog.Meets _ _ _ _ (if ((m.db.updateExpired k t).updateResolved k payload t).2 = 1 then _
    else _) _
  rw [hnone, if_neg (by decide)]
  exact meets_state hsqlite (fun r hr => absurd ⟨r, requestOf_mem hr⟩ h₂) fun _ => ⟨_, rfl, id⟩

theorem confirm_fresh {first : StorageError} (h : ¬Held k m.db) :
    (confirmClaim k first).Meets exec j (fun a _ => a ≠ .ok .duplicate) (fun _ => True) m := by
  refine Prog.meets_bind ((resolve_fresh h).mono (fun a m ha _ => ?_) fun _ _ => trivial)
  obtain ⟨e, rfl, he⟩ := ha
  cases e with
  | alreadyResolved id => exact absurd trivial he
  | expired id => exact absurd trivial he
  | sqlite => exact ⟨trivial, nofun⟩
  | invalidState message => exact ⟨trivial, nofun⟩
  | notFound what => exact ⟨trivial, nofun⟩

/-- A claim that fails leaves no row behind. -/
theorem create_fresh {kind : RequestKind} {expiresAt : Option Int} (h : ¬Held k m.db) :
    (createPendingRequest k w kind expiresAt).Meets exec j
      (fun a m => ∀ e, a = .error e → ¬Held k m.db) (fun _ => True) m := by
  refine meets_andThen (p := sql (.selectWorkflow w))
    (meets_sql trivial (fun _ _ _ => h) ⟨trivial, fun _ => ?_⟩)
  have hstep : (Sql.selectWorkflow w).step m.db = (m.db, .ok (m.db.getWorkflow w)) := rfl
  rw [hstep]
  cases m.db.getWorkflow w with
  | none => exact ⟨trivial, fun _ _ => h⟩
  | some row =>
      refine Prog.meets_bind (meets_now trivial fun t _ => ?_)
      refine meets_sql (C := fun _ => True) trivial (fun _ _ => h) ⟨trivial, ?_⟩
      rw [Sql.step]
      cases m.db.insertRequest k w kind expiresAt t with
      | error e => exact fun _ _ => h
      | ok db' => exact fun e he => by cases he

/-- **An input without a row is no duplicate.** -/
theorem deliver_fresh (h : ¬Held (storageKey w i) m.db) :
    (deliver w i).Meets exec j (fun a _ => a ≠ .ok .duplicate) (fun _ => True) m := by
  unfold deliver
  by_cases hw : w = ""
  · rw [if_pos hw]
    exact ⟨trivial, nofun⟩
  · rw [if_neg hw]
    by_cases hi : i = ""
    · rw [if_pos hi]
      exact ⟨trivial, nofun⟩
    · rw [if_neg hi]
      refine Prog.meets_bind ((create_fresh h).mono (fun a m ha _ => ?_) fun _ _ => trivial)
      cases a with
      | error first => exact confirm_fresh (ha first rfl)
      | ok _ =>
          have hany : (resolvePendingRequest (storageKey w i) "").Meets exec j
              (fun _ _ => True) (fun _ => True) m :=
            meets_keep (Prog.only_of_all (fun _ => trivial) _) (P := fun _ => True)
              (fun _ _ _ _ _ => trivial) trivial
          refine meets_andThen (hany.mono (fun b m _ _ => ?_) fun _ hc => hc)
          cases b with
          | error e => exact nofun
          | ok _ => exact ⟨trivial, nofun⟩

end Fresh

/-! ## The answer to a new input -/

/-- No duplicate, and if it succeeded the command was started. -/
structure Ran (w i : String) (r : Response) (m : Machine) : Prop where
  fresh : ¬r.SaysDuplicate
  started : r.status = 200 → (w, i) ∈ m.started

theorem Ran.error {w i code message : String} {status : Nat} {m : Machine} (h : status ≠ 200) :
    Ran w i (errorBody status code message) m :=
  ⟨errorBody_not_duplicate _ _ _, fun hs => absurd hs h⟩

section Answer

variable {cfg : ConnectConfig} {w i text : String} {destructive : Bool}
  {session : Option String} {m : Machine} {j : Nat}

theorem internalError_ran (e : StorageError) :
    (internalError e).Meets exec j (Ran w i) (fun _ => True) m := by
  have hyields : (internalError e).Yields fun r => ∃ text, r = errorBody 500 "INTERNAL" text :=
    fun _ => ⟨_, rfl⟩
  refine hyields.meets.mono (fun r m hr => ?_) fun _ _ => trivial
  obtain ⟨text, rfl⟩ := hr
  exact .error (by decide)

theorem collectChild_started (timeoutSecs : Nat) (h : (w, i) ∈ m.started) :
    (collectChild timeoutSecs).Meets exec j (fun _ m => (w, i) ∈ m.started) (fun _ => True) m :=
  (meets_keep (collectChild_only timeoutSecs) (I := fun m : Machine => (w, i) ∈ m.started)
    (fun _ o _ hc hm => by rw [hc.notSpawn.started o]; exact hm) h).mono (fun _ _ hm => hm)
      fun _ _ => trivial

/-- A command that ended well was started. -/
theorem runGeneric_started {timeoutSecs : Nat} :
    (runGeneric w i text timeoutSecs).Meets exec j
      (fun ran m => ∀ outcome, ran = .ok outcome → (w, i) ∈ m.started) (fun _ => True) m := by
  unfold runGeneric
  by_cases hb : Text.trimSpace text = ""
  · rw [if_pos hb]
    exact ⟨trivial, nofun⟩
  · rw [if_neg hb]
    refine Prog.meets_bind (meets_perform trivial fun o => ⟨trivial, fun _ => ?_⟩)
    have hstarted : (w, i) ∈ ((Cmd.spawn w i text).run o m).1.started :=
      List.mem_append_right m.started (List.mem_singleton_self (w, i))
    cases ((Cmd.spawn w i text).run o m).2 with
    | error e => exact ⟨trivial, nofun⟩
    | ok _ =>
        exact (collectChild_started timeoutSecs hstarted).mono
          (fun _ _ (hm : (w, i) ∈ _) _ _ => hm) fun _ hc => hc

theorem executeInput_ran :
    (executeInput cfg w i text destructive session).Meets exec j (Ran w i) (fun _ => True) m := by
  refine Prog.meets_bind (runGeneric_started.mono (fun ran m hran _ => ?_) fun _ _ => trivial)
  match ran with
  | .error .timeout => exact ⟨trivial, .error (by decide)⟩
  | .error (.spawn _) => exact ⟨trivial, .error (by decide)⟩
  | .error (.join _) => exact ⟨trivial, .error (by decide)⟩
  | .ok outcome =>
      have hstarted : (w, i) ∈ m.started := hran outcome rfl
      have hkeep : (recordInput w i destructive session outcome).Meets exec j
          (fun _ m => (w, i) ∈ m.started) (fun m => (w, i) ∈ m.started) m :=
        meets_keep (recordInput_only w i destructive session outcome)
          (I := fun m : Machine => (w, i) ∈ m.started)
          (fun _ o _ hc hm => by rw [hc.notSpawn.started o]; exact hm) hstarted
      exact (hkeep.and (recordInput_yields w i destructive session outcome).meets).mono
        (fun r m hr => ⟨hr.2.2, fun _ => hr.1⟩) fun _ _ => trivial

theorem routeInput_ran (h : ¬Held (storageKey w i) m.db) :
    (routeInput cfg w i text destructive session).Meets exec j (Ran w i) (fun _ => True) m := by
  refine meets_orInternal (meets_openStore trivial (fun _ => .error (by decide)) ?_)
  refine Prog.meets_bind ((deliver_fresh h).mono (fun a m ha _ => ?_) fun _ _ => trivial)
  match a, ha with
  | .error (.notFound _), _ => exact ⟨trivial, .error (by decide)⟩
  | .error (.invalidState _), _ => exact ⟨trivial, .error (by decide)⟩
  | .error .sqlite, _ => exact internalError_ran _
  | .error (.alreadyResolved _), _ => exact internalError_ran _
  | .error (.expired _), _ => exact internalError_ran _
  | .ok .duplicate, ha => exact absurd rfl ha
  | .ok .delivered, _ => exact executeInput_ran

theorem interactiveInput_ran :
    (interactiveInput w).Meets exec j (Ran w i) (fun _ => True) m := by
  have hyields : ∀ bound, Ran w i (jsonStatus 501 (.obj [("code", .str "CONPTY_UNAVAILABLE"),
      ("message", .str "interactive input needs ConPTY, which is not green"),
      ("workflow_id", .str w), ("has_binding", .bool bound)])) m := fun bound =>
    ⟨by simp [Response.SaysDuplicate, jsonStatus, Value.strField, Value.field],
      fun hs => by simp [jsonStatus] at hs⟩
  refine meets_orInternal (meets_openStore trivial (fun _ => .error (by decide)) ?_)
  exact Prog.meets_bind (p := sql (.selectBinding w))
    (meets_sql trivial (fun _ => ⟨trivial, hyields _⟩) ⟨trivial, fun _ => ⟨trivial, hyields _⟩⟩)

end Answer

/-- What the checks of the fields refuse, they refuse with an error body. -/
theorem inputFields_error {p : Post} {r : Response} (h : inputFields p = .error r) :
    ∃ status code message, status ≠ 200 ∧ r = errorBody status code message := by
  have hobject : ∀ b r, bodyObject b = .error r →
      ∃ status code message, status ≠ 200 ∧ r = errorBody status code message := by
    intro b r hb
    unfold bodyObject at hb
    split at hb
    · exact ⟨413, _, _, by decide, (Except.error.inj hb).symm⟩
    · exact ⟨400, _, _, by decide, (Except.error.inj hb).symm⟩
    · exact ⟨400, _, _, by decide, (Except.error.inj hb).symm⟩
    · cases hb
    · exact ⟨400, _, _, by decide, (Except.error.inj hb).symm⟩
  unfold inputFields at h
  split at h
  · rename_i hb
    rw [← Except.error.inj h]
    exact hobject _ _ hb
  · split at h
    · split at h
      · exact ⟨400, _, _, by decide, (Except.error.inj h).symm⟩
      · split at h
        · exact ⟨400, _, _, by decide, (Except.error.inj h).symm⟩
        · split at h
          · exact ⟨400, _, _, by decide, (Except.error.inj h).symm⟩
          · cases h
    · exact ⟨400, _, _, by decide, (Except.error.inj h).symm⟩

/-- An input that passes the checks has an id in the alphabet. -/
theorem inputFields_id {p : Post} {i text : String} {destructive : Bool}
    (h : inputFields p = .ok (i, text, destructive)) : checkInputId i = true := by
  unfold inputFields at h
  split at h
  · cases h
  · split at h
    · split at h
      · cases h
      · split at h
        · cases h
        · split at h
          · cases h
          · rename_i hid _
            cases h
            simpa using hid
    · cases h

/-- **A post of an input without a row** is answered by no duplicate, and by
200 only if its command was started. -/
theorem handleInput_ran {cfg : ConnectConfig} {p : Post} {i : String} {m : Machine} {j : Nat}
    (hid : ∀ i' text destructive, inputFields p = .ok (i', text, destructive) → i' = i)
    (h : ¬Held (storageKey p.workflow i) m.db) :
    (handleInput cfg p).Meets exec j (Ran p.workflow i) (fun _ => True) m := by
  unfold handleInput
  cases hf : inputFields p with
  | error r =>
      obtain ⟨status, code, message, hstatus, rfl⟩ := inputFields_error hf
      exact ⟨trivial, .error hstatus⟩
  | ok fields =>
      obtain ⟨inputId, text, destructive⟩ := fields
      have hsame : inputId = i := hid inputId text destructive hf
      subst hsame
      refine meets_orInternal (meets_openStore trivial (fun _ => .error (by decide)) ?_)
      refine meets_orInternal (p := sql (.selectWorkflow p.workflow))
        (meets_sql trivial (fun _ => .error (by decide)) ⟨trivial, ?_⟩)
      have hstep : (Sql.selectWorkflow p.workflow).step m.db =
          (m.db, .ok (m.db.getWorkflow p.workflow)) := rfl
      rw [hstep]
      cases m.db.getWorkflow p.workflow with
      | none => exact ⟨trivial, .error (by decide)⟩
      | some row =>
          by_cases hprov : Provider.fromI32 row.provider ≠ some .generic
          · simp only [if_pos hprov]
            exact interactiveInput_ran
          · simp only [if_neg hprov]
            exact routeInput_ran h

theorem replyInput_ran {cfg : ConnectConfig} {p : Post} {i : String} {m : Machine} {j : Nat}
    (hid : ∀ i' text destructive, inputFields p = .ok (i', text, destructive) → i' = i)
    (h : ¬Held (storageKey p.workflow i) m.db) :
    (replyInput cfg p).Meets exec j (Ran p.workflow i) (fun _ => True) m := by
  unfold replyInput reply
  by_cases hb : bearerOk p cfg.token = true
  · rw [if_pos hb]
    exact handleInput_ran hid h
  · rw [if_neg hb]
    exact ⟨trivial, nofun, nofun⟩

theorem serveInput_ran {cfg : ConnectConfig} {p : Post} {i : String} {m : Machine}
    (hid : ∀ i' text destructive, inputFields p = .ok (i', text, destructive) → i' = i)
    (h : ¬Held (storageKey p.workflow i) m.db) :
    (serveInput cfg (.post p)).Meets exec 0 (fun a m => ∀ r, a = some r → Ran p.workflow i r m)
      (fun _ => True) m := by
  refine Prog.meets_bind ((replyInput_ran hid h).mono (fun r m hr _ => ⟨trivial, ?_⟩)
    fun _ hc => hc)
  intro r' hr'
  rw [← Option.some.inj hr']
  exact hr

/-! ## The keys of inputs -/

/-! ## What a post comes to that goes well -/

section Starts

variable {α : Type} {cfg : ConnectConfig} {w i text : String} {destructive : Bool}
  {session : Option String} {m : Machine} {n : Nat}

/-- Within so many commands that go well the command of the input is started. -/
def Starts (w i : String) (n : Nat) (p : Code α) (m : Machine) : Prop :=
  p.Reaches exec 0 Works (fun m => (w, i) ∈ m.started) n m

/-- No command is forgotten. -/
theorem started_kept (c : Cmd) (o : Oracle) {m : Machine} {x : String × String}
    (h : x ∈ m.started) : x ∈ (c.run o m).1.started := by
  by_cases hc : NotSpawn c
  · rw [hc.started]
    exact h
  · cases c with
    | spawn w i text => exact List.mem_append_left [(w, i)] h
    | _ => exact absurd trivial hc

theorem starts_call {c : Cmd} {k : c.Ans → Code α}
    (h : ∀ o, Works o → Starts w i n (k (c.run o m).2) (c.run o m).1) :
    Starts w i (n + 1) (.call c k) m :=
  .inr fun o ho => ⟨_, _, rfl, h o ho⟩

theorem starts_sql {s : Sql} {f : Except StorageError s.Ret → Code α} {db : Db}
    {a : Except StorageError s.Ret} (hs : s.step m.db = (db, a))
    (h : Starts w i n (f a) { m with db := db }) : Starts w i (n + 1) (sql s >>= f) m := by
  refine starts_call (c := .sql s) fun o ho => ?_
  rw [ho.sql, hs]
  exact h

theorem starts_now {f : Int → Code α} (h : ∀ t, Starts w i n (f t) m) :
    Starts w i (n + 1) (now >>= f) m :=
  starts_call (c := .now) fun o _ => h o.clock

theorem starts_openStore {f : Unit → Code Response} (h : Starts w i n (f ()) m) :
    Starts w i (n + 1) (orInternal openStore f) m := by
  refine starts_call (c := .openStore) fun o ho => ?_
  rw [ho.openStore]
  exact h

/-- A claim that was just made is the one that is resolved. -/
theorem claimed_once {k payload : String} {db : Db} (h : ¬Held k db) {row : RequestRow}
    (hid : row.requestId = k) (hstate : row.state = .pending) (hexp : row.expiresAtMillis = none)
    (t t' : Int) :
    (({ db with requests := db.requests ++ [row] }.updateExpired k t).updateResolved k payload
      t').2 = 1 := by
  have hold : (db.requests.map fun r =>
      if r.requestId = k then if r.overdue t then { r with state := .expired } else r
      else r).countP (fun r => r.requestId = k ∧ r.state = .pending) = 0 := by
    rw [List.countP_eq_zero]
    intro r hr hp
    obtain ⟨r₀, hr₀, rfl⟩ := List.mem_map.mp hr
    have hne : r₀.requestId ≠ k := fun hid => h ⟨r₀, hr₀, hid⟩
    rw [if_neg hne] at hp
    exact hne (of_decide_eq_true hp).1
  have hdue : row.overdue t = false := by simp [RequestRow.overdue, hexp]
  show ((db.requests ++ [row]).map _).countP _ = 1
  rw [List.map_append, List.countP_append, hold]
  simp [hid, hstate, hdue]

/-- **A new input is delivered** by a router whose calls go well. -/
theorem starts_deliver {f : Except StorageError RouteOutcome → Code α} (hw : w ≠ "")
    (hi : i ≠ "") (hknown : (m.db.getWorkflow w).isSome = true)
    (hfresh : ¬Held (storageKey w i) m.db)
    (h : ∀ db, Starts w i n (f (.ok .delivered)) { m with db := db }) :
    Starts w i (n + 6) (deliver w i >>= f) m := by
  obtain ⟨row, hrow⟩ := Option.isSome_iff_exists.mp hknown
  have hfree : m.db.requestOf (storageKey w i) = none := requestOf_eq_none.mpr hfresh
  unfold deliver
  rw [if_neg hw, if_neg hi]
  have hread : (Sql.selectWorkflow w).step m.db = (m.db, .ok (some row)) := by
    rw [Sql.step, hrow]
  refine starts_sql hread (starts_now fun t => ?_)
  have hinsert : (Sql.insertRequest (storageKey w i) w .input none t).step m.db =
      ({ m.db with requests := m.db.requests ++ [⟨storageKey w i, w, .input, .pending, t, none,
        none, none⟩] }, .ok ()) := by
    simp [Sql.step, Db.insertRequest, hrow, hfree, Sql.wrote]
  refine starts_sql hinsert (starts_now fun t' => ?_)
  refine starts_sql (s := .updateExpired (storageKey w i) t') rfl ?_
  have hdone : ∀ db : Db, (db.updateResolved (storageKey w i) "" t').2 = 1 →
      (Sql.updateResolved (storageKey w i) "" t').step db =
        ((db.updateResolved (storageKey w i) "" t').1, .ok (1 : Nat)) := by
    intro db hcount
    rw [Sql.step, hcount]
  exact starts_sql (hdone _ (claimed_once hfresh rfl rfl rfl t' t')) (h _)

theorem starts_executeInput (hbody : Text.trimSpace text ≠ "") :
    Starts w i 1 (executeInput cfg w i text destructive session) m := by
  unfold executeInput runGeneric
  rw [if_neg hbody]
  refine starts_call (c := .spawn w i text) fun o _ => .here ?_
  exact List.mem_append_right m.started (List.mem_singleton_self (w, i))

/-- **A new input to a generic workflow is started** if nothing fails before. -/
theorem starts_handleInput {p : Post} (hfields : inputFields p = .ok (i, text, destructive))
    (hbody : Text.trimSpace text ≠ "") (hw : p.workflow ≠ "") {row : WorkflowRow}
    (hrow : m.db.getWorkflow p.workflow = some row)
    (hgeneric : Provider.fromI32 row.provider = some .generic)
    (hfresh : ¬Held (storageKey p.workflow i) m.db) :
    Starts p.workflow i 10 (handleInput cfg p) m := by
  have hi : i ≠ "" := by
    rintro rfl
    have hid := inputFields_id hfields
    cases hid
  unfold handleInput
  rw [hfields]
  refine starts_openStore ?_
  have hread : (Sql.selectWorkflow p.workflow).step m.db = (m.db, .ok (some row)) := by
    rw [Sql.step, hrow]
  refine starts_sql hread ?_
  simp only [hgeneric]
  show Starts p.workflow i 8 (if _ then _ else _) m
  rw [if_neg (not_not_intro rfl)]
  refine starts_openStore ?_
  refine starts_deliver hw hi (by rw [hrow]; rfl) hfresh fun db => ?_
  exact starts_executeInput hbody

end Starts

/-- No letter, digit, dash or underscore is a space. -/
theorem alphabet_not_space {c : Char} (h : (c.isAlphanum || c == '-' || c == '_') = true) :
    Text.isSpace c = false := by
  simp only [Bool.or_eq_true, beq_iff_eq] at h
  obtain (halphanum | rfl) | rfl := h
  · have hrange := Phone.Uri.alphanum_range halphanum
    have hnot : ¬Text.isSpace c = true := by
      simp only [Text.isSpace, Bool.or_eq_true, Bool.and_eq_true, decide_eq_true_eq, beq_iff_eq]
      omega
    simpa using hnot
  · decide
  · decide

theorem checkInputId_trim {i : String} (h : checkInputId i = true) : Text.trimSpace i = i := by
  unfold checkInputId at h
  simp only [Bool.and_eq_true, List.all_eq_true] at h
  exact Text.trimSpace_self fun c hc => alphabet_not_space (h.2 c hc)

theorem checkInputId_colon {i : String} (h : checkInputId i = true) : ':' ∉ i.toList := by
  unfold checkInputId at h
  simp only [Bool.and_eq_true, List.all_eq_true] at h
  intro hmem
  exact absurd (h.2 ':' hmem) (by decide)

/-- **No two inputs share a key** if there is no colon in their ids. -/
theorem storageKey_inj {w i w' i' : String} (hi : ':' ∉ i.toList) (hi' : ':' ∉ i'.toList)
    (h : storageKey w i = storageKey w' i') : w = w' ∧ i = i' := by
  have hlist : ("input:" ++ w).toList ++ ':' :: i.toList =
      ("input:" ++ w').toList ++ ':' :: i'.toList := by
    have htext := congrArg String.toList h
    have hcolon : ":".toList = [':'] := rfl
    simpa only [storageKey, String.toList_append, List.append_assoc, hcolon,
      List.singleton_append] using htext
  obtain ⟨hw, hid⟩ := append_cons_cancel hi hi' hlist
  rw [String.toList_append, String.toList_append] at hw
  exact ⟨String.toList_inj.mp (List.append_cancel_left hw), String.toList_inj.mp hid⟩

end Calcar.Agent

namespace Calcar.Phone

open Agent Lib

/-! ## The ids a view mints -/

theorem inputIdOf_inj {w : String} {n n' : Nat} (h : inputIdOf w n = inputIdOf w n') : n = n' := by
  have hdigits : (toString n).toList = (toString n').toList := by
    have htext := congrArg String.toList h
    simp only [inputIdOf, String.toList_append] at htext
    exact List.append_cancel_left htext
  rw [nat_text, nat_text] at hdigits
  exact toDigits_inj hdigits

/-- The alphabet of `check_input_id`. -/
def InAlphabet (s : String) : Prop := ∀ c ∈ s.toList, c.isAlphanum ∨ c = '-' ∨ c = '_'

theorem inputIdOf_colon {w : String} (h : InAlphabet w) (n : Nat) :
    ':' ∉ (inputIdOf w n).toList := by
  intro hmem
  simp only [inputIdOf, String.toList_append, List.mem_append] at hmem
  rcases hmem with (hw | hin) | hdigit
  · exact absurd (h ':' hw) (by decide)
  · exact absurd hin (by decide)
  · rw [nat_text] at hdigit
    exact absurd (toDigits_isDigit hdigit) (by decide)

/-- The id of a message, if the workflow is named in the alphabet of input ids. -/
theorem inputIdOf_check {w : String} {n : Nat} (h : InAlphabet w)
    (hsize : (inputIdOf w n).utf8ByteSize ≤ 128) : checkInputId (inputIdOf w n) = true := by
  have hmem : ∀ c ∈ (inputIdOf w n).toList, (c.isAlphanum || c == '-' || c == '_') = true := by
    intro c hc
    simp only [inputIdOf, String.toList_append, List.mem_append] at hc
    obtain (hw | hin) | hdigit := hc
    · simpa [Bool.or_eq_true, or_assoc] using h c hw
    · have hall : ∀ c ∈ "-in".toList, (c.isAlphanum || c == '-' || c == '_') = true :=
        List.all_eq_true.mp (by decide)
      exact hall c hin
    · rw [nat_text] at hdigit
      have hd := toDigits_isDigit hdigit
      simp [Char.isAlphanum, hd]
  have hne : inputIdOf w n ≠ "" := by
    intro he
    have hlist := congrArg String.toList he
    simp [inputIdOf] at hlist
  unfold checkInputId
  simp only [hsize, hne, ne_eq, not_false_eq_true, decide_true, Bool.true_and, List.all_eq_true]
  exact hmem

/-- A workflow named in that alphabet is named plainly. -/
theorem plainId_alphabet {w : String} (h : InAlphabet w) : PlainId w where
  chars c hc := by
    refine ⟨?_, ?_, ?_, ?_⟩ <;> rintro rfl <;> exact absurd (h _ hc) (by decide)
  dots := by
    refine ⟨?_, ?_⟩ <;> rintro rfl <;> exact absurd (h '.' (by decide)) (by decide)
  escapes := by
    rintro ⟨before, hi, lo, rest, heq, -, -⟩
    have hmem : '%' ∈ w.toList := by simp [heq]
    exact absurd (h '%' hmem) (by decide)

/-- **The post of an input** reaches the inputs of its workflow. -/
theorem postInput_served {w : String} (h : InAlphabet w) (hne : w ≠ "") :
    (AgentCall.postInput w).served = .input w :=
  (AgentCall.served_iff (by simpa [AgentCall.ids] using hne)).mpr
    (by simpa [AgentCall.ids] using plainId_alphabet h)

/-- Every post carries a number its view has counted to. -/
def Phones.Counted (p : Phones) : Prop :=
  ∀ o ∈ p.posted, ∃ (n : Nat) (view : WorkflowView) (c : Nat), p.views[n]? = some view ∧
    view.workflowId = o.workflowId ∧ 1 ≤ c ∧ c ≤ view.inputCount ∧
      o.inputId = inputIdOf o.workflowId c

/-- The views that wrote to a workflow. -/
def Writes (actions : List Action) (w : String) (view : Nat) : Prop :=
  (∃ body destructive, Action.send view body destructive ∈ actions) ∧
    (Phones.after actions).views[view]?.map WorkflowView.workflowId = some w

/-- Each workflow is written to from one view at most. -/
def OneWriter (actions : List Action) : Prop :=
  ∀ w view view', Writes actions w view → Writes actions w view' → view = view'

/-- What the chat of a workflow offers to send again was sent to it before. -/
def ChatShowsPosts (actions : List Action) : Prop :=
  ∀ before view chat messageId, before ++ [.retry view chat messageId] <+: actions →
    ∀ message ∈ chat, ∃ o ∈ (Phones.after before).posted,
      (Phones.after before).views[view]?.map WorkflowView.workflowId = some o.workflowId ∧
        o.inputId = message.messageId

theorem Phones.after_append (actions : List Action) (a : Action) :
    Phones.after (actions ++ [a]) = (Phones.after actions).act a := by
  unfold Phones.after
  rw [List.foldl_append]
  rfl

/-- An action moves a view's count up or leaves it, and never its workflow. -/
theorem viewsAfter_get {p : Phones} {a : Action} {n : Nat} {view : WorkflowView}
    (h : p.views[n]? = some view) :
    ∃ view', (p.viewsAfter a)[n]? = some view' ∧ view'.workflowId = view.workflowId ∧
      view.inputCount ≤ view'.inputCount := by
  cases a with
  | mount w =>
      refine ⟨view, ?_, rfl, Nat.le_refl _⟩
      have hlt : n < p.views.length := (List.getElem?_eq_some_iff.mp h).1
      exact (List.getElem?_append_left hlt).trans h
  | send m body destructive =>
      by_cases hm : m = n
      · refine ⟨(view.sendMessage body destructive).1, ?_, rfl, Nat.le_succ _⟩
        unfold Phones.viewsAfter
        rw [hm, List.getElem?_modify_eq, h]
        rfl
      · refine ⟨view, ?_, rfl, Nat.le_refl _⟩
        unfold Phones.viewsAfter
        rw [List.getElem?_modify_ne _ _ hm]
        exact h
  | retry m chat messageId => exact ⟨view, h, rfl, Nat.le_refl _⟩
  | restart => exact ⟨view, h, rfl, Nat.le_refl _⟩

theorem Phones.outgoing_view {p : Phones} {a : Action} {o : Outgoing} (h : p.outgoing a = some o) :
    (∃ (n : Nat) (body : String) (destructive : Bool) (view : WorkflowView),
      a = .send n body destructive ∧ p.views[n]? = some view ∧
        o = (view.sendMessage body destructive).2) ∨
    ∃ (n : Nat) (chat : List BufferedChat) (messageId : String) (view : WorkflowView),
      a = .retry n chat messageId ∧ p.views[n]? = some view ∧
        view.retryMessage chat messageId = some o := by
  cases a with
  | mount w => cases h
  | send n body destructive =>
      obtain ⟨view, hview, ho⟩ := Option.map_eq_some_iff.mp h
      exact .inl ⟨n, body, destructive, view, rfl, hview, ho.symm⟩
  | retry n chat messageId =>
      obtain ⟨view, hview, ho⟩ := Option.bind_eq_some_iff.mp h
      exact .inr ⟨n, chat, messageId, view, rfl, hview, ho⟩
  | restart => cases h

/-- A retry posts a message of the chat, for the workflow of its view. -/
theorem WorkflowView.retryMessage_shown {view : WorkflowView} {chat : List BufferedChat}
    {messageId : String} {o : Outgoing} (h : view.retryMessage chat messageId = some o) :
    o.workflowId = view.workflowId ∧ ∃ message ∈ chat, message.messageId = o.inputId := by
  obtain ⟨message, hmem, rfl⟩ := Option.map_eq_some_iff.mp h
  have hid : message.messageId = messageId := by simpa using List.find?_some hmem
  exact ⟨rfl, message, List.mem_of_find?_eq_some hmem, hid⟩

/-- **What a view posts it has counted**, and what it posts again was posted. -/
theorem Phones.Counted.act {p : Phones} (h : p.Counted) {a : Action}
    (hretry : ∀ view chat messageId, a = .retry view chat messageId → ∀ message ∈ chat,
      ∃ o ∈ p.posted, p.views[view]?.map WorkflowView.workflowId = some o.workflowId ∧
        o.inputId = message.messageId) : (p.act a).Counted := by
  have hold : ∀ o ∈ p.posted, ∃ (n : Nat) (view : WorkflowView) (c : Nat),
      (p.act a).views[n]? = some view ∧ view.workflowId = o.workflowId ∧ 1 ≤ c ∧
        c ≤ view.inputCount ∧ o.inputId = inputIdOf o.workflowId c := by
    intro o ho
    obtain ⟨n, view, c, hview, hw, hpos, hle, hid⟩ := h o ho
    obtain ⟨view', hview', hw', hle'⟩ := viewsAfter_get (a := a) hview
    exact ⟨n, view', c, hview', hw'.trans hw, hpos, Nat.le_trans hle hle', hid⟩
  intro o ho
  rcases List.mem_append.mp ho with ho | ho
  · exact hold o ho
  · rcases Phones.outgoing_view (Option.mem_toList.mp ho) with
      ⟨n, body, destructive, view, rfl, hview, rfl⟩ | ⟨n, chat, messageId, view, rfl, hview, hsent⟩
    · refine ⟨n, (view.sendMessage body destructive).1, view.inputCount + 1, ?_, rfl, by omega,
        Nat.le_refl _, rfl⟩
      show (p.views.modify n fun v => (v.sendMessage body destructive).1)[n]? = _
      rw [List.getElem?_modify_eq, hview]
      rfl
    · obtain ⟨hw, message, hmem, hid⟩ := WorkflowView.retryMessage_shown hsent
      obtain ⟨o₀, ho₀, hw₀, hid₀⟩ := hretry n chat messageId rfl message hmem
      obtain ⟨n', view', c, hview', hw', hpos, hle, hidc⟩ := hold o₀ ho₀
      rw [hview, Option.map_some, Option.some.injEq] at hw₀
      have hsame : o.workflowId = o₀.workflowId := hw.trans hw₀
      refine ⟨n', view', c, hview', hw'.trans hsame.symm, hpos, hle, ?_⟩
      rw [hsame, ← hid, ← hid₀]
      exact hidc

/-- Runs grow at the end. -/
theorem snoc_induction {α : Type} {P : List α → Prop} (hnil : P [])
    (hsnoc : ∀ l a, P l → P (l ++ [a])) (l : List α) : P l := by
  have hreverse : ∀ l : List α, P l.reverse := by
    intro l
    induction l with
    | nil => exact hnil
    | cons a l ih =>
        rw [List.reverse_cons]
        exact hsnoc l.reverse a ih
  rw [← List.reverse_reverse l]
  exact hreverse l.reverse

theorem ChatShowsPosts.initial {actions : List Action} {a : Action}
    (h : ChatShowsPosts (actions ++ [a])) : ChatShowsPosts actions :=
  fun before view chat messageId hbefore =>
    h before view chat messageId (hbefore.trans (List.prefix_append actions [a]))

theorem counted_after {actions : List Action} (h : ChatShowsPosts actions) :
    (Phones.after actions).Counted := by
  induction actions using snoc_induction with
  | hnil => exact fun o ho => absurd ho List.not_mem_nil
  | hsnoc actions a ih =>
      rw [Phones.after_append]
      refine (ih h.initial).act fun view chat messageId ha message hmem => ?_
      exact h actions view chat messageId (ha ▸ List.prefix_refl _) message hmem

/-- A view that has counted wrote something. -/
theorem counted_writes {actions : List Action} {n : Nat} {view : WorkflowView}
    (h : (Phones.after actions).views[n]? = some view) (hpos : 0 < view.inputCount) :
    Writes actions view.workflowId n := by
  refine ⟨?_, by rw [h]; rfl⟩
  induction actions using snoc_induction generalizing view with
  | hnil => cases h
  | hsnoc actions a ih =>
      rw [Phones.after_append] at h
      have hlater : (∃ view₀, (Phones.after actions).views[n]? = some view₀ ∧
          view₀.inputCount = view.inputCount) →
          ∃ body destructive, Action.send n body destructive ∈ actions ++ [a] := by
        rintro ⟨view₀, hview₀, hcount⟩
        obtain ⟨body, destructive, hmem⟩ := ih hview₀ (hcount ▸ hpos)
        exact ⟨body, destructive, List.mem_append_left [a] hmem⟩
      cases a with
      | mount w =>
          change ((Phones.after actions).views ++ [{ workflowId := w }])[n]? = some view at h
          by_cases hn : n < (Phones.after actions).views.length
          · rw [List.getElem?_append_left hn] at h
            exact hlater ⟨view, h, rfl⟩
          · rw [List.getElem?_append_right (by omega)] at h
            have hview := List.mem_singleton.mp (List.mem_of_getElem? h)
            rw [hview] at hpos
            cases hpos
      | send m body destructive =>
          by_cases hm : m = n
          · rw [hm]
            exact ⟨body, destructive, List.mem_append_right actions (List.mem_singleton_self _)⟩
          · change ((Phones.after actions).views.modify m _)[n]? = some view at h
            rw [List.getElem?_modify_ne _ _ hm] at h
            exact hlater ⟨view, h, rfl⟩
      | retry m chat messageId => exact hlater ⟨view, h, rfl⟩
      | restart => exact hlater ⟨view, h, rfl⟩

/-! ## The phones and their agent -/

/-- What becomes of a post: how its body is read, how far the agent gets with
it, and what the agent meets on the way.  A post that is lost is one the agent
makes no step for. -/
structure Fate where
  reading : Reading := .whole
  steps : Nat
  oracles : Nat → Oracle

/-- What reaches the agent of an action. -/
def Phones.arrival (p : Phones) (token : String) (a : Action) (reading : Reading) :
    Option Arrival :=
  match a with
  | .restart => some .restart
  | a => (p.outgoing a).map fun o => .post (postInput token o reading)

/-- The agent's side of an arrival. -/
def Fate.meet (cfg : ConnectConfig) (f : Fate) (x : Arrival) (m : Machine) :
    Machine × Option (Option Response) :=
  (⟨x, f.steps, f.oracles⟩ : Prog.Try Arrival Oracle).at exec (serveInput cfg) m

/-- All phones and the agent. -/
structure Scene where
  phones : Phones := {}
  agent : Machine

namespace Scene

/-- One action, and what becomes of its post. -/
def step (cfg : ConnectConfig) (token : String) (s : Scene) (e : Action × Fate) : Scene where
  phones := s.phones.act e.1
  agent :=
    match s.phones.arrival token e.1 e.2.reading with
    | none => s.agent
    | some x => (e.2.meet cfg x s.agent).1

/-- The answer to the post of an action. -/
def answer (cfg : ConnectConfig) (token : String) (s : Scene) (e : Action × Fate) :
    Option Response :=
  (s.phones.arrival token e.1 e.2.reading).bind fun x => (e.2.meet cfg x s.agent).2.join

/-- The scene after a plan, with the list of started commands empty at first. -/
def after (cfg : ConnectConfig) (token : String) (m : Machine) (plan : List (Action × Fate)) :
    Scene :=
  plan.foldl (step cfg token) { agent := { m with started := [] } }

variable {cfg : ConnectConfig} {token : String} {m : Machine} {plan : List (Action × Fate)}

theorem after_append (e : Action × Fate) :
    after cfg token m (plan ++ [e]) = (after cfg token m plan).step cfg token e := by
  unfold after
  rw [List.foldl_append]
  rfl

theorem arrival_post {p : Phones} {a : Action} {o : Outgoing} {reading : Reading}
    (ha : a ≠ .restart) (ho : p.outgoing a = some o) :
    p.arrival token a reading = some (.post (postInput token o reading)) := by
  unfold Phones.arrival
  split
  · exact absurd rfl ha
  · rw [ho, Option.map_some]

/-- The agent after the post of an action, or after none. -/
theorem step_post {s : Scene} {a : Action} {f : Fate} {o : Outgoing} (ha : a ≠ .restart)
    (ho : s.phones.outgoing a = some o) :
    (s.step cfg token (a, f)).agent =
      (f.meet cfg (.post (postInput token o f.reading)) s.agent).1 := by
  unfold step
  rw [arrival_post ha ho]

theorem answer_post {s : Scene} {a : Action} {f : Fate} {o : Outgoing} (ha : a ≠ .restart)
    (ho : s.phones.outgoing a = some o) :
    s.answer cfg token (a, f) =
      (f.meet cfg (.post (postInput token o f.reading)) s.agent).2.join := by
  unfold answer
  rw [arrival_post ha ho]
  rfl

theorem step_silent {s : Scene} {a : Action} {f : Fate} (ha : a ≠ .restart)
    (ho : s.phones.outgoing a = none) : (s.step cfg token (a, f)).agent = s.agent := by
  have harrival : s.phones.arrival token a f.reading = none := by
    unfold Phones.arrival
    split
    · exact absurd rfl ha
    · rw [ho, Option.map_none]
  unfold step
  rw [harrival]

theorem after_phones :
    (after cfg token m plan).phones = Phones.after (plan.map Prod.fst) := by
  induction plan using snoc_induction with
  | hnil => rfl
  | hsnoc plan e ih =>
      rw [after_append, List.map_append, List.map_singleton, Phones.after_append, ← ih]
      rfl

/-- What arrivals keep, the plan keeps. -/
theorem after_keep {I : Machine → Prop} (hstart : I { m with started := [] })
    (hstep : ∀ f x m, I m → I (Fate.meet cfg f x m).1) : I (after cfg token m plan).agent := by
  induction plan using snoc_induction with
  | hnil => exact hstart
  | hsnoc plan e ih =>
      rw [after_append]
      unfold step
      cases (after cfg token m plan).phones.arrival token e.1 e.2.reading with
      | none => exact ih
      | some x => exact hstep e.2 x _ ih

theorem after_latched : Latched (after cfg token m plan).agent := by
  refine after_keep ?_ fun f x m hm => ?_
  · exact ⟨fun p => Nat.zero_le 1, fun p hp => absurd hp List.not_mem_nil⟩
  · exact (Prog.meets_attempt (serveInput_latched x hm) f.steps f.oracles).1

end Scene

/-! ## Inputs that have a row were posted -/

/-- An input has a row only if it was posted. -/
def Asked (posted : List Outgoing) (db : Db) : Prop :=
  ∀ w i, ':' ∉ i.toList → Held (storageKey w i) db →
    ∃ o ∈ posted, o.workflowId = w ∧ o.inputId = i

/-- The id the agent reads is the one the phone wrote. -/
theorem postInput_id {token : String} {o : Outgoing} {reading : Reading} {i text : String}
    {destructive : Bool}
    (h : inputFields (postInput token o reading) = .ok (i, text, destructive)) :
    i = o.inputId := by
  cases reading with
  | unreadable => cases h
  | tooLarge => cases h
  | whole =>
      have hfields : inputFields (postInput token o .whole) =
          if requestIdOf (postInput token o .whole) ≠ some o.inputId then
            .error (errorBody 400 "MALFORMED" "X-Request-ID must equal input_id")
          else if ¬checkInputId o.inputId then
            .error (errorBody 400 "MALFORMED" "input_id uses an unsafe alphabet")
          else if o.body = "" then .error (errorBody 400 "MALFORMED" "body must not be empty")
          else .ok (o.inputId, o.body, o.destructive) := rfl
      rw [hfields] at h
      split at h
      · cases h
      · split at h
        · cases h
        · split at h
          · cases h
          · cases h
            rfl

theorem requestIdOf_postInput {token : String} {o : Outgoing} {reading : Reading}
    (h : checkInputId o.inputId = true) :
    requestIdOf (postInput token o reading) = some o.inputId := by
  have htrim := checkInputId_trim h
  have hne : o.inputId ≠ "" := by
    intro he
    rw [he] at h
    cases h
  have hother : ∀ value, (equiv "Content-Type" "X-Request-ID" && value) = false ∧
      (equiv "Authorization" "X-Request-ID" && value) = false := by decide
  have hown : equiv "X-Request-ID" "X-Request-ID" = true := by decide
  unfold requestIdOf postInput
  simp [hother, hown, htrim, hne]

theorem bearerOk_postInput {token : String} {o : Outgoing} {reading : Reading} {agent : String}
    (h : Text.trimSpace token = agent) : bearerOk (postInput token o reading) agent = true := by
  have hother : equiv "Content-Type" "Authorization" = false ∧
      equiv "X-Request-ID" "Authorization" = false ∧
      equiv "Authorization" "Authorization" = true := by decide
  have hrest : bearerRest ("Bearer " ++ token) = some token := by
    simp [bearerRest, String.toList_append]
  unfold bearerOk postInput
  simp [hother, hrest, h]

/-- The post arrives whole, and nothing fails before its command is started. -/
structure Fate.Whole (f : Fate) : Prop where
  reading : f.reading = .whole
  steps : 10 ≤ f.steps
  works : ∀ n, Works (f.oracles n)

/-- What the agent asks of an input to a generic workflow: its token, an id of at most 128
bytes, and a body that is not blank. -/
structure Accepted (cfg : ConnectConfig) (token : String) (db : Db) (o : Outgoing) : Prop where
  token : Text.trimSpace token = cfg.token
  workflow : o.workflowId ≠ ""
  generic : ∃ row, db.getWorkflow o.workflowId = some row ∧
    Provider.fromI32 row.provider = some .generic
  size : o.inputId.utf8ByteSize ≤ 128
  body : Text.trimSpace o.body ≠ ""

/-- The command of an input that has no row is started, if nothing fails. -/
theorem Fate.meet_started {cfg : ConnectConfig} {token : String} {o : Outgoing} {f : Fate}
    {m : Machine} (h : ¬Held (storageKey o.workflowId o.inputId) m.db) (hf : f.Whole)
    (ho : Accepted cfg token m.db o) (hid : checkInputId o.inputId = true) :
    (o.workflowId, o.inputId) ∈ (f.meet cfg (.post (postInput token o f.reading)) m).1.started := by
  obtain ⟨row, hrow, hgeneric⟩ := ho.generic
  have hbody : o.body ≠ "" := by
    intro he
    have hblank := ho.body
    rw [he] at hblank
    exact hblank rfl
  have hfields : inputFields (postInput token o .whole) =
      .ok (o.inputId, o.body, o.destructive) := by
    show (if requestIdOf (postInput token o .whole) ≠ some o.inputId then _
      else if ¬checkInputId o.inputId then _ else if o.body = "" then _ else _) = _
    rw [requestIdOf_postInput hid, if_neg (not_not_intro rfl), if_neg (not_not_intro hid),
      if_neg hbody]
  have hreply : Starts o.workflowId o.inputId 10 (replyInput cfg (postInput token o .whole)) m := by
    unfold replyInput reply
    rw [if_pos (bearerOk_postInput ho.token)]
    exact starts_handleInput hfields ho.body ho.workflow hrow hgeneric h
  rw [hf.reading]
  refine Prog.reaches_attempt (fun c oracle n n' r hx hmem => ?_) hf.works hreply.bind hf.steps
  have hn : (c.run oracle n).1 = n' := congrArg Prod.fst (Option.some.inj hx)
  rw [← hn]
  exact started_kept c oracle hmem

/-- The answer to a post whose input has no row. -/
theorem Fate.meet_ran {cfg : ConnectConfig} {token : String} {o : Outgoing} {f : Fate}
    {m : Machine} (h : ¬Held (storageKey o.workflowId o.inputId) m.db) {r : Response}
    (hr : (f.meet cfg (.post (postInput token o f.reading)) m).2.join = some r) :
    Ran o.workflowId o.inputId r (f.meet cfg (.post (postInput token o f.reading)) m).1 := by
  have hmeets : (serveInput cfg (.post (postInput token o f.reading))).Meets exec 0
      (fun a m => ∀ r, a = some r → Ran o.workflowId o.inputId r m) (fun _ => True) m :=
    serveInput_ran (fun _ _ _ hf => postInput_id hf) h
  have hattempt := (Prog.meets_attempt hmeets f.steps f.oracles).2
  exact hattempt (some r) (Option.join_eq_some_iff.mp hr) r rfl

theorem replyInput_concerns (cfg : ConnectConfig) (p : Post) :
    (replyInput cfg p).Only (Concerns (inputTarget p).1 (inputTarget p).2) := by
  unfold replyInput reply
  by_cases hb : bearerOk p cfg.token = true
  · rw [if_pos hb]
    exact handleInput_concerns cfg p
  · rw [if_neg hb]
    trivial

/-- A post gives a row to no input but its own. -/
theorem Asked.post {cfg : ConnectConfig} {token : String} {posted : List Outgoing} {m : Machine}
    (h : Asked posted m.db) (o : Outgoing) (f : Fate) :
    Asked (posted ++ [o]) (f.meet cfg (.post (postInput token o f.reading)) m).1.db := by
  intro w i hi hheld
  have hrest : rest (inputTarget (postInput token o f.reading)).1
      (f.meet cfg (.post (postInput token o f.reading)) m).1.db =
      rest (inputTarget (postInput token o f.reading)).1 m.db := by
    have hkeep : (serveInput cfg (.post (postInput token o f.reading))).Only
        (Concerns (inputTarget (postInput token o f.reading)).1
          (inputTarget (postInput token o f.reading)).2) :=
      (replyInput_concerns cfg _).bind fun _ => trivial
    exact (Prog.meets_attempt (meets_keep hkeep
      (I := fun n => rest (inputTarget (postInput token o f.reading)).1 n.db =
        rest (inputTarget (postInput token o f.reading)).1 m.db)
      (fun _ o n hc hn => (hc.rest o n).trans hn) rfl) f.steps f.oracles).1
  by_cases hk : storageKey w i = (inputTarget (postInput token o f.reading)).1
  · unfold inputTarget at hk
    cases hf : inputFields (postInput token o f.reading) with
    | error r =>
        rw [hf] at hk
        have hlength := congrArg (fun s => s.toList.length) hk
        simp [storageKey] at hlength
    | ok fields =>
        obtain ⟨i', text, destructive⟩ := fields
        rw [hf] at hk
        obtain ⟨hw, hid⟩ := storageKey_inj hi (checkInputId_colon (inputFields_id hf)) hk
        exact ⟨o, List.mem_append_right posted (List.mem_singleton_self o), hw.symm,
          (hid.trans (postInput_id hf)).symm⟩
  · obtain ⟨o', ho', hsame⟩ := h w i hi (held_rest hk hrest hheld)
    exact ⟨o', List.mem_append_left [o] ho', hsame⟩

theorem Asked.restart {cfg : ConnectConfig} {posted : List Outgoing} {m : Machine}
    (h : Asked posted m.db) (f : Fate) : Asked posted (f.meet cfg .restart m).1.db := by
  have honly : (serveInput cfg .restart).Only (fun c => c = .restart) := ⟨rfl, fun _ => trivial⟩
  refine (Prog.meets_attempt (meets_keep honly (I := fun n => Asked posted n.db)
    (fun c o n hc hn => ?_) h) f.steps f.oracles).1
  rw [hc]
  exact hn

/-- **Every row of an input was posted**, in every run. -/
theorem asked_after {cfg : ConnectConfig} {token : String} {m : Machine}
    (hm : ∀ w i, ¬Held (storageKey w i) m.db) (plan : List (Action × Fate)) :
    Asked (Phones.after (plan.map Prod.fst)).posted (Scene.after cfg token m plan).agent.db := by
  induction plan using snoc_induction with
  | hnil => exact fun w i _ hheld => absurd hheld (hm w i)
  | hsnoc plan e ih =>
      rw [Scene.after_append, List.map_append, List.map_singleton, Phones.after_append]
      obtain ⟨a, f⟩ := e
      by_cases ha : a = .restart
      · have hposted : ((Phones.after (plan.map Prod.fst)).act a).posted =
            (Phones.after (plan.map Prod.fst)).posted := by
          rw [ha]
          exact List.append_nil _
        rw [hposted, ha]
        exact ih.restart f
      · cases ho : (Phones.after (plan.map Prod.fst)).outgoing a with
        | none =>
            have hposted : ((Phones.after (plan.map Prod.fst)).act a).posted =
                (Phones.after (plan.map Prod.fst)).posted := by
              rw [Phones.act, ho]
              exact List.append_nil _
            rw [hposted, Scene.step_silent ha (by rw [Scene.after_phones]; exact ho)]
            exact ih
        | some o =>
            have hposted : ((Phones.after (plan.map Prod.fst)).act a).posted =
                (Phones.after (plan.map Prod.fst)).posted ++ [o] := by
              rw [Phones.act, ho]
              rfl
            rw [hposted, Scene.step_post ha (by rw [Scene.after_phones]; exact ho)]
            exact ih.post o f

/-! ## Every sequence of views -/

/-- What a view composes next was not posted before, if no other view writes to
its workflow. -/
theorem next_unposted {actions : List Action} {n : Nat} {body : String} {destructive : Bool}
    {view : WorkflowView} (hchat : ChatShowsPosts actions)
    (hone : OneWriter (actions ++ [.send n body destructive]))
    (hview : (Phones.after actions).views[n]? = some view) :
    ∀ o ∈ (Phones.after actions).posted, o.workflowId = view.workflowId →
      o.inputId ≠ inputIdOf view.workflowId (view.inputCount + 1) := by
  intro o ho hw hid
  obtain ⟨n', view', c, hview', hw', hpos, hle, hidc⟩ := counted_after hchat o ho
  have hwrites : Writes (actions ++ [.send n body destructive]) view.workflowId n' := by
    obtain ⟨⟨body', destructive', hmem⟩, _⟩ := counted_writes hview' (by omega)
    obtain ⟨view₁, hview₁, hw₁, _⟩ := viewsAfter_get (a := .send n body destructive) hview'
    refine ⟨⟨body', destructive', List.mem_append_left _ hmem⟩, ?_⟩
    rw [Phones.after_append]
    show ((Phones.after actions).viewsAfter (.send n body destructive))[n']?.map _ = _
    rw [hview₁, Option.map_some, hw₁, hw', hw]
  have hnext : Writes (actions ++ [.send n body destructive]) view.workflowId n := by
    obtain ⟨view₁, hview₁, hw₁, _⟩ := viewsAfter_get (a := .send n body destructive) hview
    refine ⟨⟨body, destructive, List.mem_append_right _ (List.mem_singleton_self _)⟩, ?_⟩
    rw [Phones.after_append]
    show ((Phones.after actions).viewsAfter (.send n body destructive))[n]?.map _ = _
    rw [hview₁, Option.map_some, hw₁]
  have hsame : n' = n := hone _ n' n hwrites hnext
  rw [hsame, hview, Option.some.injEq] at hview'
  rw [hidc, hw] at hid
  have hcount : c = view.inputCount + 1 := inputIdOf_inj hid
  rw [← hview'] at hle
  omega

/-- A post served to its end. -/
def served : Fate := { steps := 60, oracles := fun _ => {} }

/-- A user who writes one input, leaves, and comes back. -/
def secondVisit : List (Action × Fate) :=
  [(.mount "wf-1", served), (.send 0 "dir" false, served), (.mount "wf-1", served)]

end Calcar.Phone
