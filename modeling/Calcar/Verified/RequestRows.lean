import Calcar.Agent.Server

/-!
# What statements do to the request rows

A statement may add rows under a new id and may move pending rows on; it
never removes a row, and what it leaves pending or settled of other requests
it does not look at.

## Main results

* `step_advances` — every statement moves pending rows on or adds new ones.
* `Settled.step` — a request that is settled stays settled.
* `Keyed.apart`, `Keyed.alike` — a statement about one request changes
  no other request and does not depend on it.
-/

namespace Calcar.Agent

open Lib

/-! ## Rows move one way -/

/-- How one row may change. -/
structure RequestRow.MovesTo (r r' : RequestRow) : Prop where
  requestId : r'.requestId = r.requestId
  workflowId : r'.workflowId = r.workflowId
  kind : r'.kind = r.kind
  settled : r.state ≠ .pending → r' = r

theorem RequestRow.MovesTo.refl (r : RequestRow) : r.MovesTo r := ⟨rfl, rfl, rfl, fun _ => rfl⟩

/-- The rows of one file are those of another moved on, then new ones. -/
def Advances (db db' : Db) : Prop :=
  ∃ (f : RequestRow → RequestRow) (new : List RequestRow),
    db'.requests = db.requests.map f ++ new ∧ (∀ r : RequestRow, r.MovesTo (f r)) ∧
      ∀ r, r ∈ new → db.requestOf r.requestId = none

theorem Advances.refl (db : Db) : Advances db db :=
  ⟨id, [], by simp, RequestRow.MovesTo.refl, fun _ h => absurd h List.not_mem_nil⟩

theorem overdue_pending {r : RequestRow} {now : Int} (h : r.overdue now = true) :
    r.state = .pending := by
  simp only [RequestRow.overdue, Bool.and_eq_true, decide_eq_true_eq] at h
  exact h.1

/-- How the store changes one row: not at all, or once, from pending to one
of the two ends. -/
inductive RequestRow.LeadsTo (r : RequestRow) : RequestRow → Prop where
  | same : LeadsTo r r
  | resolved (h : r.state = .pending) (payload : String) (now : Int) :
      LeadsTo r
        { r with state := .resolved, resolvedAtMillis := some now, resolvePayload := some payload }
  | expired (h : r.state = .pending) : LeadsTo r { r with state := .expired }

theorem RequestRow.LeadsTo.ended {r r' : RequestRow} (h : r.LeadsTo r')
    (hr : r.state ≠ .pending) : r' = r := by
  cases h with
  | same => rfl
  | resolved hp => exact absurd hp hr
  | expired hp => exact absurd hp hr

theorem RequestRow.LeadsTo.trans {r r' r'' : RequestRow} (h : r.LeadsTo r')
    (h' : r'.LeadsTo r'') : r.LeadsTo r'' := by
  cases h with
  | same => exact h'
  | resolved hp payload now =>
      rw [h'.ended (by intro hc; cases hc)]
      exact .resolved hp payload now
  | expired hp =>
      rw [h'.ended (by intro hc; cases hc)]
      exact .expired hp

theorem RequestRow.LeadsTo.requestId {r r' : RequestRow} (h : r.LeadsTo r') :
    r'.requestId = r.requestId := by
  cases h <;> rfl

theorem RequestRow.LeadsTo.movesTo {r r' : RequestRow} (h : r.LeadsTo r') : r.MovesTo r' := by
  refine ⟨h.requestId, ?_, ?_, h.ended⟩
  · cases h <;> rfl
  · cases h <;> rfl

theorem leadsTo_expired (r : RequestRow) (now : Int) :
    r.LeadsTo (if r.overdue now then { r with state := .expired } else r) := by
  by_cases h : r.overdue now = true
  · rw [if_pos h]
    exact .expired (overdue_pending h)
  · rw [if_neg h]
    exact .same

theorem leadsTo_resolved (r : RequestRow) (payload : String) (now : Int) :
    r.LeadsTo
      (if r.state = .pending then
        { r with state := .resolved, resolvedAtMillis := some now, resolvePayload := some payload }
      else r) := by
  by_cases h : r.state = .pending
  · rw [if_pos h]
    exact .resolved h payload now
  · rw [if_neg h]
    exact .same

theorem movesTo_expired (r : RequestRow) (now : Int) :
    r.MovesTo (if r.overdue now then { r with state := .expired } else r) :=
  (leadsTo_expired r now).movesTo

theorem movesTo_resolved (r : RequestRow) (payload : String) (now : Int) :
    r.MovesTo
      (if r.state = .pending then
        { r with state := .resolved, resolvedAtMillis := some now, resolvePayload := some payload }
      else r) :=
  (leadsTo_resolved r payload now).movesTo

theorem leadsTo_if {r : RequestRow} {id : String} {f : RequestRow → RequestRow}
    (h : r.LeadsTo (f r)) : r.LeadsTo (if r.requestId = id then f r else r) := by
  by_cases hid : r.requestId = id
  · rw [if_pos hid]
    exact h
  · rw [if_neg hid]
    exact .same

theorem insertRequest_ok {db db' : Db} {id w : String} {kind : RequestKind}
    {expiresAt : Option Int} {now : Int}
    (h : db.insertRequest id w kind expiresAt now = .ok db') :
    (db.getWorkflow w).isSome = true ∧ db.requestOf id = none ∧
      db' = { db with
        requests := db.requests ++ [{
          requestId := id
          workflowId := w
          kind := kind
          createdAtMillis := now
          expiresAtMillis := expiresAt }] } := by
  unfold Db.insertRequest at h
  by_cases hw : (db.getWorkflow w).isNone = true
  · rw [if_pos hw] at h
    cases h
  · rw [if_neg hw] at h
    by_cases hid : (db.requestOf id).isSome = true
    · rw [if_pos hid] at h
      cases h
    · rw [if_neg hid] at h
      refine ⟨?_, ?_, ?_⟩
      · simpa [Option.isSome_iff_ne_none] using hw
      · simpa using hid
      · cases h
        rfl

/-- A trim leaves the requests alone. -/
theorem trimRing_requests {db db' : Db} {w : String} {now : Int}
    (h : db.trimRing w now = .ok db') :
    db'.requests = db.requests ∧ db'.workflows = db.workflows := by
  unfold Db.trimRing at h
  simp only at h
  split at h
  · cases h
    exact ⟨rfl, rfl⟩
  · split at h
    · cases h
    · split at h
      · cases h
        exact ⟨rfl, rfl⟩
      · cases h
        unfold Db.upsertTruncation
        split <;> exact ⟨rfl, rfl⟩

theorem appendTx_requests {db db' : Db} {d : EventDraft} {now trimNow seq : Int}
    (h : db.appendTx d now trimNow = .ok (db', seq)) :
    db'.requests = db.requests ∧ db'.workflows = db.workflows := by
  unfold Db.appendTx at h
  simp only at h
  split at h
  · cases h
  · split at h
    · cases h
    · split at h
      · cases h
      · split at h
        · cases h
        · rename_i htrim
          cases h
          have h := trimRing_requests htrim
          exact h

/-- A statement that only writes leaves the file or makes the one it is for. -/
theorem wrote_keep {P : Db → Prop} {db : Db} {e : Except StorageError Db} (h : P db)
    (hok : ∀ db', e = .ok db' → P db') : P (Sql.wrote db e).1 := by
  cases e with
  | error err => exact h
  | ok db' => exact hok db' rfl

theorem insertWorkflow_ok {db db' : Db} {row : WorkflowRow} (h : db.insertWorkflow row = .ok db') :
    db' = { db with workflows := db.workflows ++ [row] } := by
  unfold Db.insertWorkflow at h
  split at h
  · cases h
  · split at h <;> cases h
    rfl

theorem updateWorkflowState_ok {db db' : Db} {w : String} {state now : Int}
    (h : db.updateWorkflowState w state now = .ok db') :
    db' = { db with
      workflows := db.workflows.map fun r =>
        if r.workflowId = w then { r with state := state, updatedAtMillis := now } else r } := by
  unfold Db.updateWorkflowState at h
  split at h <;> cases h
  rfl

theorem upsertBinding_ok {db db' : Db} {row : BindingRow} (h : db.upsertBinding row = .ok db') :
    db'.requests = db.requests ∧ db'.workflows = db.workflows := by
  unfold Db.upsertBinding at h
  split at h
  · cases h
  · split at h <;> cases h <;> exact ⟨rfl, rfl⟩

/-- Statements that leave the requests alone. -/
def LeavesRequests : Sql → Prop
  | .insertRequest _ _ _ _ _ => False
  | .updateExpired _ _ => False
  | .updateResolved _ _ _ => False
  | .updateAllExpired _ => False
  | _ => True

theorem LeavesRequests.same {s : Sql} (hs : LeavesRequests s) (db : Db) :
    (s.step db).1.requests = db.requests := by
  cases s with
  | insertRequest _ _ _ _ _ => exact absurd hs id
  | updateExpired _ _ => exact absurd hs id
  | updateResolved _ _ _ => exact absurd hs id
  | updateAllExpired _ => exact absurd hs id
  | insertWorkflow row =>
      refine wrote_keep (P := fun d => d.requests = db.requests) rfl fun db' h => ?_
      rw [insertWorkflow_ok h]
  | updateWorkflowState w state now =>
      refine wrote_keep (P := fun d => d.requests = db.requests) rfl fun db' h => ?_
      rw [updateWorkflowState_ok h]
  | upsertBinding row =>
      exact wrote_keep (P := fun d => d.requests = db.requests) rfl
        fun db' h => (upsertBinding_ok h).1
  | appendEvent d now trimNow =>
      rw [Sql.step]
      cases h : db.appendTx d now trimNow with
      | error e => rfl
      | ok x => exact (appendTx_requests h).1
  | _ => rfl

/-- A statement that adds no request leads every row on. -/
theorem step_leads (s : Sql) (db : Db)
    (hs : ∀ id w kind expiresAt now, s ≠ .insertRequest id w kind expiresAt now) :
    ∃ f : RequestRow → RequestRow,
      (s.step db).1.requests = db.requests.map f ∧ ∀ r : RequestRow, r.LeadsTo (f r) := by
  have hsame : LeavesRequests s → ∃ f : RequestRow → RequestRow,
      (s.step db).1.requests = db.requests.map f ∧ ∀ r : RequestRow, r.LeadsTo (f r) :=
    fun h => ⟨fun r => r, by rw [List.map_id', h.same db], fun _ => .same⟩
  cases s with
  | insertRequest id w kind expiresAt now => exact absurd rfl (hs id w kind expiresAt now)
  | updateExpired id now =>
      exact ⟨_, rfl, fun r => leadsTo_if (leadsTo_expired r now)⟩
  | updateResolved id payload now =>
      exact ⟨_, rfl, fun r => leadsTo_if (leadsTo_resolved r payload now)⟩
  | updateAllExpired now => exact ⟨_, rfl, fun r => leadsTo_expired r now⟩
  | _ => exact hsame trivial

theorem step_moves (s : Sql) (db : Db)
    (hs : ∀ id w kind expiresAt now, s ≠ .insertRequest id w kind expiresAt now) :
    ∃ f : RequestRow → RequestRow,
      (s.step db).1.requests = db.requests.map f ∧ ∀ r : RequestRow, r.MovesTo (f r) := by
  obtain ⟨f, hf, hlead⟩ := step_leads s db hs
  exact ⟨f, hf, fun r => (hlead r).movesTo⟩

/-- **Every statement** moves rows on or adds new ones. -/
theorem step_advances (s : Sql) (db : Db) : Advances db (s.step db).1 := by
  by_cases hs : ∃ id w kind expiresAt now, s = .insertRequest id w kind expiresAt now
  · obtain ⟨id, w, kind, expiresAt, now, rfl⟩ := hs
    refine wrote_keep (.refl db) fun db' h => ?_
    obtain ⟨_, hid, hdb⟩ := insertRequest_ok h
    rw [hdb]
    refine ⟨fun r => r, _, by rw [List.map_id'], RequestRow.MovesTo.refl, fun r hr => ?_⟩
    rw [List.mem_singleton] at hr
    rw [hr]
    exact hid
  · obtain ⟨f, hf, hmove⟩ := step_moves s db fun id w kind expiresAt now h =>
      hs ⟨id, w, kind, expiresAt, now, h⟩
    exact ⟨f, [], by rw [hf, List.append_nil], hmove, fun _ h => absurd h List.not_mem_nil⟩

/-! ## Settled requests -/

/-- There is a row under this id. -/
def Held (k : String) (db : Db) : Prop := ∃ r, r ∈ db.requests ∧ r.requestId = k

/-- There is one, and none is pending. -/
structure Settled (k : String) (db : Db) : Prop where
  held : Held k db
  ended : ∀ r, r ∈ db.requests → r.requestId = k → r.state ≠ .pending

theorem requestOf_eq_none {k : String} {db : Db} : db.requestOf k = none ↔ ¬Held k db := by
  unfold Db.requestOf Held
  rw [List.find?_eq_none]
  constructor
  · rintro h ⟨r, hr, hk⟩
    exact h r hr (decide_eq_true hk)
  · intro h r hr hk
    exact h ⟨r, hr, of_decide_eq_true hk⟩

theorem requestOf_mem {k : String} {db : Db} {r : RequestRow} (h : db.requestOf k = some r) :
    r ∈ db.requests ∧ r.requestId = k :=
  ⟨List.mem_of_find?_eq_some h, by simpa using List.find?_some h⟩

theorem Held.advance {k : String} {db db' : Db} (h : Held k db) (hadv : Advances db db') :
    Held k db' := by
  obtain ⟨r, hr, hk⟩ := h
  obtain ⟨f, new, heq, hf, _⟩ := hadv
  refine ⟨f r, ?_, (hf r).requestId.trans hk⟩
  rw [heq]
  exact List.mem_append_left new (List.mem_map_of_mem hr)

theorem Settled.advance {k : String} {db db' : Db} (h : Settled k db)
    (hadv : Advances db db') : Settled k db' := by
  refine ⟨h.held.advance hadv, ?_⟩
  obtain ⟨f, new, heq, hf, hnew⟩ := hadv
  intro r hr hk
  rw [heq, List.mem_append] at hr
  rcases hr with hr | hr
  · obtain ⟨r₀, hr₀, rfl⟩ := List.mem_map.mp hr
    have hk₀ : r₀.requestId = k := (hf r₀).requestId.symm.trans hk
    have hover := h.ended r₀ hr₀ hk₀
    rw [(hf r₀).settled hover]
    exact hover
  · have hfree := hnew r hr
    rw [hk] at hfree
    exact absurd h.held (requestOf_eq_none.mp hfree)

theorem Held.step {k : String} {db : Db} (h : Held k db) (s : Sql) : Held k (s.step db).1 :=
  h.advance (step_advances s db)

/-- **A request that is settled stays settled.** -/
theorem Settled.step {k : String} {db : Db} (h : Settled k db) (s : Sql) :
    Settled k (s.step db).1 :=
  h.advance (step_advances s db)

/-- An update that resolves no row finds none pending; one that resolves a
row settles its request. -/
theorem updateResolved_settled {k payload : String} {db : Db} {now : Int} (h : Settled k db) :
    (db.updateResolved k payload now).2 = 0 := by
  unfold Db.updateResolved
  rw [List.countP_eq_zero]
  intro r hr hp
  have hp' : r.requestId = k ∧ r.state = .pending := of_decide_eq_true hp
  exact h.ended r hr hp'.1 hp'.2

theorem settled_updateResolved {k payload : String} {db : Db} {now : Int}
    (h : (db.updateResolved k payload now).2 ≠ 0) :
    Settled k (db.updateResolved k payload now).1 := by
  unfold Db.updateResolved at h ⊢
  have hpos := List.countP_pos_iff.mp (Nat.pos_of_ne_zero h)
  obtain ⟨r, hr, hp⟩ := hpos
  have hheld : Held k db := ⟨r, hr, (of_decide_eq_true hp : r.requestId = k ∧ _).1⟩
  refine ⟨hheld.advance (step_advances (.updateResolved k payload now) db), ?_⟩
  intro r' hr' hk
  obtain ⟨r₀, _, rfl⟩ := List.mem_map.mp hr'
  by_cases hid : r₀.requestId = k
  · by_cases hpend : r₀.state = .pending
    · simp [hid, hpend]
    · simp [hid, hpend]
  · rw [if_neg hid] at hk
    exact absurd hk hid

/-! ## Statements about one request -/

/-- The statements the request functions send for request `k`, which they add
as one of this kind if at all. -/
def Keyed (k : String) (kind : Option RequestKind) : Sql → Prop
  | .selectWorkflow _ => True
  | .insertRequest id _ kd _ _ => id = k ∧ kind = some kd
  | .updateExpired id _ => id = k
  | .updateResolved id _ _ => id = k
  | .selectRequestState id => id = k
  | _ => False

/-- What a file holds beside the rows of request `k`. -/
def others (k : String) (db : Db) : List WorkflowRow × List RequestRow :=
  (db.workflows, db.requests.filter fun r => r.requestId ≠ k)

theorem modify_others {k : String} {db : Db} {f : RequestRow → RequestRow}
    (hf : ∀ r, (f r).requestId = r.requestId) :
    (db.modifyRequest k f).requests.filter (fun r => r.requestId ≠ k) =
      db.requests.filter fun r => r.requestId ≠ k := by
  unfold Db.modifyRequest
  simp only
  induction db.requests with
  | nil => rfl
  | cons r rs ih =>
      rw [List.map_cons]
      by_cases hid : r.requestId = k
      · have hk : (f r).requestId = k := (hf r).trans hid
        rw [if_pos hid, List.filter_cons_of_neg (by simp [hk]),
          List.filter_cons_of_neg (by simp [hid]), ih]
      · rw [if_neg hid, List.filter_cons_of_pos (by simp [hid]),
          List.filter_cons_of_pos (by simp [hid]), ih]

/-- **The other requests are left alone.** -/
theorem Keyed.apart {k : String} {kind : Option RequestKind} {s : Sql} (h : Keyed k kind s)
    (db : Db) :
    others k (s.step db).1 = others k db := by
  cases s with
  | selectWorkflow w => rfl
  | selectRequestState id => rfl
  | insertRequest id w kd expiresAt now =>
      have hid : id = k := h.1
      have hkeep : ∀ db', db.insertRequest id w kd expiresAt now = .ok db' →
          others k db' = others k db := by
        intro db' hins
        rw [(insertRequest_ok hins).2.2]
        simp [others, hid]
      exact wrote_keep (P := fun d => others k d = others k db) rfl hkeep
  | updateExpired id now =>
      have hid : id = k := h
      subst hid
      exact congrArg (Prod.mk db.workflows)
        (modify_others fun r => (movesTo_expired r now).requestId)
  | updateResolved id payload now =>
      have hid : id = k := h
      subst hid
      exact congrArg (Prod.mk db.workflows)
        (modify_others fun r => (movesTo_resolved r payload now).requestId)
  | _ => exact absurd h id

theorem find?_filter_of_imp {α : Type} {p q : α → Bool} (h : ∀ a, p a = true → q a = true)
    (l : List α) : (l.filter q).find? p = l.find? p := by
  rw [List.find?_filter]
  congr 1
  funext a
  cases hp : p a with
  | true => simp [h a hp]
  | false => simp

theorem countP_filter_of_imp {α : Type} {p q : α → Bool} (h : ∀ a, p a = true → q a = true)
    (l : List α) : (l.filter q).countP p = l.countP p := by
  rw [List.countP_filter]
  congr 1
  funext a
  cases hp : p a with
  | true => simp [h a hp]
  | false => simp

section Alike

variable {k k' : String} {db db' : Db}

theorem getWorkflow_alike (h : others k db = others k db') (w : String) :
    db.getWorkflow w = db'.getWorkflow w := by
  have hw : db.workflows = db'.workflows := congrArg Prod.fst h
  rw [Db.getWorkflow, Db.getWorkflow, hw]

theorem requestOf_alike (hk : k' ≠ k) (h : others k db = others k db') :
    db.requestOf k' = db'.requestOf k' := by
  have hr := congrArg Prod.snd h
  have hsub : ∀ r : RequestRow, decide (r.requestId = k') = true →
      decide (r.requestId ≠ k) = true := by
    intro r hr
    have hrid : r.requestId = k' := of_decide_eq_true hr
    exact decide_eq_true (hrid ▸ hk)
  unfold Db.requestOf
  rw [← find?_filter_of_imp hsub db.requests, ← find?_filter_of_imp hsub db'.requests]
  exact congrArg _ hr

theorem modify_filter {f : RequestRow → RequestRow} (hf : ∀ r, (f r).requestId = r.requestId)
    (id : String) (db : Db) :
    (db.modifyRequest id f).requests.filter (fun r => r.requestId ≠ k) =
      (db.requests.filter fun r => r.requestId ≠ k).map fun r =>
        if r.requestId = id then f r else r := by
  unfold Db.modifyRequest
  rw [List.filter_map]
  congr 1
  apply List.filter_congr
  intro r _
  have hid : (if r.requestId = id then f r else r).requestId = r.requestId := by
    by_cases h : r.requestId = id
    · rw [if_pos h]
      exact hf r
    · rw [if_neg h]
  simp only [Function.comp_apply, hid]

theorem modify_alike {f : RequestRow → RequestRow} (hf : ∀ r, (f r).requestId = r.requestId)
    (h : others k db = others k db') :
    others k (db.modifyRequest k' f) = others k (db'.modifyRequest k' f) := by
  have hr : (others k db).2 = (others k db').2 := congrArg Prod.snd h
  have hw : db.workflows = db'.workflows := congrArg Prod.fst h
  refine Prod.ext hw ?_
  show (db.modifyRequest k' f).requests.filter _ = (db'.modifyRequest k' f).requests.filter _
  rw [modify_filter hf, modify_filter hf]
  exact congrArg _ hr

theorem updateResolved_alike {payload : String} {now : Int} (hk : k' ≠ k)
    (h : others k db = others k db') :
    (db.updateResolved k' payload now).2 = (db'.updateResolved k' payload now).2 := by
  have hr := congrArg Prod.snd h
  have hsub : ∀ r : RequestRow, decide (r.requestId = k' ∧ r.state = .pending) = true →
      decide (r.requestId ≠ k) = true := by
    intro r hr
    have hrid : r.requestId = k' := (of_decide_eq_true hr : r.requestId = k' ∧ _).1
    exact decide_eq_true (hrid ▸ hk)
  unfold Db.updateResolved
  have hcount : db.requests.countP (fun r => r.requestId = k' ∧ r.state = .pending) =
      db'.requests.countP fun r => r.requestId = k' ∧ r.state = .pending := by
    rw [← countP_filter_of_imp hsub db.requests, ← countP_filter_of_imp hsub db'.requests]
    exact congrArg _ hr
  exact hcount

/-- **A statement about one request does not see the others**: two files that
agree beside the rows of `k` answer it alike and agree afterwards. -/
theorem Keyed.alike {kind : Option RequestKind} {s : Sql} (hs : Keyed k' kind s) (hk : k' ≠ k)
    (h : others k db = others k db') :
    (s.step db).2 = (s.step db').2 ∧ others k (s.step db).1 = others k (s.step db').1 := by
  cases s with
  | selectWorkflow w => exact ⟨congrArg Except.ok (getWorkflow_alike h w), h⟩
  | selectRequestState id =>
      have hid : id = k' := hs
      subst hid
      exact ⟨congrArg (fun r => Except.ok (Option.map RequestRow.state r)) (requestOf_alike hk h),
        h⟩
  | insertRequest id w kd expiresAt now =>
      have hid : id = k' := hs.1
      subst hid
      have hw := getWorkflow_alike h w
      have hreq := requestOf_alike hk h
      have hrows : db.requests.filter (fun r => r.requestId ≠ k) =
          db'.requests.filter fun r => r.requestId ≠ k := congrArg Prod.snd h
      rw [Sql.step, Sql.step, Db.insertRequest, Db.insertRequest, hw, hreq]
      by_cases h₁ : (db'.getWorkflow w).isNone = true
      · rw [if_pos h₁, if_pos h₁]
        exact ⟨rfl, h⟩
      · rw [if_neg h₁, if_neg h₁]
        by_cases h₂ : (db'.requestOf id).isSome = true
        · rw [if_pos h₂, if_pos h₂]
          exact ⟨rfl, h⟩
        · rw [if_neg h₂, if_neg h₂]
          refine ⟨rfl, Prod.ext (congrArg Prod.fst h :) ?_⟩
          show (db.requests ++ _).filter _ = (db'.requests ++ _).filter _
          rw [List.filter_append, List.filter_append, hrows]
  | updateExpired id now =>
      have hid : id = k' := hs
      subst hid
      exact ⟨rfl, modify_alike (fun r => (movesTo_expired r now).requestId) h⟩
  | updateResolved id payload now =>
      have hid : id = k' := hs
      subst hid
      exact ⟨congrArg Except.ok (updateResolved_alike hk h),
        modify_alike (fun r => (movesTo_resolved r payload now).requestId) h⟩
  | _ => exact absurd hs id

end Alike

end Calcar.Agent
