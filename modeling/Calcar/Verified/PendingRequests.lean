import Calcar.Verified.Delivery

/-!
# Pending requests

A request is created pending and ends once, resolved or expired.  Two
functions may end it: `resolve_pending_request`, which expires the row first if
it is overdue, and the sweep.  `ResolveAnswer` is what one resolve does to the
row it is about and what it says; the run is then a list of such calls, each of
which may fail at any statement or die between two of them.

## Main results

* `leadsTo_run` — a row is led on by every program of the agent.
* `resolve_answer` — the answers of `resolve_pending_request` are exact.
* `pending_request_state_machine` — the state machine, over every run.
-/

namespace Calcar.Agent

open Lib

/-! ## The row of one request -/

/-- `request_id` is the primary key. -/
def DistinctIds (db : Db) : Prop := (db.requests.map RequestRow.requestId).Nodup

instance (db : Db) : Decidable (DistinctIds db) := by
  unfold DistinctIds
  infer_instance

section Rows

variable {db db' : Db} {id : String}

theorem requestOf_map {f : RequestRow → RequestRow} (h : db'.requests = db.requests.map f)
    (hf : ∀ r, (f r).requestId = r.requestId) : db'.requestOf id = (db.requestOf id).map f := by
  have hkey : ((fun r : RequestRow => decide (r.requestId = id)) ∘ f) =
      fun r => decide (r.requestId = id) := by
    funext r
    show decide ((f r).requestId = id) = decide (r.requestId = id)
    rw [hf r]
  unfold Db.requestOf
  rw [h, List.find?_map, hkey]

theorem requestOf_modify {f : RequestRow → RequestRow}
    (hf : ∀ r, (f r).requestId = r.requestId) :
    (db.modifyRequest id f).requestOf id = (db.requestOf id).map f := by
  have hkeep : ∀ r : RequestRow,
      (if r.requestId = id then f r else r).requestId = r.requestId := by
    intro r
    by_cases h : r.requestId = id
    · rw [if_pos h]
      exact hf r
    · rw [if_neg h]
  have hrows : (db.modifyRequest id f).requests =
      db.requests.map fun r => if r.requestId = id then f r else r := rfl
  rw [requestOf_map hrows hkeep]
  cases hr : db.requestOf id with
  | none => rfl
  | some r => simp only [Option.map_some, if_pos (requestOf_mem hr).2]

/-- The primary key counts a request once at most. -/
theorem countP_requestOf (h : DistinctIds db) (p : RequestRow → Bool) :
    db.requests.countP (fun r => r.requestId = id ∧ p r = true) =
      if (db.requestOf id).any p = true then 1 else 0 := by
  unfold DistinctIds at h
  unfold Db.requestOf
  generalize db.requests = rows at h ⊢
  induction rows with
  | nil => rfl
  | cons r rs ih =>
      rw [List.map_cons, List.nodup_cons] at h
      by_cases hid : r.requestId = id
      · have hrest : rs.countP (fun r => decide (r.requestId = id ∧ p r = true)) = 0 := by
          rw [List.countP_eq_zero]
          intro r' hr' hp
          have hp' : r'.requestId = id ∧ p r' = true := of_decide_eq_true hp
          have hmem : r.requestId ∈ rs.map RequestRow.requestId := by
            rw [hid, ← hp'.1]
            exact List.mem_map_of_mem hr'
          exact h.1 hmem
        have hfind : (r :: rs).find? (fun r => decide (r.requestId = id)) = some r := by
          rw [List.find?_cons_of_pos]
          exact decide_eq_true hid
        rw [List.countP_cons, hrest, hfind]
        by_cases hp : p r = true
        · simp [hid, hp]
        · simp [hp]
      · have hfind : (r :: rs).find? (fun r => decide (r.requestId = id)) =
            rs.find? fun r => decide (r.requestId = id) := by
          rw [List.find?_cons_of_neg]
          simpa using hid
        rw [List.countP_cons_of_neg (by simp [hid]), hfind]
        exact ih h.2

/-- A statement adds a request under a new id, or adds none. -/
theorem insertRequest_or (s : Sql) :
    (∃ id w kind expiresAt now, s = .insertRequest id w kind expiresAt now) ∨
      ∀ id w kind expiresAt now, s ≠ .insertRequest id w kind expiresAt now := by
  cases s with
  | insertRequest id w kind expiresAt now => exact .inl ⟨id, w, kind, expiresAt, now, rfl⟩
  | _ => exact .inr fun _ _ _ _ _ h => by cases h

theorem DistinctIds.step (h : DistinctIds db) (s : Sql) : DistinctIds (s.step db).1 := by
  obtain ⟨id, w, kind, expiresAt, now, rfl⟩ | hs := insertRequest_or s
  · refine wrote_keep (P := DistinctIds) h fun db' hins => ?_
    obtain ⟨_, hnone, hdb⟩ := insertRequest_ok hins
    have hfree : id ∉ db.requests.map RequestRow.requestId := by
      intro hmem
      obtain ⟨r, hr, hid⟩ := List.mem_map.mp hmem
      exact requestOf_eq_none.mp hnone ⟨r, hr, hid⟩
    rw [hdb]
    show (List.map RequestRow.requestId (db.requests ++ [_])).Nodup
    rw [List.map_append, List.nodup_append]
    refine ⟨h, by simp, fun a ha b hb hab => ?_⟩
    rw [List.map_singleton, List.mem_singleton] at hb
    rw [hab, hb] at ha
    exact hfree ha
  · obtain ⟨f, hf, hlead⟩ := step_leads s db hs
    have hids : (s.step db).1.requests.map RequestRow.requestId =
        db.requests.map RequestRow.requestId := by
      rw [hf, List.map_map]
      exact List.map_congr_left fun r _ => (hlead r).requestId
    show ((s.step db).1.requests.map RequestRow.requestId).Nodup
    rw [hids]
    exact h

/-- **Every statement leads a row on.** -/
theorem leadsTo_step {r : RequestRow} (h : db.requestOf id = some r) (s : Sql) :
    ∃ r', (s.step db).1.requestOf id = some r' ∧ r.LeadsTo r' := by
  obtain ⟨id', w, kind, expiresAt, now, rfl⟩ | hs := insertRequest_or s
  · refine wrote_keep (P := fun d => ∃ r', d.requestOf id = some r' ∧ r.LeadsTo r')
      ⟨r, h, .same⟩ fun db' hins => ⟨r, ?_, .same⟩
    rw [(insertRequest_ok hins).2.2]
    show (db.requests ++ [_]).find? _ = some r
    rw [List.find?_append, show db.requests.find? _ = some r from h]
    rfl
  · obtain ⟨f, hf, hlead⟩ := step_leads s db hs
    refine ⟨f r, ?_, hlead r⟩
    rw [requestOf_map hf fun r => (hlead r).requestId, h]
    rfl

end Rows

/-! ## What every program keeps -/

section Programs

variable {m : Machine} {id : String} {j : Nat} {α : Type}

/-- What the statements keep of the file, every command keeps. -/
theorem db_run {P : Db → Prop} (hstep : ∀ (s : Sql) db, P db → P (s.step db).1) (c : Cmd)
    (o : Oracle) (h : P m.db) : P (c.run o m).1.db :=
  run_db m o h fun s _ => hstep s m.db h

/-- What the statements keep of the file, every attempt at a program keeps. -/
theorem db_attempt {P : Db → Prop} (hstep : ∀ (s : Sql) db, P db → P (s.step db).1)
    (p : Code α) (n : Nat) (os : Nat → Oracle) (h : P m.db) :
    P (p.attempt exec j n os m).1.db := by
  have hkeep : p.Meets exec j (fun _ m => P m.db) (fun m => P m.db) m :=
    meets_keep (Prog.only_of_all (fun _ => trivial) p) (P := fun _ => True)
      (fun c o _ _ hm => db_run hstep c o hm) h
  exact (Prog.meets_attempt hkeep n os).1

theorem leadsTo_later {r : RequestRow} (s : Sql) (db : Db)
    (h : ∃ r', db.requestOf id = some r' ∧ r.LeadsTo r') :
    ∃ r', (s.step db).1.requestOf id = some r' ∧ r.LeadsTo r' := by
  obtain ⟨r', hr', hlead⟩ := h
  obtain ⟨r'', hr'', hlead'⟩ := leadsTo_step hr' s
  exact ⟨r'', hr'', hlead.trans hlead'⟩

/-- **Every program leads a row on**, wherever it stops. -/
theorem leadsTo_attempt {r : RequestRow} (h : m.db.requestOf id = some r) (p : Code α) (n : Nat)
    (os : Nat → Oracle) :
    ∃ r', (p.attempt exec j n os m).1.db.requestOf id = some r' ∧ r.LeadsTo r' :=
  db_attempt (P := fun db => ∃ r', db.requestOf id = some r' ∧ r.LeadsTo r')
    (fun s db hdb => leadsTo_later s db hdb) p n os ⟨r, h, .same⟩

theorem DistinctIds.attempt (h : DistinctIds m.db) (p : Code α) (n : Nat) (os : Nat → Oracle) :
    DistinctIds (p.attempt exec j n os m).1.db :=
  db_attempt (P := DistinctIds) (fun s _ hdb => hdb.step s) p n os h

end Programs

/-! ## One resolve -/

/-- A row whose deadline has passed ends. -/
def RequestRow.lapse (now : Int) (r : RequestRow) : RequestRow :=
  if r.overdue now then { r with state := .expired } else r

/-- A row that still waits for its answer gets it. -/
def RequestRow.settle (payload : String) (now : Int) (r : RequestRow) : RequestRow :=
  if r.state = .pending then
    { r with state := .resolved, resolvedAtMillis := some now, resolvePayload := some payload }
  else r

/-- One resolve of request `id` that reads the clock as `now`: the row before,
the answer, the row afterwards. -/
inductive ResolveAnswer (id payload : String) (now : Int) :
    Option RequestRow → Except StorageError Unit → Option RequestRow → Prop where
  | applied (r : RequestRow) (hpending : r.state = .pending)
      (hbefore : ∀ d, r.expiresAtMillis = some d → now < d) :
      ResolveAnswer id payload now (some r) (.ok ())
        (some
          { r with
            state := .resolved, resolvedAtMillis := some now, resolvePayload := some payload })
  | missing : ResolveAnswer id payload now none (.error (.notFound ("request " ++ id))) none
  | alreadyResolved (r : RequestRow) (h : r.state = .resolved) :
      ResolveAnswer id payload now (some r) (.error (.alreadyResolved id)) (some r)
  | expired (r : RequestRow) (h : r.state = .expired) :
      ResolveAnswer id payload now (some r) (.error (.expired id)) (some r)
  | overdue (r : RequestRow) (hpending : r.state = .pending) (d : Int)
      (hd : r.expiresAtMillis = some d) (hpast : d ≤ now) :
      ResolveAnswer id payload now (some r) (.error (.expired id))
        (some { r with state := .expired })
  | failed (pre post : Option RequestRow) (h : post = pre ∨ post = pre.map (.lapse now)) :
      ResolveAnswer id payload now pre (.error .sqlite) post

/-- `resolve_pending_request` after it has read the clock. -/
def resolveAt (id payload : String) (now : Int) : Code (Except StorageError Unit) :=
  andThen (sql (.updateExpired id now)) fun _ =>
    andThen (sql (.updateResolved id payload now)) fun updated =>
      if updated = 1 then return .ok ()
      else
        andThen (sql (.selectRequestState id)) fun state =>
          match state with
          | some .expired => return .error (.expired id)
          | some _ => return .error (.alreadyResolved id)
          | none => return .error (.notFound ("request " ++ id))

theorem resolvePendingRequest_eq (id payload : String) :
    resolvePendingRequest id payload = (now >>= resolveAt id payload) := rfl

/-- A request is counted by the update that resolves it while it waits. -/
def waits (row : Option RequestRow) : Bool := row.any fun r => r.state = .pending

section Resolve

variable {m : Machine} {id payload : String} {t : Int} {j : Nat}

theorem lapse_state {r : RequestRow} :
    (r.lapse t).state = .pending ↔
      r.state = .pending ∧ ∀ d, r.expiresAtMillis = some d → t < d := by
  unfold RequestRow.lapse RequestRow.overdue
  cases hs : r.state with
  | pending =>
      cases hd : r.expiresAtMillis with
      | none => simp [hs]
      | some d =>
          by_cases hle : d ≤ t
          · simp [hle]
          · simp [hs, hle]
            omega
  | resolved => simp [hs]
  | expired => simp [hs]

theorem lapse_pending {r : RequestRow} (h : (r.lapse t).state = .pending) : r.lapse t = r := by
  show (if r.overdue t then { r with state := .expired } else r) = r
  by_cases ho : r.overdue t = true
  · have hstate : (r.lapse t).state = .expired := by
      unfold RequestRow.lapse
      rw [if_pos ho]
    rw [hstate] at h
    cases h
  · rw [if_neg ho]

theorem requestOf_lapse (db : Db) :
    (db.updateExpired id t).requestOf id = (db.requestOf id).map (.lapse t) :=
  requestOf_modify fun r => (leadsTo_expired r t).requestId

theorem requestOf_settle (db : Db) :
    (db.updateResolved id payload t).1.requestOf id =
      (db.requestOf id).map (.settle payload t) :=
  requestOf_modify fun r => (leadsTo_resolved r payload t).requestId

theorem updateResolved_count {db : Db} (h : DistinctIds db) :
    (db.updateResolved id payload t).2 = if waits (db.requestOf id) = true then 1 else 0 := by
  unfold waits
  rw [← countP_requestOf h]
  unfold Db.updateResolved
  simp only [decide_eq_true_eq]

theorem settle_of_pending {r : RequestRow} (h : r.state = .pending) :
    r.settle payload t =
      { r with
        state := .resolved, resolvedAtMillis := some t, resolvePayload := some payload } := by
  unfold RequestRow.settle
  rw [if_pos h]

theorem settle_of_ended {r : RequestRow} (h : r.state ≠ .pending) : r.settle payload t = r := by
  unfold RequestRow.settle
  rw [if_neg h]

/-- What a refused resolve says of a row that has ended, or ends by its
deadline. -/
theorem refused_answer {r : RequestRow} (h : (r.lapse t).state ≠ .pending) :
    ResolveAnswer id payload t (some r)
      (.error (if (r.lapse t).state = .expired then .expired id else .alreadyResolved id))
      (some (r.lapse t)) := by
  by_cases ho : r.overdue t = true
  · have hlapse : r.lapse t = { r with state := .expired } := by
      unfold RequestRow.lapse
      rw [if_pos ho]
    have hdue : ∃ d, r.expiresAtMillis = some d ∧ d ≤ t := by
      unfold RequestRow.overdue at ho
      rw [Bool.and_eq_true, Option.any_eq_true] at ho
      obtain ⟨_, d, hd, hle⟩ := ho
      exact ⟨d, hd, of_decide_eq_true hle⟩
    obtain ⟨d, hd, hle⟩ := hdue
    rw [hlapse]
    exact .overdue r (overdue_pending ho) d hd hle
  · have hlapse : r.lapse t = r := by
      unfold RequestRow.lapse
      rw [if_neg ho]
    rw [hlapse] at h ⊢
    cases hs : r.state with
    | pending => exact absurd hs h
    | resolved => exact .alreadyResolved r hs
    | expired => exact .expired r hs

/-- The last part of a resolve, once its two updates have been made. -/
theorem answer_counted {pre : Option RequestRow}
    (hpost : m.db.requestOf id = (pre.map (.lapse t)).map (.settle payload t)) :
    Prog.Meets exec j (fun a m' => ResolveAnswer id payload t pre a (m'.db.requestOf id))
      (fun _ => True)
      (if (if waits (pre.map (.lapse t)) = true then 1 else 0) = 1 then
        (return .ok () : Code (Except StorageError Unit))
      else
        andThen (sql (.selectRequestState id)) fun state =>
          match state with
          | some .expired => return .error (.expired id)
          | some _ => return .error (.alreadyResolved id)
          | none => return .error (.notFound ("request " ++ id))) m := by
  cases pre with
  | none =>
      have hnone : m.db.requestOf id = none := hpost
      refine meets_state (.failed _ _ (.inl hnone)) (fun r hr => ?_) fun _ => ?_
      · rw [hnone] at hr
        cases hr
      · rw [hnone]
        exact .missing
  | some r =>
      simp only [Option.map_some] at hpost ⊢
      by_cases hp : (r.lapse t).state = .pending
      · have hone : (if waits (some (r.lapse t)) = true then 1 else 0) = 1 := by
          simp [waits, hp]
        have hrow : r.lapse t = r := lapse_pending hp
        rw [hrow, settle_of_pending (hrow ▸ hp)] at hpost
        rw [if_pos hone]
        refine ⟨trivial, ?_⟩
        show ResolveAnswer id payload t (some r) (.ok ()) (m.db.requestOf id)
        rw [hpost]
        exact .applied r (lapse_state.mp hp).1 (lapse_state.mp hp).2
      · have hzero : ¬(if waits (some (r.lapse t)) = true then 1 else 0) = 1 := by
          simp [waits, hp]
        rw [settle_of_ended hp] at hpost
        rw [if_neg hzero]
        refine meets_state (.failed _ _ (.inr hpost)) (fun r' hr' => ?_) fun hnone => ?_
        · rw [hpost] at hr' ⊢
          cases hr'
          exact refused_answer hp
        · rw [hpost] at hnone
          cases hnone

/-- **The answers of a resolve are exact.** -/
theorem resolveAt_answer (h : DistinctIds m.db) :
    (resolveAt id payload t).Meets exec j
      (fun a m' => ResolveAnswer id payload t (m.db.requestOf id) a (m'.db.requestOf id))
      (fun _ => True) m := by
  have h₁ : DistinctIds (m.db.updateExpired id t) := h.step (.updateExpired id t)
  have hlapse : (m.db.updateExpired id t).requestOf id = (m.db.requestOf id).map (.lapse t) :=
    requestOf_lapse m.db
  have hsettle : ((m.db.updateExpired id t).updateResolved id payload t).1.requestOf id =
      ((m.db.requestOf id).map (.lapse t)).map (.settle payload t) := by
    rw [requestOf_settle, hlapse]
  have hcount : ((m.db.updateExpired id t).updateResolved id payload t).2 =
      if waits ((m.db.requestOf id).map (.lapse t)) = true then 1 else 0 := by
    rw [updateResolved_count h₁, hlapse]
  refine meets_andThen
    (meets_sql trivial (fun _ => .failed _ _ (.inl rfl)) ⟨trivial, fun _ => ?_⟩)
  refine meets_andThen
    (meets_sql trivial (fun _ => .failed _ _ (.inr hlapse)) ⟨trivial, fun _ => ?_⟩)
  show Prog.Meets _ _ _ _ (if ((m.db.updateExpired id t).updateResolved id payload t).2 = 1 then _
    else _) _
  rw [hcount]
  exact answer_counted hsettle

/-- An attempt at a resolve that came to an answer, with the clock it read. -/
theorem resolve_answer (h : DistinctIds m.db) {n : Nat} {os : Nat → Oracle}
    {a : Except StorageError Unit}
    (ha : ((resolvePendingRequest id payload).attempt exec j n os m).2 = some a) :
    ResolveAnswer id payload (os 0).clock (m.db.requestOf id) a
      (((resolvePendingRequest id payload).attempt exec j n os m).1.db.requestOf id) := by
  cases n with
  | zero => cases ha
  | succ n =>
      have hrest : (resolveAt id payload (os 0).clock).Meets exec j
          (fun a m' => ResolveAnswer id payload (os 0).clock (m.db.requestOf id) a
            (m'.db.requestOf id)) (fun _ => True) m := resolveAt_answer h
      exact (Prog.meets_attempt hrest n fun k => os (k + 1)).2 a ha

end Resolve

/-! ## New requests -/

section Creation

variable {m : Machine} {id : String} {j : Nat} {α : Type}

/-- The commands that create no request under `id`. -/
def CreatesNot (id : String) : Cmd → Prop
  | .sql (.insertRequest k _ _ _ _) => k ≠ id
  | _ => True

theorem none_step {s : Sql} {db : Db} (hs : CreatesNot id (.sql s))
    (h : db.requestOf id = none) : (s.step db).1.requestOf id = none := by
  obtain ⟨k, w, kind, expiresAt, now, rfl⟩ | hs' := insertRequest_or s
  · refine wrote_keep (P := fun d => d.requestOf id = none) h fun db' hins => ?_
    have hother : ¬k = id := hs
    rw [(insertRequest_ok hins).2.2]
    show (db.requests ++ [_]).find? _ = none
    rw [List.find?_append, show db.requests.find? _ = none from h]
    simp [hother]
  · obtain ⟨f, hf, hlead⟩ := step_leads s db hs'
    rw [requestOf_map hf fun r => (hlead r).requestId, h]
    rfl

/-- A request that nobody creates stays unknown. -/
theorem none_attempt {p : Code α} (hp : p.Only (CreatesNot id)) (h : m.db.requestOf id = none)
    (n : Nat) (os : Nat → Oracle) : (p.attempt exec j n os m).1.db.requestOf id = none := by
  have hkeep : p.Meets exec j (fun _ m => m.db.requestOf id = none)
      (fun m => m.db.requestOf id = none) m := by
    refine meets_keep hp (fun c o m hc hm => ?_) h
    refine run_db (P := fun db => db.requestOf id = none) m o hm fun s hs => ?_
    subst hs
    exact none_step hc hm
  exact (Prog.meets_attempt hkeep n os).1

/-- A new row. -/
def IsFresh (r : RequestRow) : Prop :=
  r.state = .pending ∧ r.resolvedAtMillis = none ∧ r.resolvePayload = none

/-- A request that is there only as a new row, if at all. -/
def FreshIn (id : String) (m : Machine) : Prop :=
  ∀ r, m.db.requestOf id = some r → IsFresh r

/-- **A request starts pending.** -/
theorem create_starts {w : String} {kind : RequestKind} {expiresAt : Option Int}
    (h : m.db.requestOf id = none) (n : Nat) (os : Nat → Oracle) {r : RequestRow}
    (hr : ((createPendingRequest id w kind expiresAt).attempt exec j n os m).1.db.requestOf id =
      some r) : IsFresh r := by
  have hmeets : (createPendingRequest id w kind expiresAt).Meets exec j (fun _ _ => True)
      (FreshIn id) m := by
    have hnone : FreshIn id m := by
      intro r hr
      rw [h] at hr
      cases hr
    unfold createPendingRequest getWorkflow
    refine meets_andThen (meets_sql hnone (fun _ => trivial) ⟨hnone, fun _ => ?_⟩)
    have hread : (Sql.selectWorkflow w).step m.db = (m.db, .ok (m.db.getWorkflow w)) := rfl
    rw [hread]
    cases m.db.getWorkflow w with
    | none => exact ⟨hnone, trivial⟩
    | some row =>
        refine Prog.meets_bind (meets_now hnone fun t _ => ?_)
        refine meets_sql hnone trivial ⟨?_, trivial⟩
        refine wrote_keep (P := fun db => ∀ r, db.requestOf id = some r → IsFresh r) hnone
          fun db' hins => ?_
        intro r hr
        rw [(insertRequest_ok hins).2.2] at hr
        have hfind : (m.db.requests ++ [_]).find? _ = some r := hr
        rw [List.find?_append, show m.db.requests.find? _ = none from h] at hfind
        simp at hfind
        rw [← hfind]
        exact ⟨rfl, rfl, rfl⟩
  exact (Prog.meets_attempt hmeets n os).1 r hr

end Creation

/-! ## Runs -/

/-- The calls on the table of requests. -/
inductive RequestCall where
  | create (id w : String) (kind : RequestKind) (expiresAt : Option Int)
  | resolve (id payload : String)
  | sweep

/-- What they return. -/
inductive RequestReply where
  | created (r : Except StorageError Unit)
  | resolved (r : Except StorageError Unit)
  | swept (r : Except StorageError Nat)

/-- The program of a call. -/
def RequestCall.code : RequestCall → Code RequestReply
  | .create id w kind expiresAt => do
      return .created (← createPendingRequest id w kind expiresAt)
  | .resolve id payload => do
      return .resolved (← resolvePendingRequest id payload)
  | .sweep => do
      return .swept (← expirePendingRequests)

/-- A resolve of request `id` that returned success. -/
def resolvedOk (id : String) : RequestCall × Option RequestReply → Bool
  | (.resolve k _, some (.resolved (.ok ()))) => k = id
  | _ => false

/-- The file after a run of calls. -/
def fileAfter (m : Machine) (ts : List (Prog.Try RequestCall Oracle)) : Db :=
  (Prog.afterAll exec RequestCall.code m ts).db

/-- The law of the table, over a run `ts` from machine `m`. -/
structure RequestLaw (m : Machine) (ts : List (Prog.Try RequestCall Oracle)) : Prop where
  /-- A row is led on: from pending to one of the two ends, or not at all. -/
  moves : ∀ us vs, ts = us ++ vs → ∀ id r, (fileAfter m us).requestOf id = some r →
    ∃ r', (fileAfter m ts).requestOf id = some r' ∧ r.LeadsTo r'
  /-- A row that has ended is what it was then, its resolution included. -/
  ended : ∀ us vs, ts = us ++ vs → ∀ id r, (fileAfter m us).requestOf id = some r →
    r.state ≠ .pending → (fileAfter m ts).requestOf id = some r
  /-- A row comes from a call that creates it, and starts pending. -/
  starts : ∀ us t vs, ts = us ++ t :: vs → ∀ id r, (fileAfter m us).requestOf id = none →
    (fileAfter m (us ++ [t])).requestOf id = some r →
    IsFresh r ∧ ∃ w kind expiresAt, t.task = .create id w kind expiresAt
  /-- One resolve of a request succeeds at most. -/
  once : ∀ id, (Prog.replies exec RequestCall.code m ts).countP (resolvedOk id) ≤ 1
  /-- A resolve answers as the row and the clock tell it to. -/
  answers : ∀ us t vs, ts = us ++ t :: vs → ∀ id payload a, t.task = .resolve id payload →
    (t.at exec RequestCall.code (Prog.afterAll exec RequestCall.code m us)).2 =
      some (.resolved a) →
    ResolveAnswer id payload (t.oracles 0).clock ((fileAfter m us).requestOf id) a
      ((fileAfter m (us ++ [t])).requestOf id)

section Runs

variable {m : Machine} {ts us vs : List (Prog.Try RequestCall Oracle)}

theorem fileAfter_snoc (t : Prog.Try RequestCall Oracle) :
    fileAfter m (us ++ [t]) =
      (t.at exec RequestCall.code (Prog.afterAll exec RequestCall.code m us)).1.db := by
  unfold fileAfter
  rw [Prog.afterAll_append]
  rfl

/-- A program whose answer is wrapped stops where the program itself stops. -/
theorem attempt_wrapped {α β : Type} (f : α → β) (p : Code α) (n : Nat) (os : Nat → Oracle)
    (m : Machine) (j : Nat) :
    ((p >>= fun a => .ret (f a)).attempt exec j n os m) =
      ((p.attempt exec j n os m).1, (p.attempt exec j n os m).2.map f) := by
  induction p generalizing n os m with
  | ret a =>
      cases n with
      | zero => rfl
      | succ n => rfl
  | call c k ih =>
      cases n with
      | zero => rfl
      | succ n => exact ih _ n _ _

theorem distinct_run (hm : DistinctIds m.db) :
    DistinctIds (Prog.afterAll exec RequestCall.code m ts).db :=
  Prog.afterAll_keep (I := fun m : Machine => DistinctIds m.db)
    (fun (t : Prog.Try RequestCall Oracle) _ _ hw => hw.attempt (t.task.code) t.steps t.oracles) hm

theorem leadsTo_run {id : String} {r : RequestRow} (h : m.db.requestOf id = some r)
    (ts : List (Prog.Try RequestCall Oracle)) :
    ∃ r', (fileAfter m ts).requestOf id = some r' ∧ r.LeadsTo r' := by
  refine Prog.afterAll_keep
    (I := fun m : Machine => ∃ r', m.db.requestOf id = some r' ∧ r.LeadsTo r')
    (fun t _ w hw => ?_) ⟨r, h, .same⟩
  obtain ⟨r', hr', hlead⟩ := hw
  obtain ⟨r'', hr'', hlead'⟩ := leadsTo_attempt hr' t.task.code t.steps t.oracles
  exact ⟨r'', hr'', hlead.trans hlead'⟩

/-- A call that is not the creation of `id` leaves it unknown. -/
theorem starts_at (t : Prog.Try RequestCall Oracle) {id : String} {r : RequestRow}
    (h : m.db.requestOf id = none)
    (hr : (t.at exec RequestCall.code m).1.db.requestOf id = some r) :
    IsFresh r ∧ ∃ w kind expiresAt, t.task = .create id w kind expiresAt := by
  have hnot : ¬(t.at exec RequestCall.code m).1.db.requestOf id = none := by
    rw [hr]
    intro hc
    cases hc
  have hquiet : t.task.code.Only (CreatesNot id) → False :=
    fun honly => hnot (none_attempt honly h t.steps t.oracles)
  obtain ⟨task, steps, os⟩ := t
  cases task with
  | sweep =>
      refine absurd ?_ hquiet
      exact Prog.Only.bind ⟨trivial, fun _ => Prog.only_perform trivial⟩ fun _ => trivial
  | resolve k payload =>
      refine absurd ?_ hquiet
      refine Prog.Only.bind ((resolvePendingRequest_only k payload none).mono fun c hc => ?_)
        fun _ => trivial
      cases c with
      | sql s =>
          cases s with
          | insertRequest k' w kind expiresAt now => cases hc.2
          | _ => trivial
      | _ => trivial
  | create k w kind expiresAt =>
      by_cases hk : k = id
      · subst hk
        refine ⟨?_, w, kind, expiresAt, rfl⟩
        have hwrap := attempt_wrapped RequestReply.created
          (createPendingRequest k w kind expiresAt) steps os m 0
        have hat : (Prog.Try.at exec RequestCall.code ⟨.create k w kind expiresAt, steps, os⟩ m) =
          ((createPendingRequest k w kind expiresAt >>= fun a =>
            .ret (RequestReply.created a)).attempt exec 0 steps os m) := rfl
        rw [hat, hwrap] at hr
        exact create_starts h steps os hr
      · refine absurd ?_ hquiet
        refine Prog.Only.bind
          ((createPendingRequest_only k w kind expiresAt).mono fun c hc => ?_) fun _ => trivial
        cases c with
        | sql s =>
            cases s with
            | insertRequest k' w' kind' expiresAt' now => exact fun heq => hk (hc.1.symm.trans heq)
            | _ => trivial
        | _ => trivial

/-- A resolve that succeeds finds its request open and settles it. -/
theorem resolvedOk_at (t : Prog.Try RequestCall Oracle) (id : String)
    (h : resolvedOk id (t.task, (t.at exec RequestCall.code m).2) = true) :
    ¬Settled id m.db ∧ Settled id (t.at exec RequestCall.code m).1.db := by
  obtain ⟨task, steps, os⟩ := t
  cases task with
  | sweep => cases h
  | create k w kind expiresAt => cases h
  | resolve k payload =>
      have hat : (Prog.Try.at exec RequestCall.code ⟨.resolve k payload, steps, os⟩ m) =
          (((resolvePendingRequest k payload).attempt exec 0 steps os m).1,
            ((resolvePendingRequest k payload).attempt exec 0 steps os m).2.map .resolved) :=
        attempt_wrapped RequestReply.resolved (resolvePendingRequest k payload) steps os m 0
      rw [hat] at h ⊢
      have hok : ((resolvePendingRequest k payload).attempt exec 0 steps os m).2 = some (.ok ()) ∧
          k = id := by
        generalize ((resolvePendingRequest k payload).attempt exec 0 steps os m).2 = a at h
        match a with
        | none => cases h
        | some (.error e) => cases h
        | some (.ok ()) => exact ⟨rfl, of_decide_eq_true h⟩
      obtain ⟨ha, rfl⟩ := hok
      refine ⟨fun hs => ?_, ?_⟩
      · exact (Prog.meets_attempt (resolve_closed hs) steps os).2 _ ha rfl
      · exact (Prog.meets_attempt resolve_settles steps os).2 _ ha rfl

/-- **The state machine of a request.**  Whatever calls are made, in any order
and under any clock, each cut short or failing anywhere: rows move from pending
to resolved or to expired and then never again; one resolve of a request
succeeds at most, and only before its deadline; and what a resolve answers says
what it found. -/
theorem pending_request_state_machine (m : Machine) (hm : DistinctIds m.db)
    (ts : List (Prog.Try RequestCall Oracle)) : RequestLaw m ts where
  moves := by
    rintro us vs rfl id r hr
    have hrest := leadsTo_run hr vs
    unfold fileAfter at hrest ⊢
    rw [Prog.afterAll_append]
    exact hrest
  ended := by
    rintro us vs rfl id r hr hend
    obtain ⟨r', hr', hlead⟩ := leadsTo_run hr vs
    unfold fileAfter at hr' ⊢
    rw [Prog.afterAll_append, hr', hlead.ended hend]
  starts := by
    rintro us t vs rfl id r hnone hr
    rw [fileAfter_snoc] at hr
    exact starts_at t hnone hr
  once := fun id =>
    Prog.wins_at_most_once (fun m : Machine => Settled id m.db)
      (fun (t : Prog.Try RequestCall Oracle) _ hw => (Prog.meets_attempt (hw.keep t.task.code) t.steps t.oracles).1)
      (fun t _ h => resolvedOk_at t id h) m ts
  answers := by
    rintro us t vs rfl id payload a ht ha
    rw [fileAfter_snoc]
    obtain ⟨task, steps, os⟩ := t
    cases ht
    have hat : (Prog.Try.at exec RequestCall.code ⟨.resolve id payload, steps, os⟩
        (Prog.afterAll exec RequestCall.code m us)) = _ :=
      attempt_wrapped RequestReply.resolved (resolvePendingRequest id payload) steps os _ 0
    rw [hat] at ha ⊢
    obtain ⟨b, hb, hba⟩ := Option.map_eq_some_iff.mp ha
    cases hba
    exact resolve_answer (distinct_run hm) hb

/-- A file with one workflow. -/
def oneWorkflow (w : String) : Machine :=
  { db := { workflows := [⟨w, 2, 1, "t", none, 0, 0⟩] } }

/-- A request answered in time, answered again, and one left to the sweep. -/
def sampleCalls : List (Prog.Try RequestCall Oracle) :=
  [⟨.create "a" "w" .approval (some 10), 9, fun _ => {}⟩,
    ⟨.create "b" "w" .approval (some 10), 9, fun _ => {}⟩,
    ⟨.resolve "a" "allow", 9, fun _ => { clock := 9 }⟩,
    ⟨.resolve "a" "reject", 9, fun _ => { clock := 9 }⟩,
    ⟨.sweep, 9, fun _ => { clock := 10 }⟩,
    ⟨.resolve "b" "allow", 9, fun _ => { clock := 9 }⟩]

theorem pending_request_state_machine_sample :
    RequestLaw (oneWorkflow "w") sampleCalls ∧
      (fileAfter (oneWorkflow "w") sampleCalls).requests.map RequestRow.state =
        [.resolved, .expired] :=
  ⟨pending_request_state_machine (oneWorkflow "w") (by decide) sampleCalls, by decide⟩

end Runs

end Calcar.Agent
