import Calcar.Verified.Requests
import Calcar.Verified.SessionLog

/-!
# One join and one decision

Any number of calls of the combined store run against each other, command by
command, while clocks are set and Redis keys expire.  A pairing session that
was pending and had no join then gets at most one join and at most one
decision, and the decision that returns nil is the one in the log.

Every thread keeps to `sessionDiscipline`: it issues a statement only where
`Allowed` permits it.  `decide_safe` carries the lock from the row that
`SELECT ... FOR UPDATE` returned to the commit.

## Main results

* `session_invariant` — the invariant of the session in every state reached.
* `single_join_single_decision` — one join, one decision, one grant.
-/

namespace Calcar

open Lib Pg

/-! ## Calls of the store -/

/-- A call of the combined store; it returns whether its error is nil. -/
def storeCode (C : Crypto) (c : Seam) : Srv.M Bool :=
  Core.toSrv (combined C c >>= fun r => .ret r.isOk)

/-- Calls of the combined store that run against each other. -/
def storeCalls (C : Crypto) : System Seam World Oracle Env Srv Srv.Ans Bool :=
  system (storeCode C)

/-- The state of the calls. -/
abbrev StoreConfig : Type := Config Seam World Srv Srv.Ans Bool

/-- The call decides this session. -/
def Seam.isDecideOf (id : String) : Seam → Bool
  | .decidePairingSession x _ _ _ _ => x = id
  | _ => false

/-! ## What the log says -/

/-- The write records a join on the session. -/
def Pg.Write.joins (id : String) : Write → Bool
  | .recordJoin x _ => x = id
  | _ => false

/-- The write decides the session. -/
def Pg.Write.decides (id : String) : Write → Bool
  | .decideSession x _ _ _ => x = id
  | _ => false

/-- The status the write gives the session. -/
def Pg.Write.status? (id : String) : Write → Option Status
  | .expireSession x => if x = id then some .expired else none
  | .decideSession x st _ _ => if x = id then some st else none
  | _ => none

/-- The thread's decision of the session is in the log. -/
def DecidedBy (id : String) (n i : Nat) (p : PgState) : Prop :=
  ∃ e, e ∈ p.wal.drop n ∧ e.thread = i ∧ ∃ w, w ∈ e.writes ∧ w.decides id = true

section Log

variable {C : Crypto} {id : String} {n : Nat} {p : PgState} {row : SessionRow}
variable {ends : List Write}

private theorem countP_bearing {q : Write → Bool} (h : ∀ w, q w = true → w.On id = true)
    (ws : List Write) : (bearing id ws).countP q = ws.countP q := by
  unfold bearing
  rw [List.countP_filter]
  apply List.countP_congr
  intro w _
  simp only [Bool.and_eq_true]
  exact ⟨fun hw => hw.1, fun hw => ⟨hw, h w hw⟩⟩

private theorem Ends.joins {j : Option Join} {st : Status} {gs : List TrustGrant}
    (h : Ends C id j st gs ends) : ends.countP (fun w => w.joins id) = 0 := by
  cases h <;> rfl

private theorem Ends.decides {j : Option Join} {st : Status} {gs : List TrustGrant}
    (h : Ends C id j st gs ends) : ends.countP (fun w => w.decides id) ≤ 1 := by
  cases h <;> simp [Write.decides]

private theorem Ends.statuses {j : Option Join} {st : Status} {gs : List TrustGrant}
    (h : Ends C id j st gs ends) :
    ends.filterMap (fun w => w.status? id) = if st = .pending then [] else [st] := by
  cases h <;> simp [Write.status?]

private theorem Ends.grants {j : Option Join} {st : Status} {gs : List TrustGrant}
    (h : Ends C id j st gs ends) :
    gs.length = (if st = .approved then 1 else 0) ∧
      ∀ g ∈ gs, ∃ k, j = some k ∧ Binds C id k g := by
  cases h with
  | @approved k g granter sig hj hg =>
      refine ⟨rfl, ?_⟩
      intro g' hg'
      rw [List.mem_singleton.mp hg']
      exact ⟨k, hj, hg⟩
  | _ => exact ⟨rfl, fun g hg => absurd hg List.not_mem_nil⟩

theorem Stands.joins_le (h : Stands C id n p row ends) :
    (landed n p).countP (fun w => w.joins id) ≤ 1 := by
  have hon : ∀ w : Write, w.joins id = true → w.On id = true := by
    intro w hw
    cases w <;> first | exact hw | cases hw
  have hcount : (bearing id (landed n p)).countP (fun w => w.joins id) =
      (landed n p).countP fun w => w.joins id := countP_bearing hon _
  rw [← hcount, h.log]
  have hjoin : (row.join.toList.map (Write.recordJoin id)).countP (fun w => w.joins id) ≤ 1 := by
    cases row.join with
    | none => exact Nat.zero_le 1
    | some k => simp [Write.joins]
  have hnone := h.ends.joins
  rw [List.countP_append]
  omega

theorem Stands.decides_le (h : Stands C id n p row ends) :
    (landed n p).countP (fun w => w.decides id) ≤ 1 := by
  have hon : ∀ w : Write, w.decides id = true → w.On id = true := by
    intro w hw
    cases w <;> first | exact hw | cases hw
  have hcount : (bearing id (landed n p)).countP (fun w => w.decides id) =
      (landed n p).countP fun w => w.decides id := countP_bearing hon _
  rw [← hcount, h.log]
  have hjoin : (row.join.toList.map (Write.recordJoin id)).countP (fun w => w.decides id) = 0 := by
    cases row.join with
    | none => rfl
    | some k => rfl
  have hends := h.ends.decides
  rw [List.countP_append]
  omega

private theorem statuses_bearing (ws : List Write) :
    ws.filterMap (fun w => w.status? id) = (bearing id ws).filterMap fun w => w.status? id := by
  unfold bearing
  rw [List.filterMap_filter]
  congr 1
  funext w
  cases w <;> simp [Write.status?, Write.On]

/-- The log has the status once the row has left pending. -/
theorem Stands.statuses (h : Stands C id n p row ends) :
    (landed n p).filterMap (fun w => w.status? id) =
      if row.status = .pending then [] else [row.status] := by
  have hjoin : (row.join.toList.map (Write.recordJoin id)).filterMap
      (fun w => w.status? id) = [] := by
    cases row.join with
    | none => rfl
    | some k => rfl
  rw [statuses_bearing, h.log, List.filterMap_append, hjoin, List.nil_append]
  exact h.ends.statuses

/-- **One grant, for the joined key, exactly when it is approved.** -/
theorem Stands.grants (h : Stands C id n p row ends) :
    (p.grants.filter fun g => g.session = id).length =
        (if row.status = .approved then 1 else 0) ∧
      ∀ g ∈ p.grants.filter (fun g => g.session = id),
        ∃ j, row.join = some j ∧ Binds C id j g :=
  h.ends.grants

/-- Two threads cannot both have decided. -/
theorem Stands.decided_once (h : Stands C id n p row ends) {i j : Nat}
    (hi : DecidedBy id n i p) (hj : DecidedBy id n j p) : i = j := by
  have hcount : ∀ es : List Commit, ∀ e e' : Commit, e ∈ es → e' ∈ es → e.thread ≠ e'.thread →
      (∃ w, w ∈ e.writes ∧ w.decides id = true) → (∃ w, w ∈ e'.writes ∧ w.decides id = true) →
      2 ≤ (es.flatMap Commit.writes).countP fun w => w.decides id := by
    intro es
    induction es with
    | nil => exact fun e e' he => absurd he List.not_mem_nil
    | cons x xs ih =>
        intro e e' he he' hne hw hw'
        have hpos : ∀ e : Commit, (∃ w, w ∈ e.writes ∧ w.decides id = true) →
            0 < e.writes.countP fun w => w.decides id := by
          intro e ⟨w, hmem, hdec⟩
          exact List.countP_pos_iff.mpr ⟨w, hmem, hdec⟩
        have hmem : ∀ e ∈ xs, (∃ w, w ∈ e.writes ∧ w.decides id = true) →
            0 < (xs.flatMap Commit.writes).countP fun w => w.decides id := by
          intro e he ⟨w, hmem, hdec⟩
          exact List.countP_pos_iff.mpr ⟨w, List.mem_flatMap.mpr ⟨e, he, hmem⟩, hdec⟩
        rw [List.flatMap_cons, List.countP_append]
        rcases List.mem_cons.mp he with hx | hxs
        · rcases List.mem_cons.mp he' with hx' | hxs'
          · exact absurd (by rw [hx, hx']) hne
          · have h₁ := hpos e hw
            have h₂ := hmem e' hxs' hw'
            rw [← hx]
            omega
        · rcases List.mem_cons.mp he' with hx' | hxs'
          · have h₁ := hpos e' hw'
            have h₂ := hmem e hxs hw
            rw [← hx']
            omega
          · have hrest := ih e e' hxs hxs' hne hw hw'
            omega
  apply Classical.byContradiction
  intro hne
  obtain ⟨e, he, hti, hw⟩ := hi
  obtain ⟨e', he', htj, hw'⟩ := hj
  have htwo := hcount (p.wal.drop n) e e' he he' (by rw [hti, htj]; exact hne) hw hw'
  have hone := h.decides_le
  unfold landed at hone
  omega

end Log

/-! ## The discipline -/

/-- A call issues a statement on the session only where that is allowed. -/
def sessionDiscipline (C : Crypto) (id : String) (n : Nat) : Discipline (storeCalls C) where
  inv w := SessionInv C id n w.pg
  allowed _ i cmd w := ∀ c, cmd = .core (.pg c) → Allowed C id i c w.pg
  fresh i w := w.pg.txs i = none

variable {C : Crypto} {id : String} {n : Nat} {t : Seam} {i : Nat}

theorem Frame.of_eq {p p' : PgState} (h : p' = p) : Frame id i p p' := by
  subst h
  exact ⟨rfl, fun _ hk => hk, fun _ => rfl⟩

/-- What survives the statements of others is stable. -/
private theorem stable_frame {A : PgState → Prop}
    (hA : ∀ p p', Frame id i p p' → A p → A p') :
    (sessionDiscipline C id n).Stable i fun w => A w.pg := by
  intro w w' hother ha
  apply hA _ _ _ ha
  cases hother with
  | @act j t cmd o r hj hw _ hc hx =>
      rcases Srv.exec_pg cmd hx with he | ⟨c, r', hcmd, he⟩
      · exact Frame.of_eq he
      · exact hw.frame (hc c hcmd) (Ne.symm hj) he
  | env hw _ hx =>
      obtain ⟨tm, he⟩ := Env.step_pg hx
      rw [he]
      exact ⟨rfl, fun _ hk => hk, fun _ => rfl⟩

private theorem quiet_stable :
    (sessionDiscipline C id n).Stable i fun w => Quiet id i w.pg :=
  stable_frame fun _ _ hf h => h.frame hf

private theorem whole_stable :
    (sessionDiscipline C id n).Stable i fun w => Whole id i w.pg :=
  stable_frame fun _ _ hf h => h.frame hf

private theorem true_stable : (sessionDiscipline C id n).Stable i fun _ => True :=
  Discipline.stable_const True

/-- The log only grows. -/
theorem wal_grows {i : Nat} {c : Srv} {o : Oracle} {w w' : World} {r : c.Ans}
    (hx : c.exec i o w = some (w', r)) : ∃ more, w'.pg.wal = w.pg.wal ++ more := by
  rcases Srv.exec_pg c hx with he | ⟨pc, r', _, he⟩
  · exact ⟨[], by rw [he, List.append_nil]⟩
  · rcases PgCmd.exec_tables he with ⟨_, hw⟩ | ⟨ws, _, _, hw⟩
    · exact ⟨[], by rw [hw, List.append_nil]⟩
    · exact ⟨_, hw⟩

theorem DecidedBy.grows {p p' : PgState} (h : DecidedBy id n i p) {more : List Commit}
    (hwal : p'.wal = p.wal ++ more) : DecidedBy id n i p' := by
  obtain ⟨e, he, hthread, hw⟩ := h
  refine ⟨e, ?_, hthread, hw⟩
  rw [hwal, List.drop_append]
  exact List.mem_append_left _ he

private theorem decided_stable :
    (sessionDiscipline C id n).Stable i fun w => DecidedBy id n i w.pg := by
  intro w w' hother h
  cases hother with
  | act _ _ _ _ hx =>
      obtain ⟨more, hwal⟩ := wal_grows hx
      exact h.grows hwal
  | env _ _ hx =>
      obtain ⟨tm, he⟩ := Env.step_pg hx
      have hwal : w'.pg.wal = w.pg.wal ++ [] := by rw [he, List.append_nil]
      exact h.grows hwal

/-! ### Calls that leave the session alone -/

/-- The statement stages nothing on the session. -/
def PgCmd.Off (id : String) : PgCmd → Prop
  | .txExpirePending x => x ≠ id
  | .txRecordJoin x _ => x ≠ id
  | .txExpire x => x ≠ id
  | .txAddGrant g => g.session ≠ id
  | .txDecide x _ _ _ => x ≠ id
  | _ => True

theorem PgCmd.Off.allowed {c : PgCmd} (h : c.Off id) {p : PgState} (hq : Quiet id i p) :
    Allowed C id i c p := by
  cases c with
  | txExpirePending x => exact fun hx => absurd hx h
  | txRecordJoin x j => exact fun hx => absurd hx h
  | txExpire x => exact fun hx => absurd hx h
  | txAddGrant g => exact fun hx => absurd hx h
  | txDecide x st granter sig => exact fun hx => absurd hx h
  | commit => exact hq.whole
  | _ => trivial

theorem PgCmd.Off.stages {c : PgCmd} (h : c.Off id) {p : PgState} {w : Write}
    {ks : List LockKey} (hst : Stages p i c w ks) : w.On id = false := by
  cases hst with
  | revocation => rfl
  | revoke => rfl
  | expirePending => exact decide_eq_false h
  | expire => exact decide_eq_false h
  | join => exact decide_eq_false h
  | grant => exact decide_eq_false h
  | decide => exact decide_eq_false h

/-- Statements off the session keep a thread quiet. -/
private theorem quiet_only {β : Type} {p : Core.M β}
    (hp : p.Only fun c => ∀ pc, c = .pg pc → pc.Off id) :
    (sessionDiscipline C id n).Triple t i (fun w => Quiet id i w.pg) (Core.toSrv p)
      fun _ w => Quiet id i w.pg := by
  apply Discipline.Triple.only (only_toSrv hp) quiet_stable
  rintro _ o w ⟨cmd, rfl, hoff⟩ _ _ hq
  constructor
  · intro c hc
    exact (hoff c (by simpa using hc)).allowed hq
  · intro w₁ r hx
    rcases Srv.exec_pg (.core cmd) hx with he | ⟨c, r', hc, he⟩
    · show Quiet id i w₁.pg
      rw [he]
      exact hq
    · exact hq.exec (fun _ _ hst => (hoff c (by simpa using hc)).stages hst) he

/-- Redis and the clock are free for everybody. -/
private theorem free_only {β : Type} {A : PgState → Prop} {p : Core.M β}
    (hs : (sessionDiscipline C id n).Stable i fun w => A w.pg)
    (hp : p.Only fun c => ∀ pc, c ≠ .pg pc) :
    (sessionDiscipline C id n).Triple t i (fun w => A w.pg) (Core.toSrv p)
      fun _ w => A w.pg := by
  apply Discipline.Triple.only (only_toSrv hp) hs
  rintro _ o w ⟨cmd, rfl, hno⟩ _ _ ha
  constructor
  · intro c hc
    exact absurd (by simpa using hc) (hno c)
  · intro w₁ r hx
    rcases Srv.exec_pg (.core cmd) hx with he | ⟨c, r', hc, he⟩
    · show A w₁.pg
      rw [he]
      exact ha
    · exact absurd (by simpa using hc) (hno c)

/-- The call is a join or a decision of the session. -/
def Seam.Touches (id : String) : Seam → Prop
  | .submitJoinRequest x _ => x = id
  | .decidePairingSession x _ _ _ _ => x = id
  | _ => False

private theorem issues_off {c : Seam} (hc : ¬c.Touches id) {pc : PgCmd}
    (h : c.Issues (.pg pc)) : pc.Off id := by
  cases pc with
  | txExpirePending x =>
      rcases h with hr | hw
      · exact hr.elim
      · cases c with
        | submitJoinRequest y j => exact fun hx => hc (hw.symm.trans hx)
        | _ => exact hw.elim
  | txRecordJoin x j =>
      rcases h with hr | hw
      · exact hr.elim
      · cases c with
        | submitJoinRequest y j' => exact fun hx => hc (hw.1.symm.trans hx)
        | _ => exact hw.elim
  | txExpire x =>
      rcases h with hr | hw
      · exact hr.elim
      · cases c with
        | decidePairingSession y _ _ _ _ => exact fun hx => hc (hw.symm.trans hx)
        | _ => exact hw.elim
  | txAddGrant g =>
      rcases h with hr | hw
      · exact hr.elim
      · cases c with
        | decidePairingSession y _ _ _ _ => exact fun hx => hc (hw.2.1.symm.trans hx)
        | _ => exact hw.elim
  | txDecide x st granter sig =>
      rcases h with hr | hw
      · exact hr.elim
      · cases c with
        | decidePairingSession y _ _ _ _ => exact fun hx => hc (hw.1.symm.trans hx)
        | _ => exact hw.elim
  | _ => trivial

private theorem others_safe (c : Seam) (hc : ¬c.Touches id) :
    (sessionDiscipline C id n).Triple t i (fun w => Quiet id i w.pg)
      (Core.toSrv (combined C c)) fun _ w => Quiet id i w.pg := by
  apply quiet_only
  apply (combined_issues C c).mono
  intro cmd hissue pc he
  rw [he] at hissue
  exact issues_off hc hissue

/-! ### The join -/

/-- A quiet thread stages its first write on the session. -/
private theorem stage_first {c : PgCmd} (hall : ∀ p, Quiet id i p → Allowed C id i c p)
    (hno : ∀ p w ks, Stages p i c w ks → ∀ g, w ≠ .addGrant g) :
    (sessionDiscipline C id n).Triple t i (fun w => Quiet id i w.pg)
      (Core.toSrv (Postgres.pg c)) fun _ w => Whole id i w.pg := by
  apply Triple.pg_alone quiet_stable fun _ => whole_stable
  intro w o _ _ hq
  constructor
  · intro c' hc'
    obtain rfl : c = c' := by simpa using hc'
    exact hall _ hq
  · intro p' r hx _
    exact hq.exec_whole (hno _) hx

private theorem commit_safe :
    (sessionDiscipline C id n).Triple t i (fun w => Whole id i w.pg)
      (Core.toSrv (Postgres.pg .commit)) fun _ _ => True := by
  apply Triple.pg_alone whole_stable fun _ => true_stable
  intro w o _ _ hw
  constructor
  · intro c hc
    obtain rfl : .commit = c := by simpa using hc
    exact hw
  · exact fun _ _ _ _ => trivial

/-- The result of a statement whose error is mapped. -/
private theorem query_of_pg {c : PgCmd} {A : World → Prop} {B : Except PgErr c.Ret → World → Prop}
    {Q : Except Err c.Ret → World → Prop}
    (h : (sessionDiscipline C id n).Triple t i A (Core.toSrv (Postgres.pg c)) B)
    (hs : ∀ r, (sessionDiscipline C id n).Stable i (Q r))
    (hq : ∀ r w, B r w → Q (Postgres.reported r) w) :
    (sessionDiscipline C id n).Triple t i A (Core.toSrv (Postgres.query c)) Q := by
  unfold Postgres.query
  rw [Core.toSrv_bind]
  apply h.bind
  intro r
  cases r with
  | error e => exact Discipline.Triple.ret (hs _) fun w _ hb => hq (.error e) w hb
  | ok a => exact Discipline.Triple.ret (hs _) fun w _ hb => hq (.ok a) w hb

private theorem ret_true {β : Type} {A : World → Prop} (a : β) :
    (sessionDiscipline C id n).Triple t i A (.ret a) fun _ _ => True :=
  Discipline.Triple.ret true_stable fun _ _ _ => trivial

private theorem rollback_safe {A : World → Prop} :
    (sessionDiscipline C id n).Triple t i A (Core.toSrv (Postgres.pg .rollback))
      fun _ _ => True := by
  refine (Triple.pg_alone (A := fun _ => True) true_stable (fun _ => true_stable) ?_).pre
    fun _ _ _ => trivial
  intro w o _ _ _
  refine ⟨?_, fun _ _ _ _ => trivial⟩
  intro c hc
  obtain rfl : .rollback = c := by simpa using hc
  exact True.intro

private theorem pg_quiet {c : PgCmd} (h : c.Off id) :
    (sessionDiscipline C id n).Triple t i (fun w => Quiet id i w.pg)
      (Core.toSrv (Postgres.pg c)) fun _ w => Quiet id i w.pg := by
  apply quiet_only
  apply Postgres.only_pg
  intro pc he
  obtain rfl : c = pc := by simpa using he
  exact h

private theorem query_quiet {c : PgCmd} (h : c.Off id) :
    (sessionDiscipline C id n).Triple t i (fun w => Quiet id i w.pg)
      (Core.toSrv (Postgres.query c)) fun _ w => Quiet id i w.pg :=
  query_of_pg (pg_quiet h) (fun _ => quiet_stable) fun _ _ hq => hq

private theorem clock_free {A : PgState → Prop}
    (hs : (sessionDiscipline C id n).Stable i fun w => A w.pg) :
    (sessionDiscipline C id n).Triple t i (fun w => A w.pg) (Core.toSrv Postgres.clock)
      fun _ w => A w.pg :=
  free_only hs (Postgres.only_clock (by intro pc he; cases he))

/-- The durable half of a join. -/
private theorem pgJoin_safe (j : Join) :
    (sessionDiscipline C id n).Triple t i (fun w => Quiet id i w.pg)
      (Core.toSrv (Postgres.submitJoinRequest id j)) fun _ _ => True := by
  unfold Postgres.submitJoinRequest
  split
  · exact ret_true _
  · apply Triple.withTx (B := fun w => Quiet id i w.pg) (M := fun _ _ => True)
    · refine (pg_quiet (c := .beginTx) trivial).post ?_
      intro r w hq
      cases r with
      | error e => trivial
      | ok a => exact hq
    · rw [Core.toSrv_bind]
      apply (query_quiet (c := .txSelectSession id) trivial).bind
      intro r
      cases r with
      | error e => exact ret_true _
      | ok found =>
          cases found with
          | none => exact ret_true _
          | some row =>
              show (sessionDiscipline C id n).Triple t i _ (Core.toSrv (ite _ _ _)) _
              split
              · exact ret_true _
              · rw [Core.toSrv_bind]
                apply (clock_free quiet_stable).bind
                intro now
                show (sessionDiscipline C id n).Triple t i _ (Core.toSrv (ite _ _ _)) _
                split
                · rw [Core.toSrv_bind]
                  apply (stage_first (c := .txExpirePending id) (fun _ hq _ => hq) ?_).bind
                  · intro _
                    rw [Core.toSrv_bind]
                    exact commit_safe.bind fun _ => ret_true _
                  · intro p w ks hst g
                    cases hst
                    intro he
                    cases he
                · split
                  · exact ret_true _
                  · rw [Core.toSrv_bind]
                    apply (query_of_pg (stage_first (c := .txRecordJoin id j)
                      (fun _ hq _ => hq) ?_) (fun _ => whole_stable) fun _ _ hw => hw).bind
                    · intro r
                      cases r with
                      | error e => exact ret_true _
                      | ok count =>
                          show (sessionDiscipline C id n).Triple t i _ (Core.toSrv (ite _ _ _)) _
                          split
                          · exact ret_true _
                          · exact query_of_pg commit_safe (fun _ => true_stable)
                              fun _ _ _ => trivial
                    · intro p w ks hst g
                      cases hst
                      intro he
                      cases he
    · exact fun _ => rollback_safe
    · exact fun _ => true_stable

private theorem mark_free {A : PgState → Prop} (st : Status)
    (hs : (sessionDiscipline C id n).Stable i fun w => A w.pg) :
    (sessionDiscipline C id n).Triple t i (fun w => A w.pg)
      (Core.toSrv (Redis.markPairingConsumed id st)) fun _ w => A w.pg := by
  apply free_only hs
  apply Redis.only_markPairingConsumed
  · intro pc he
    cases he
  · intro c hc pc he
    rw [he] at hc
    exact hc

private theorem join_safe (j : Join) :
    (sessionDiscipline C id n).Triple t i (fun w => Quiet id i w.pg)
      (Core.toSrv (Combined.submitJoinRequest id j)) fun _ _ => True := by
  unfold Combined.submitJoinRequest
  rw [Core.toSrv_bind]
  apply (free_only (A := Quiet id i) quiet_stable ?_).bind
  · intro r
    cases r with
    | error e =>
        show (sessionDiscipline C id n).Triple t i _ (Core.toSrv (ite _ _ _)) _
        split
        · exact ret_true _
        · exact pgJoin_safe j
    | ok a =>
        show (sessionDiscipline C id n).Triple t i _
          (Core.toSrv (Postgres.submitJoinRequest id j >>= _)) _
        rw [Core.toSrv_bind]
        apply (pgJoin_safe j).bind
        intro r
        cases r with
        | error e =>
            show (sessionDiscipline C id n).Triple t i _
              (Core.toSrv (Redis.markPairingConsumed id .consumed >>= _)) _
            rw [Core.toSrv_bind]
            exact (mark_free (A := fun _ => True) .consumed true_stable).bind
              fun _ => ret_true _
        | ok a => exact ret_true _
  · apply Redis.only_submitJoinRequest
    all_goals intros
    all_goals intro he
    all_goals cases he

/-! ### The decision -/

/-- The thread reads the row it has locked. -/
structure Locked (id : String) (i : Nat) (p : PgState) (row : SessionRow) : Prop where
  quiet : Quiet id i p
  lock : p.locks (.session id) = some i
  shown : p.session id = some row

theorem Locked.frame {p p' : PgState} {row : SessionRow} (h : Locked id i p row)
    (hf : Frame id i p p') : Locked id i p' row := by
  refine ⟨h.quiet.frame hf, hf.locks _ h.lock, ?_⟩
  rw [hf.row h.lock]
  exact h.shown

theorem Locked.holds {p : PgState} {row : SessionRow} (h : Locked id i p row)
    (hp : row.status = .pending) : Holds id i p row := ⟨h.lock, h.shown, hp⟩

private theorem locked_stable {row : SessionRow} :
    (sessionDiscipline C id n).Stable i fun w => Locked id i w.pg row :=
  stable_frame (A := fun p => Locked id i p row) fun _ _ hf h => h.frame hf

/-- What a call that returns nil must show. -/
def Shows (id : String) (n i : Nat) (r : Except Err Unit) (w : World) : Prop :=
  r = .ok () → DecidedBy id n i w.pg

private theorem shows_stable (r : Except Err Unit) :
    (sessionDiscipline C id n).Stable i (Shows id n i r) :=
  Discipline.Stable.imp fun _ => decided_stable

private theorem shows_error {A : World → Prop} (e : Err) :
    (sessionDiscipline C id n).Triple t i A (.ret (.error e)) (Shows id n i) :=
  Discipline.Triple.ret (shows_stable _) fun _ _ _ he => by cases he

/-- The transaction is ready: its decision is the last write. -/
structure Ready (id : String) (i : Nat) (p : PgState) : Prop where
  whole : Whole id i p
  decision : ∃ tx w, p.txs i = some tx ∧ w ∈ tx.writes ∧ w.decides id = true

private theorem ready_stable : (sessionDiscipline C id n).Stable i fun w => Ready id i w.pg := by
  apply stable_frame
  intro p p' hf h
  refine ⟨h.whole.frame hf, ?_⟩
  rw [hf.tx]
  exact h.decision

/-- A decision that was staged is ready. -/
private theorem decide_ready {p p' : PgState} {st : Status} {granter : String} {sig : Bytes}
    {f : Fault} (hx : (PgCmd.txDecide id st granter sig).exec i f p = some (p', .ok ())) :
    Ready id i p' := by
  have hstep := PgCmd.exec_ok hx
  simp only [PgCmd.step] at hstep
  rcases PgCmd.inTx_cases hstep with ⟨_, he⟩ | ⟨tx, htx, hlive, hk⟩
  · cases he
  · split at hk
    · simp only [Option.some.injEq, Prod.mk.injEq] at hk
      obtain ⟨rfl, _⟩ := hk
      have hself : (lock (stage p i tx (.decideSession id st granter sig)) i
          (.session id)).txs i =
          some { tx with writes := tx.writes ++ [.decideSession id st granter sig] } := by
        rw [lock_txs]
        exact setTx_self p i _
      constructor
      · intro tx' htx' _ g hg
        rw [hself] at htx'
        obtain rfl := Option.some.inj htx'
        have hon : (Write.decideSession id st granter sig).On id = true := by simp [Write.On]
        have hlast := bearing_on hon tx.writes
        rw [hg] at hlast
        have hlen := congrArg List.getLast? hlast
        simp at hlen
      · exact ⟨_, _, hself, List.mem_append_right _ List.mem_cons_self, by simp [Write.decides]⟩
    · cases hk

/-- **The commit of a ready transaction** puts the decision into the log. -/
private theorem commit_shows :
    (sessionDiscipline C id n).Triple t i (fun w => Ready id i w.pg)
      (Core.toSrv (Postgres.pg .commit)) fun r w => r = .ok () → DecidedBy id n i w.pg := by
  apply Triple.pg_alone ready_stable
    fun _ => Discipline.Stable.imp fun _ => decided_stable
  intro w o hinv _ hready
  constructor
  · intro c hc
    obtain rfl : .commit = c := by simpa using hc
    exact hready.whole
  · intro p' r hx _ hr
    subst hr
    obtain ⟨tx, wr, htx, hmem, hdec⟩ := hready.decision
    have hstep := PgCmd.exec_ok hx
    simp only [PgCmd.step, htx] at hstep
    split at hstep
    · simp at hstep
    · simp only [Option.some.injEq, Prod.mk.injEq] at hstep
      obtain ⟨rfl, _⟩ := hstep
      refine ⟨⟨i, tx.writes⟩, ?_, rfl, wr, hmem, hdec⟩
      show _ ∈ (closeTx (commitWrites w.pg i tx.writes) i).wal.drop n
      rw [closeTx_wal, commitWrites_wal, List.drop_append_of_le_length hinv.size]
      exact List.mem_append_right _ List.mem_cons_self

/-- The `UPDATE` that decides, and the commit. -/
private theorem finish_safe {row : SessionRow} {st : Status} {granter : String} {sig : Bytes} :
    (sessionDiscipline C id n).Triple t i
      (fun w => Holds id i w.pg row ∧ Decides C id i w.pg row st)
      (Core.toSrv (Postgres.finishDecision id st granter sig)) (Shows id n i) := by
  unfold Postgres.finishDecision
  rw [Core.toSrv_bind]
  apply Discipline.Triple.bind (B := fun r w => r = .ok () → Ready id i w.pg)
  · apply Triple.query
    · exact stable_frame (A := fun p => Holds id i p row ∧ Decides C id i p row st)
        fun _ _ hf h => ⟨h.1.frame hf, h.2.frame hf⟩
    · exact fun _ => Discipline.Stable.imp fun _ => ready_stable
    · intro w o _ _ ha
      constructor
      · intro c hc
        obtain rfl : .txDecide id st granter sig = c := by simpa using hc
        exact fun _ => ⟨row, ha⟩
      · intro p' r hx _ hr
        cases r with
        | error e => cases hr
        | ok a => exact decide_ready hx
  · intro r
    cases r with
    | error e => exact shows_error e
    | ok a =>
        refine Discipline.Triple.pre (A := fun w => Ready id i w.pg) ?_ fun w _ h => h rfl
        show (sessionDiscipline C id n).Triple t i _ (Core.toSrv (Postgres.pg .commit >>= _)) _
        rw [Core.toSrv_bind]
        apply commit_shows.bind
        intro r
        cases r with
        | error e => exact shows_error _
        | ok a => exact Discipline.Triple.ret (shows_stable _) fun w _ h _ => h rfl

/-- `SELECT ... FOR UPDATE` returns the row with its lock. -/
private theorem select_locks :
    (sessionDiscipline C id n).Triple t i (fun w => Quiet id i w.pg)
      (Core.toSrv (Postgres.query (.txSelectForUpdate id)))
      fun r w => ∀ row, r = .ok (some row) → Locked id i w.pg row := by
  apply Triple.query quiet_stable fun r => Discipline.Stable.all fun row =>
    Discipline.Stable.imp fun _ => locked_stable
  intro w o _ _ hq
  constructor
  · intro c hc
    obtain rfl : .txSelectForUpdate id = c := by simpa using hc
    trivial
  · intro p' r hx _ row hr
    have hquiet : Quiet id i p' := by
      apply hq.exec _ hx
      intro w ks hst
      cases hst
    cases r with
    | error e => cases hr
    | ok found =>
        have hfound : found = some row := Except.ok.inj hr
        subst hfound
        have hstep := PgCmd.exec_ok hx
        simp only [PgCmd.step] at hstep
        rcases PgCmd.inTx_cases hstep with ⟨_, he⟩ | ⟨tx, _, _, hk⟩
        · cases he
        · split at hk
          · simp at hk
          · rename_i s hs
            split at hk
            · simp only [Option.some.injEq, Prod.mk.injEq, Except.ok.injEq] at hk
              obtain ⟨rfl, rfl⟩ := hk
              exact ⟨hquiet, lock_self _ _ _, hs⟩
            · cases hk

/-- Looking the device up keeps what the thread has. -/
private theorem lookup_locked {row : SessionRow} {user : String} {pub : Bytes} :
    (sessionDiscipline C id n).Triple t i (fun w => Locked id i w.pg row)
      (Core.toSrv (Postgres.pg (.txDeviceByKey user pub))) fun _ w => Locked id i w.pg row := by
  apply Triple.pg_alone locked_stable fun _ => locked_stable
  intro w o _ _ hl
  constructor
  · intro c hc
    obtain rfl : .txDeviceByKey user pub = c := by simpa using hc
    trivial
  · intro p' r hx _
    have hquiet : Quiet id i p' := by
      apply hl.quiet.exec _ hx
      intro w ks hst
      cases hst
    have hsame : p'.locks = w.pg.locks ∧ p'.toTables = w.pg.toTables := by
      have hread : ∀ q r', (PgCmd.txDeviceByKey user pub).step i w.pg = some (q, r') →
          q = w.pg := by
        intro q r' hs
        simp only [PgCmd.step] at hs
        rcases PgCmd.inTx_cases hs with ⟨hq, _⟩ | ⟨tx, _, _, hk⟩
        · exact hq
        · simp only [Option.some.injEq, Prod.mk.injEq] at hk
          exact hk.1.symm
      rcases PgCmd.exec_cases hx with hs | ⟨_, _, hp⟩ | ⟨q, r', _, hs, _, hp⟩
      · rw [hread _ _ hs]
        exact ⟨rfl, rfl⟩
      · rw [hp]
        exact ⟨abortTx_locks _ i, abortTx_toTables _ i⟩
      · rw [hp, hread _ _ hs]
        exact ⟨abortTx_locks _ i, abortTx_toTables _ i⟩
    refine ⟨hquiet, ?_, ?_⟩
    · show p'.locks (.session id) = some i
      rw [hsame.1]
      exact hl.lock
    · show p'.toTables.session id = some row
      rw [hsame.2]
      exact hl.shown

/-- The grant is staged under the lock. -/
private theorem grant_staged {row : SessionRow} {j : Join} {g : TrustGrant}
    (hp : row.status = .pending) (hj : row.join = some j) (hg : Binds C id j g) :
    (sessionDiscipline C id n).Triple t i (fun w => Locked id i w.pg row)
      (Core.toSrv (Postgres.query (.txAddGrant g)))
      fun r w => r = .ok () → Holds id i w.pg row ∧ Decides C id i w.pg row .approved := by
  apply Triple.query locked_stable fun r => Discipline.Stable.imp fun _ =>
    stable_frame (A := fun p => Holds id i p row ∧ Decides C id i p row .approved)
      fun _ _ hf h => ⟨h.1.frame hf, h.2.frame hf⟩
  intro w o _ _ hl
  constructor
  · intro c hc
    obtain rfl : .txAddGrant g = c := by simpa using hc
    exact fun _ => ⟨hl.quiet, row, j, hl.holds hp, hj, hg⟩
  · intro p' r hx _ hr
    cases r with
    | error e => cases hr
    | ok a =>
        have hstep := PgCmd.exec_ok hx
        simp only [PgCmd.step] at hstep
        rcases PgCmd.inTx_cases hstep with ⟨_, he⟩ | ⟨tx, htx, hlive, hk⟩
        · cases he
        · simp only [Option.some.injEq, Prod.mk.injEq] at hk
          obtain ⟨rfl, _⟩ := hk
          refine ⟨⟨hl.lock, hl.shown, hp⟩, j, g, hj, hg, ?_⟩
          intro tx' htx' _
          have hself : (stage w.pg i tx (.addGrant g)).txs i =
              some { tx with writes := tx.writes ++ [.addGrant g] } := setTx_self w.pg i _
          have hon : (Write.addGrant g).On id = true := by simp [Write.On, hg.session]
          rw [show (stage w.pg i tx (.addGrant g)).txs i = _ from hself] at htx'
          obtain rfl := Option.some.inj htx'
          show bearing id (tx.writes ++ [.addGrant g]) = [.addGrant g]
          rw [bearing_on hon, hl.quiet tx htx hlive]
          rfl

/-- A decision past the expiry. -/
private theorem expire_shows {row : SessionRow} (hp : row.status = .pending) :
    (sessionDiscipline C id n).Triple t i (fun w => Locked id i w.pg row)
      (Core.toSrv (Postgres.query (.txExpire id))) fun _ w => Whole id i w.pg := by
  apply Triple.query locked_stable fun _ => whole_stable
  intro w o _ _ hl
  constructor
  · intro c hc
    obtain rfl : .txExpire id = c := by simpa using hc
    exact fun _ => ⟨hl.quiet, row, hl.holds hp⟩
  · intro p' r hx _
    apply hl.quiet.exec_whole _ hx
    intro w ks hst g
    cases hst
    intro he
    cases he

/-- The durable decision. -/
private theorem pgDecide_safe (approve : Bool) (pub sig : Bytes) (granter : String) :
    (sessionDiscipline C id n).Triple t i (fun w => Quiet id i w.pg)
      (Core.toSrv (Postgres.decidePairingSession C id approve pub sig granter))
      (Shows id n i) := by
  unfold Postgres.decidePairingSession
  apply Triple.withTx (B := fun w => Quiet id i w.pg) (M := Shows id n i)
  · refine (pg_quiet (c := .beginTx) trivial).post ?_
    intro r w hq
    cases r with
    | error e =>
        intro he
        cases he
    | ok a => exact hq
  · rw [Core.toSrv_bind]
    apply select_locks.bind
    intro r
    cases r with
    | error e => exact shows_error e
    | ok found =>
        cases found with
        | none => exact shows_error _
        | some row =>
            refine Discipline.Triple.pre (A := fun w => Locked id i w.pg row) ?_
              fun w _ h => h row rfl
            show (sessionDiscipline C id n).Triple t i _ (Core.toSrv (Postgres.clock >>= _)) _
            rw [Core.toSrv_bind]
            apply (clock_free (A := fun p => Locked id i p row) locked_stable).bind
            intro now
            show (sessionDiscipline C id n).Triple t i _ (Core.toSrv (ite _ _ _)) _
            split
            · exact shows_error _
            · rename_i hpending
              have hp : row.status = .pending := Classical.byContradiction hpending
              split
              · rw [Core.toSrv_bind]
                apply (expire_shows hp).bind
                intro r
                cases r with
                | error e => exact shows_error e
                | ok a =>
                    show (sessionDiscipline C id n).Triple t i _
                      (Core.toSrv (Postgres.query .commit >>= _)) _
                    rw [Core.toSrv_bind]
                    apply (query_of_pg commit_safe (fun _ => true_stable)
                      fun _ _ _ => trivial).bind
                    intro r
                    cases r with
                    | error e => exact shows_error e
                    | ok a => exact shows_error _
              · split
                · cases hj : row.join with
                  | none => exact shows_error _
                  | some j =>
                      show (sessionDiscipline C id n).Triple t i _ (Core.toSrv (ite _ _ _)) _
                      split
                      · exact shows_error _
                      · rename_i hkey
                        have hpub : pub = j.pubKey := by
                          rw [not_or] at hkey
                          exact Classical.byContradiction hkey.2
                        rw [Core.toSrv_bind]
                        apply lookup_locked.bind
                        intro found
                        show (sessionDiscipline C id n).Triple t i _
                          (Core.toSrv (Postgres.query (.txAddGrant _) >>= _)) _
                        rw [Core.toSrv_bind]
                        refine Discipline.Triple.bind (grant_staged hp hj ?_) ?_
                        · exact ⟨rfl, hpub, by rw [← hpub]⟩
                        · intro r
                          cases r with
                          | error e => exact shows_error e
                          | ok a => exact finish_safe.pre fun w _ h => h rfl
                · exact finish_safe.pre fun w _ h => ⟨h.holds hp, h.quiet⟩
  · intro r
    apply Triple.pg_alone (shows_stable r) fun _ => shows_stable r
    intro w o _ _ hshows
    constructor
    · intro c hc
      obtain rfl : .rollback = c := by simpa using hc
      exact True.intro
    · intro p' r' hx _ hr
      rcases PgCmd.exec_tables hx with ⟨_, hw⟩ | ⟨ws, _, _, hw⟩
      · have hwal : p'.wal = w.pg.wal ++ [] := by rw [List.append_nil, hw]
        exact (hshows hr).grows hwal
      · exact (hshows hr).grows hw
  · exact shows_stable

private theorem decideDurably_safe (approve : Bool) (pub sig : Bytes) (granter : String) :
    (sessionDiscipline C id n).Triple t i (fun w => Quiet id i w.pg)
      (Core.toSrv (Combined.decideDurably C id approve pub sig granter)) (Shows id n i) := by
  unfold Combined.decideDurably
  rw [Core.toSrv_bind]
  apply (pgDecide_safe approve pub sig granter).bind
  intro r
  cases r with
  | error e =>
      show (sessionDiscipline C id n).Triple t i _ (Core.toSrv (ite _ _ _)) _
      split
      · refine Discipline.Triple.pre (A := fun _ => True) ?_ fun _ _ _ => trivial
        rw [Core.toSrv_bind]
        exact (mark_free (A := fun _ => True) .consumed true_stable).bind fun _ => shows_error e
      · exact shows_error e
  | ok a =>
      refine Discipline.Triple.pre (A := fun w => DecidedBy id n i w.pg) ?_ fun w _ h => h rfl
      show (sessionDiscipline C id n).Triple t i _
        (Core.toSrv (Redis.markPairingConsumed id _ >>= _)) _
      rw [Core.toSrv_bind]
      apply (mark_free (A := DecidedBy id n i) _ decided_stable).bind
      intro _
      exact Discipline.Triple.ret (shows_stable _) fun w _ h _ => h

private theorem decide_safe (approve : Bool) (pub sig : Bytes) (granter : String) :
    (sessionDiscipline C id n).Triple t i (fun w => Quiet id i w.pg)
      (Core.toSrv (Combined.decidePairingSession C id approve pub sig granter))
      (Shows id n i) := by
  unfold Combined.decidePairingSession
  rw [Core.toSrv_bind]
  apply (free_only (A := Quiet id i) quiet_stable ?_).bind
  · intro r
    cases r with
    | error e =>
        show (sessionDiscipline C id n).Triple t i _ (Core.toSrv (ite _ _ _)) _
        split
        · exact shows_error e
        · exact decideDurably_safe approve pub sig granter
    | ok a => exact decideDurably_safe approve pub sig granter
  · apply Redis.only_checkPairingLive
    · intro pc he
      cases he
    · intro pc he
      cases he

/-! ### Every call -/

/-- What a call has returned. -/
def Returns (id : String) (n : Nat) (t : Seam) (i : Nat) (r : Bool) (w : World) : Prop :=
  t.isDecideOf id = true → r = true → DecidedBy id n i w.pg

private theorem returns_stable (t : Seam) (r : Bool) :
    (sessionDiscipline C id n).Stable i (Returns id n t i r) :=
  Discipline.Stable.imp fun _ => Discipline.Stable.imp fun _ => decided_stable

private theorem returns_free {β : Type} {c : Seam} {A : World → Prop} {p : Core.M β}
    {f : β → Bool} {B : β → World → Prop}
    (h : (sessionDiscipline C id n).Triple t i A (Core.toSrv p) B)
    (hc : ∀ a w, B a w → Returns id n c i (f a) w) :
    (sessionDiscipline C id n).Triple t i A (Core.toSrv (p >>= fun a => .ret (f a)))
      (Returns id n c i) := by
  rw [Core.toSrv_bind]
  apply h.bind
  intro a
  exact Discipline.Triple.ret (returns_stable c _) fun w _ hb => hc a w hb

private theorem call_safe (c : Seam) :
    (sessionDiscipline C id n).Triple t i (fun w => Quiet id i w.pg) (storeCode C c)
      (Returns id n c i) := by
  have hno : ∀ c' : Seam, c'.isDecideOf id = false → ∀ r w, Returns id n c' i r w := by
    intro c' hc' r w hyes
    rw [hc'] at hyes
    cases hyes
  by_cases hc : c.Touches id
  · cases c with
    | submitJoinRequest x j =>
        obtain rfl : x = id := hc
        exact returns_free (join_safe j) fun _ _ _ => hno _ rfl _ _
    | decidePairingSession x approve pub sig granter =>
        obtain rfl : x = id := hc
        refine returns_free (decide_safe approve pub sig granter) ?_
        intro r w hshows _ hr
        cases r with
        | error e => cases hr
        | ok a => exact hshows rfl
    | _ => exact hc.elim
  · refine returns_free (others_safe c hc) fun _ _ _ => hno c ?_ _ _
    cases c with
    | decidePairingSession x approve pub sig granter => exact decide_eq_false hc
    | _ => rfl

/-! ## All runs -/

/-- The session was created, and no call runs. -/
structure Created (id : String) (c : StoreConfig) : Prop where
  idle : c.pool = []
  closed : ∀ i, c.world.pg.txs i = none
  row : ∃ row, c.world.pg.session id = some row ∧ row.status = .pending ∧ row.join = none
  grants : (c.world.pg.grants.filter fun g => g.session = id) = []

theorem Created.inv {c : StoreConfig} (h : Created id c) :
    SessionInv C id c.world.pg.wal.length c.world.pg := by
  obtain ⟨row, hrow, hstatus, hjoin⟩ := h.row
  refine ⟨Nat.le_refl _, ⟨row, [], hrow, ?_, ?_⟩, ?_⟩
  · unfold landed
    rw [List.drop_length, hjoin]
    rfl
  · rw [h.grants, hstatus]
    exact .open
  · intro i tx htx
    rw [h.closed i] at htx
    cases htx

/-- **The invariant of the session**, and what the calls that returned show. -/
theorem session_invariant {c₀ c : StoreConfig} (h₀ : Created id c₀)
    (h : (storeCalls C).Reach (fun _ _ => True) c₀ c) :
    SessionInv C id c₀.world.pg.wal.length c.world.pg ∧
      ∀ i t r, c.pool[i]? = some (t, .ret r) →
        Returns id c₀.world.pg.wal.length t i r c.world := by
  have hreach :=
    (sessionDiscipline C id c₀.world.pg.wal.length).presumes_any trivial trivial h
  have hsound := Discipline.sound (D := sessionDiscipline C id c₀.world.pg.wal.length)
    (Q := fun t i => Returns id c₀.world.pg.wal.length t i)
    ?_ ?_ ?_ ?_ h₀.inv ?_ ?_ hreach
  · refine ⟨hsound.2.1, ?_⟩
    intro i t r hi
    exact (hsound.2.2.2 i t _ hi).returned
  · intro t j cmd o w w' r hinv _ hall hx
    rcases Srv.exec_pg cmd hx with he | ⟨pc, r', hcmd, he⟩
    · show SessionInv C id _ w'.pg
      rw [he]
      exact hinv
    · exact hinv.exec (hall pc hcmd) he
  · intro e w w' hinv _ hx
    obtain ⟨tm, he⟩ := Env.step_pg hx
    show SessionInv C id _ w'.pg
    rw [he]
    exact hinv.clock tm
  · intro i _
    exact stable_frame (A := fun p => p.txs i = none) fun p p' hf hp => hf.tx.trans hp
  · intro t i w _ hinv hfresh
    apply (call_safe t).safe hinv
    intro tx htx
    rw [show w.pg.txs i = none from hfresh] at htx
    cases htx
  · exact fun i _ => h₀.closed i
  · intro i t p hi
    rw [h₀.idle] at hi
    cases hi

/-- The log of a run only grows. -/
theorem reach_wal {c c' : StoreConfig} (h : (storeCalls C).Reach (fun _ _ => True) c c') :
    ∃ more, c'.world.pg.wal = c.world.pg.wal ++ more := by
  refine System.Reach.keeps (I := fun w => ∃ more, w.pg.wal = c.world.pg.wal ++ more)
    ?_ ?_ h ⟨[], (List.append_nil _).symm⟩
  · intro i cmd o w w' r hx hlog
    obtain ⟨more, hmore⟩ := hlog
    obtain ⟨more', hmore'⟩ := wal_grows hx
    exact ⟨more ++ more', by rw [hmore', hmore, List.append_assoc]⟩
  · intro e w w' hx hlog
    obtain ⟨tm, he⟩ := Env.step_pg hx
    rw [he]
    exact hlog

/-- **Single join and single decision.**  From a created session on, in every
state that any calls of the combined store reach: at most one join was
recorded; of the decisions at most one has returned nil; there is one grant,
for the key that joined, exactly when the session is approved; and a status
that is not pending stays. -/
theorem single_join_single_decision {c₀ c : StoreConfig} (h₀ : Created id c₀)
    (h : (storeCalls C).Reach (fun _ _ => True) c₀ c) :
    (landed c₀.world.pg.wal.length c.world.pg).countP (fun w => w.joins id) ≤ 1 ∧
      (∀ (i j : Nat) (t t' : Seam), c.pool[i]? = some (t, .ret true) → c.pool[j]? = some (t', .ret true) →
        t.isDecideOf id = true → t'.isDecideOf id = true → i = j) ∧
      ∃ row, c.world.pg.session id = some row ∧
        (c.world.pg.grants.filter fun g => g.session = id).length =
          (if row.status = .approved then 1 else 0) ∧
        (∀ g ∈ c.world.pg.grants.filter (fun g => g.session = id),
          ∃ j, row.join = some j ∧ Binds C id j g) ∧
        (row.status ≠ .pending →
          ∀ c', (storeCalls C).Reach (fun _ _ => True) c c' →
            ∃ row', c'.world.pg.session id = some row' ∧ row'.status = row.status) := by
  obtain ⟨hinv, hreturns⟩ := session_invariant h₀ h
  obtain ⟨row, ends, hstands⟩ := hinv.stands
  refine ⟨hstands.joins_le, ?_, row, hstands.shown, hstands.grants.1, hstands.grants.2, ?_⟩
  · intro i j t t' hi hj ht ht'
    exact hstands.decided_once (hreturns i t true hi ht rfl) (hreturns j t' true hj ht' rfl)
  · intro hleft c' h'
    obtain ⟨row', ends', hstands'⟩ := (session_invariant h₀ (h.trans h')).1.stands
    refine ⟨row', hstands'.shown, ?_⟩
    -- the log had the status already, and it has only one
    obtain ⟨more, hmore⟩ := reach_wal h'
    have hlog : landed c₀.world.pg.wal.length c'.world.pg =
        landed c₀.world.pg.wal.length c.world.pg ++ more.flatMap Commit.writes := by
      unfold landed
      rw [hmore, List.drop_append_of_le_length hinv.size, List.flatMap_append]
    have hnow := hstands'.statuses
    rw [hlog, List.filterMap_append, hstands.statuses, if_neg hleft] at hnow
    by_cases hp : row'.status = .pending
    · rw [if_pos hp] at hnow
      cases hnow
    · rw [if_neg hp] at hnow
      have hhead := List.cons.inj hnow
      exact hhead.1.symm

namespace Sample

/-- A created session, and no call that runs. -/
def createdSession : StoreConfig where
  world := { pg := { users := ["US-1"], sessions := [{
    id := session, userId := "US-1", createdBy := "PH-1", status := .pending,
    expiresAt := 600 * Time.second, qrNonce := "nonce" }] } }
  pool := []

/-- A join, an approval, and a rejection that comes too late. -/
def decidedTwice : StoreConfig :=
  [Seam.submitJoinRequest session ⟨computerKey, computerFp, "Desk", "rq-1"⟩,
    .decidePairingSession session true computerKey approvalSig "PH-1",
    .decidePairingSession session false [] [] "PH-1"].foldl
      (fun c call => (storeCalls crypto).serve c call (seed 1)) createdSession

theorem created_session : Created session createdSession :=
  ⟨rfl, fun _ => rfl, ⟨_, rfl, rfl, rfl⟩, rfl⟩

theorem decidedTwice_reach :
    (storeCalls crypto).Reach (fun _ _ => True) createdSession decidedTwice := by
  have hfold : ∀ (calls : List Seam) (c : StoreConfig),
      (storeCalls crypto).Reach (fun _ _ => True) c
        (calls.foldl (fun c call => (storeCalls crypto).serve c call (seed 1)) c) := by
    intro calls
    induction calls with
    | nil => exact fun c => .refl
    | cons call calls ih => exact fun c => (System.serve_reach c call (seed 1)).trans (ih _)
  exact hfold _ _

end Sample

/-- The session is approved, and the one grant is for the key that joined. -/
theorem single_join_single_decision_sample :
    ((Sample.decidedTwice.world.pg.session Sample.session).map SessionRow.status =
        some .approved) ∧
      (Sample.decidedTwice.world.pg.grants.filter
        fun g => g.session = Sample.session).length = 1 := by
  have hstatus : (Sample.decidedTwice.world.pg.session Sample.session).map SessionRow.status =
      some .approved := by decide
  obtain ⟨_, _, row, hrow, hgrants, _⟩ :=
    single_join_single_decision Sample.created_session Sample.decidedTwice_reach
  rw [hrow] at hstatus
  have happroved : row.status = .approved := Option.some.inj hstatus
  rw [if_pos happroved] at hgrants
  refine ⟨?_, hgrants⟩
  rw [hrow]
  exact hstatus

end Calcar
