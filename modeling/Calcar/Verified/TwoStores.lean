import Calcar.Lib.Events
import Calcar.Store.Memory
import Calcar.Verified.RevokeMarks
import Calcar.Verified.SessionLog

/-!
# The two stores on pairing sessions

The in-memory store and the combined store answer the four pairing methods.  They
agree on a session that is created in time for a known user, joined in time, and
then left, rejected or asked about in time.  Beyond that they differ: in the order
of their checks, at the deadline, on a mismatched key, on a rejection without a
join, on a text that Postgres refuses, and on the grant of an approval.

## Main results

* `create_agrees`, `get_agrees`, `submit_agrees`, `decide_agrees` — one call.
* `stores_agree` — a run of aligned calls.
* `stores_differ` — an approval.
-/

namespace Calcar.TwoStores

open Lib Pg Rd

variable {w w' w₁ : World} {id : String}

/-! ## Programs alone -/

section Quiet

variable {α β : Type}

theorem quietly_bind {p : Core.M α} {f : α → Core.M β} {a : α}
    (hp : quietly p w = some (a, w₁)) : quietly (p >>= f) w = quietly (f a) w₁ := by
  unfold quietly at hp ⊢
  induction p generalizing w with
  | ret b =>
      obtain ⟨rfl, rfl⟩ := Prod.mk.inj (Option.some.inj hp)
      rfl
  | call c k ih =>
      show Prog.eval Core.exec 0 (.call c fun r => k r >>= f) (fun _ => {}) w = _
      rw [Prog.eval] at hp ⊢
      cases hx : Core.exec 0 c {} w with
      | none =>
          rw [hx] at hp
          cases hp
      | some x =>
          rw [hx] at hp
          exact ih x.2 hp

theorem quietly_rd {c : RdCmd} {f : Except Err c.Ret → Core.M α} :
    quietly (Redis.rd c >>= f) w =
      quietly (f (.ok (c.step 0 w.rd).2)) (w.setRd (c.step 0 w.rd).1) := rfl

theorem quietly_now {f : Time → Core.M α} :
    quietly (Core.perform .now >>= f) w = quietly (f w.clock) w := rfl

theorem quietly_pg {c : PgCmd} {p : PgState} {r : Except PgErr c.Ret}
    (hc : c.refused = false) (h : c.step 0 w.pg = some (p, r)) :
    quietly (Postgres.pg c) w = some (r, w.setPg p) := by
  unfold quietly Postgres.pg Core.perform Prog.perform
  rw [Prog.eval, Core.exec, PgCmd.exec_none hc, h]
  rfl

theorem quietly_query {c : PgCmd} {p : PgState} {r : Except PgErr c.Ret}
    (hc : c.refused = false) (h : c.step 0 w.pg = some (p, r)) :
    quietly (Postgres.query c) w = some (Postgres.reported r, w.setPg p) := by
  unfold Postgres.query
  rw [quietly_bind (quietly_pg hc h)]
  cases r with
  | error e => rfl
  | ok a => rfl

/-- The world inside a transaction that has just begun. -/
def begun (w : World) : World := w.setPg (setTx w.pg 0 (some {}))

/-- The world after the rollback that ends every transaction. -/
def closed (w : World) : World := w.setPg (closeTx w.pg 0)

theorem quietly_withTx {body : Core.M (Except Err α)} {r : Except Err α}
    (h : quietly body (begun w) = some (r, w₁)) :
    quietly (Postgres.withTx body) w = some (r, closed w₁) := by
  have hbegin : (PgCmd.beginTx).step 0 w.pg = some (setTx w.pg 0 (some {}), .ok ()) := rfl
  have hend : (PgCmd.rollback).step 0 w₁.pg = some (closeTx w₁.pg 0, .ok ()) := rfl
  unfold Postgres.withTx
  rw [quietly_bind (quietly_pg rfl hbegin)]
  show quietly (body >>= fun r => Postgres.pg .rollback >>= fun _ => .ret r) (begun w) = _
  rw [quietly_bind h, quietly_bind (quietly_pg rfl hend)]
  rfl

end Quiet

/-! ## What a call leaves alone -/

/-- No row is locked. -/
def Free (p : PgState) : Prop := ∀ k, p.locks k = none

/-- Nothing but the session changes, no grant is written, and no time passes. -/
structure Touches (id : String) (w w' : World) : Prop where
  clock : w'.clock = w.clock
  now : w'.rd.now = w.rd.now
  free : Free w'.pg
  grants : w'.pg.grants = w.pg.grants
  rows : ∀ x, x ≠ id → w'.pg.session x = w.pg.session x
  keys : ∀ x, x ≠ id → w'.rd.pairing x = w.rd.pairing x

theorem Touches.refl (h : Free w.pg) : Touches id w w :=
  ⟨rfl, rfl, h, rfl, fun _ _ => rfl, fun _ _ => rfl⟩

theorem Touches.trans (h : Touches id w w₁) (h' : Touches id w₁ w') : Touches id w w' where
  clock := h'.clock.trans h.clock
  now := h'.now.trans h.now
  free := h'.free
  grants := h'.grants.trans h.grants
  rows x hx := (h'.rows x hx).trans (h.rows x hx)
  keys x hx := (h'.keys x hx).trans (h.keys x hx)

/-- What was locked is the thread's own. -/
theorem free_close {p : PgState} (h : ∀ k, p.locks k = none ∨ p.locks k = some 0) :
    Free (closeTx p 0) := by
  intro k
  show (if p.locks k = some 0 then none else p.locks k) = none
  obtain hk | hk := h k
  · rw [hk]
    rfl
  · rw [if_pos hk]

/-- A transaction that wrote nothing. -/
def ended (w : World) : World := closed (begun w)

theorem ended_touches (h : Free w.pg) : Touches id w (ended w) :=
  ⟨rfl, rfl, free_close fun k => .inl (h k), rfl, fun _ _ => rfl, fun _ _ => rfl⟩

/-! ## Statements in a transaction -/

theorem inTx_begun {α : Type} {k : Tx → Option (PgState × Except PgErr α)} :
    PgCmd.inTx 0 (begun w).pg k = k {} := rfl

theorem lockable_begun {k : LockKey} (h : w.pg.locks k = none) :
    lockable (begun w).pg 0 k = true := by
  have hk : (begun w).pg.locks k = none := h
  unfold lockable
  rw [hk]

theorem step_commit {p : PgState} {ws : List Write} (h : p.txs 0 = some ⟨ws, false⟩) :
    (PgCmd.commit).step 0 p = some (closeTx (commitWrites p 0 ws) 0, .ok ()) := by
  simp [PgCmd.step, h]

/-- A statement with one text is taken if the text is. -/
theorem taken_id (h : '\x00' ∉ id.toList) {c : PgCmd} (hc : c.texts = [id]) :
    c.refused = false :=
  PgCmd.refused_false fun text ht => by
    rw [hc, List.mem_singleton] at ht
    rwa [ht]

/-- So is one with two. -/
theorem taken_pair {a b : String} (ha : '\x00' ∉ a.toList) (hb : '\x00' ∉ b.toList) {c : PgCmd}
    (hc : c.texts = [a, b]) : c.refused = false :=
  PgCmd.refused_false fun text ht => by
    rw [hc, List.mem_pair] at ht
    obtain rfl | rfl := ht
    · exact ha
    · exact hb

/-- The row is read in the transaction. -/
theorem step_select : (PgCmd.txSelectSession id).step 0 (begun w).pg =
    some ((begun w).pg, .ok (w.pg.session id)) := rfl

theorem step_lock {row : SessionRow} (h : w.pg.locks (.session id) = none)
    (hrow : w.pg.session id = some row) :
    (PgCmd.txSelectForUpdate id).step 0 (begun w).pg =
      some (lock (begun w).pg 0 (.session id), .ok (some row)) := by
  have hbegun : (begun w).pg.session id = some row := hrow
  simp [PgCmd.step, inTx_begun, hbegun, lockable_begun h]

/-- The texts of a join hold no U+0000. -/
structure JoinTexts (j : Join) : Prop where
  fingerprint : '\x00' ∉ j.fingerprint.toList
  name : '\x00' ∉ j.name.toList
  request : '\x00' ∉ j.requestId.toList

theorem JoinTexts.taken {j : Join} (h : JoinTexts j) (hid : '\x00' ∉ id.toList) :
    (PgCmd.txRecordJoin id j).refused = false :=
  PgCmd.refused_false fun text ht => by
    obtain rfl | rfl | rfl | rfl :
        text = id ∨ text = j.fingerprint ∨ text = j.name ∨ text = j.requestId := by
      simpa [PgCmd.texts] using ht
    · exact hid
    · exact h.fingerprint
    · exact h.name
    · exact h.request

/-! ## The methods of Postgres -/

section Postgres

variable {j : Join} {row : SessionRow}

theorem pgSubmit_missing (hid : '\x00' ∉ id.toList) (hargs : ¬(j.pubKey = [] ∨ j.requestId = ""))
    (hrow : w.pg.session id = none) :
    quietly (Postgres.submitJoinRequest id j) w = some (.error .notFound, ended w) := by
  unfold Postgres.submitJoinRequest
  rw [if_neg hargs]
  refine quietly_withTx ?_
  rw [quietly_bind (quietly_query (taken_id hid rfl) step_select), hrow]
  rfl

theorem pgSubmit_decided (hid : '\x00' ∉ id.toList) (hargs : ¬(j.pubKey = [] ∨ j.requestId = ""))
    (hrow : w.pg.session id = some row) (hstatus : row.status ≠ .pending) :
    quietly (Postgres.submitJoinRequest id j) w = some (.error .gone, ended w) := by
  unfold Postgres.submitJoinRequest
  rw [if_neg hargs]
  refine quietly_withTx ?_
  rw [quietly_bind (quietly_query (taken_id hid rfl) step_select), hrow]
  simp only [Postgres.reported, if_pos hstatus]
  rfl

theorem pgSubmit_joined (hid : '\x00' ∉ id.toList) (hargs : ¬(j.pubKey = [] ∨ j.requestId = ""))
    (hrow : w.pg.session id = some row) (hstatus : row.status = .pending)
    (htime : w.clock < row.expiresAt) (hjoin : row.join.isSome = true) :
    quietly (Postgres.submitJoinRequest id j) w = some (.error .gone, ended w) := by
  unfold Postgres.submitJoinRequest
  rw [if_neg hargs]
  refine quietly_withTx ?_
  rw [quietly_bind (quietly_query (taken_id hid rfl) step_select), hrow]
  simp only [Postgres.reported, hstatus, ne_eq, not_true_eq_false, if_false]
  have hnow : (begun w).clock < row.expiresAt := htime
  show quietly (Core.perform .now >>= _) (begun w) = _
  rw [quietly_now, if_neg (not_not_intro hnow), if_pos hjoin]
  rfl

/-- The transaction that holds the first join back. -/
def joining (w : World) (id : String) (j : Join) : PgState :=
  lock (lock (stage (begun w).pg 0 {} (.recordJoin id j)) 0 (.session id)) 0
    (.joinRequest j.requestId)

/-- The world after one staged write was committed. -/
def landed (w : World) (p : PgState) (x : Write) : World :=
  closed (w.setPg (closeTx (commitWrites p 0 [x]) 0))

theorem pgSubmit_first (hid : '\x00' ∉ id.toList) (hj : JoinTexts j) (hfree : Free w.pg)
    (hargs : ¬(j.pubKey = [] ∨ j.requestId = ""))
    (hrow : w.pg.session id = some row) (hstatus : row.status = .pending)
    (htime : w.clock < row.expiresAt) (hjoin : row.join = none)
    (htaken : w.pg.joinRequestTaken j.requestId = false) :
    quietly (Postgres.submitJoinRequest id j) w =
      some (.ok (), landed w (joining w id j) (.recordJoin id j)) := by
  have hrecord : (PgCmd.txRecordJoin id j).step 0 (begun w).pg =
      some (joining w id j, .ok (1 : Nat)) := by
    have hbegun : (begun w).pg.session id = some row := hrow
    have hfresh : (begun w).pg.joinRequestTaken j.requestId = false := htaken
    simp [PgCmd.step, inTx_begun, hbegun, lockable_begun (hfree _), hstatus, hjoin, hfresh, joining]
  unfold Postgres.submitJoinRequest
  rw [if_neg hargs]
  refine quietly_withTx ?_
  rw [quietly_bind (quietly_query (taken_id hid rfl) step_select), hrow]
  simp only [Postgres.reported, hstatus, ne_eq, not_true_eq_false, if_false]
  have hnow : (begun w).clock < row.expiresAt := htime
  show quietly (Core.perform .now >>= _) (begun w) = _
  rw [quietly_now, if_neg (not_not_intro hnow), if_neg (by rw [hjoin]; decide),
    quietly_bind (quietly_query (hj.taken hid) hrecord)]
  simp only [Postgres.reported, Nat.one_ne_zero, if_false]
  exact quietly_query rfl (step_commit rfl)

/-- The transaction that holds a decision back. -/
def deciding (w : World) (id : String) (x : Write) : PgState :=
  lock (stage (lock (begun w).pg 0 (.session id)) 0 {} x) 0 (.session id)

/-- A transaction that only read the locked row. -/
def locked (w : World) (id : String) : World :=
  closed ((begun w).setPg (lock (begun w).pg 0 (.session id)))

/-- The world after a rejection. -/
def rejected (w : World) (id granter : String) (sig : Bytes) : World :=
  landed w (deciding w id (.decideSession id .rejected granter sig))
    (.decideSession id .rejected granter sig)

variable {C : Crypto} {approve : Bool} {pub sig : Bytes} {granter : String}

theorem pgDecide_missing (hid : '\x00' ∉ id.toList) (hrow : w.pg.session id = none) :
    quietly (Postgres.decidePairingSession C id approve pub sig granter) w =
      some (.error .notFound, ended w) := by
  have hread : (PgCmd.txSelectForUpdate id).step 0 (begun w).pg =
      some ((begun w).pg, .ok none) := by
    have hbegun : (begun w).pg.session id = none := hrow
    simp [PgCmd.step, inTx_begun, hbegun]
  refine quietly_withTx ?_
  rw [quietly_bind (quietly_query (taken_id hid rfl) hread)]
  rfl

theorem pgDecide_unjoined (hid : '\x00' ∉ id.toList) (hfree : w.pg.locks (.session id) = none)
    (hrow : w.pg.session id = some row)
    (hstatus : row.status = .pending) (htime : w.clock < row.expiresAt)
    (hjoin : row.join = none) :
    quietly (Postgres.decidePairingSession C id true pub sig granter) w =
      some (.error .conflict, locked w id) := by
  have hnow : ((begun w).setPg (lock (begun w).pg 0 (.session id))).clock < row.expiresAt := htime
  refine quietly_withTx ?_
  rw [quietly_bind (quietly_query (taken_id hid rfl) (step_lock hfree hrow))]
  show quietly (Core.perform .now >>= _) _ = _
  rw [quietly_now, if_neg (not_not_intro hstatus), if_neg (not_not_intro hnow), if_pos rfl, hjoin]
  rfl

theorem pgDecide_rejected (hid : '\x00' ∉ id.toList) (hgranter : '\x00' ∉ granter.toList)
    (hfree : w.pg.locks (.session id) = none)
    (hrow : w.pg.session id = some row)
    (hstatus : row.status = .pending) (htime : w.clock < row.expiresAt) :
    quietly (Postgres.decidePairingSession C id false pub sig granter) w =
      some (.ok (), rejected w id granter sig) := by
  have hnow : ((begun w).setPg (lock (begun w).pg 0 (.session id))).clock < row.expiresAt := htime
  have htaken : (PgCmd.txDecide id .rejected granter sig).refused = false :=
    taken_pair hid hgranter rfl
  have hdecide : (PgCmd.txDecide id .rejected granter sig).step 0
      (lock (begun w).pg 0 (.session id)) =
      some (deciding w id (.decideSession id .rejected granter sig), .ok ()) := by
    simp [PgCmd.step, PgCmd.inTx, lockable, lock, begun, setTx, deciding, stage]
  refine quietly_withTx ?_
  rw [quietly_bind (quietly_query (taken_id hid rfl) (step_lock hfree hrow))]
  show quietly (Core.perform .now >>= _) _ = _
  rw [quietly_now, if_neg (not_not_intro hstatus), if_neg (not_not_intro hnow), if_neg (by decide)]
  unfold Postgres.finishDecision
  rw [quietly_bind (quietly_query htaken hdecide)]
  show quietly (Postgres.pg .commit >>= _) _ = _
  rw [quietly_bind (quietly_pg rfl (step_commit rfl))]
  rfl

theorem pgGet_missing (hid : '\x00' ∉ id.toList) (hrow : w.pg.session id = none) :
    quietly (Postgres.getPairingSession id) w = some (.error .notFound, w) := by
  have hread : (PgCmd.selectSession id).step 0 w.pg = some (w.pg, .ok (w.pg.session id)) := rfl
  unfold Postgres.getPairingSession
  rw [quietly_bind (quietly_query (taken_id hid rfl) hread), hrow]
  rfl

theorem pgGet_found (hid : '\x00' ∉ id.toList) (hrow : w.pg.session id = some row)
    (htime : row.status = .pending → w.clock < row.expiresAt) :
    quietly (Postgres.getPairingSession id) w = some (.ok (Postgres.scanned row), w) := by
  have hread : (PgCmd.selectSession id).step 0 w.pg = some (w.pg, .ok (w.pg.session id)) := rfl
  unfold Postgres.getPairingSession
  rw [quietly_bind (quietly_query (taken_id hid rfl) hread), hrow]
  by_cases hstatus : row.status = .pending
  · simp only [Postgres.reported, if_pos hstatus]
    show quietly (Core.perform .now >>= _) _ = _
    have hnow : (w.setPg w.pg).clock < row.expiresAt := htime hstatus
    rw [quietly_now, if_pos hnow]
    rfl
  · simp only [Postgres.reported, if_neg hstatus]
    rfl

/-! ### What they leave alone -/

theorem landed_touches {p : PgState} {x : Write} {f : SessionRow → SessionRow}
    (ht : p.toTables = w.pg.toTables) (hl : ∀ k, p.locks k = none ∨ p.locks k = some 0)
    (hx : ∀ t : Tables, t.apply x = t.modifySession id f) (hf : ∀ s, (f s).id = s.id) :
    Touches id w (landed w p x) ∧
      (landed w p x).pg.session id = (w.pg.session id).map f := by
  have htables : (landed w p x).pg.toTables = w.pg.toTables.modifySession id f := by
    show p.toTables.apply x = _
    rw [hx, ht]
  have hrows (y : String) : (landed w p x).pg.session y =
      if id = y then (w.pg.session y).map f else w.pg.session y := by
    show Tables.session (landed w p x).pg.toTables y = _
    rw [htables, session_modify _ hf]
  refine ⟨⟨rfl, rfl, ?_, ?_, fun y hy => ?_, fun _ _ => rfl⟩, ?_⟩
  · refine free_close fun k => .inl ?_
    exact free_close (p := commitWrites p 0 [x]) hl k
  · show Tables.grants (landed w p x).pg.toTables = _
    rw [htables]
    rfl
  · rw [hrows, if_neg (Ne.symm hy)]
  · rw [hrows, if_pos rfl]

theorem joining_locks (hfree : Free w.pg) (j : Join) (k : LockKey) :
    (joining w id j).locks k = none ∨ (joining w id j).locks k = some 0 := by
  simp only [joining, lock, stage, setTx, begun, World.setPg_pg, hfree k]
  split
  · exact .inr rfl
  · split
    · exact .inr rfl
    · exact .inl rfl

theorem deciding_locks (hfree : Free w.pg) (x : Write) (k : LockKey) :
    (deciding w id x).locks k = none ∨ (deciding w id x).locks k = some 0 := by
  simp only [deciding, lock, stage, setTx, begun, World.setPg_pg, hfree k]
  split
  · exact .inr rfl
  · exact .inl rfl

theorem locked_touches (hfree : Free w.pg) : Touches id w (locked w id) := by
  refine ⟨rfl, rfl, free_close fun k => ?_, rfl, fun _ _ => rfl, fun _ _ => rfl⟩
  show (if k = .session id then some 0 else w.pg.locks k) = none ∨ _
  by_cases hk : k = .session id
  · exact .inr (if_pos hk)
  · rw [if_neg hk]
    exact .inl (hfree k)

end Postgres

/-! ## The methods of Redis -/

section Redis

variable {h : PairingHash} {j : Join}

/-- The hash under a key was changed. -/
def hashed (w : World) (id : String) (f : Option PairingHash → PairingHash) (c : RdCmd) : World :=
  w.setRd { logged w.rd 0 c with pairing := w.rd.pairing.update w.rd.now id f }

/-- A key got a new expiry. -/
def expiring (w : World) (id : String) (t : Time) (c : RdCmd) : World :=
  w.setRd { logged w.rd 0 c with pairing := w.rd.pairing.expire w.rd.now id t }

/-- The hash that can be read. -/
def liveHash (w : World) (id : String) : Option PairingHash := w.rd.pairing.get w.rd.now id

theorem hashed_touches (hfree : Free w.pg) {f : Option PairingHash → PairingHash} {c : RdCmd} :
    Touches id w (hashed w id f c) :=
  ⟨rfl, rfl, hfree, rfl, fun _ _ => rfl, fun _ hx => TtlMap.update_ne _ _ _ hx⟩

theorem expiring_touches (hfree : Free w.pg) {t : Time} {c : RdCmd} :
    Touches id w (expiring w id t c) :=
  ⟨rfl, rfl, hfree, rfl, fun _ _ => rfl, fun _ hx => TtlMap.expire_ne _ _ _ hx⟩

theorem hashed_live {f : Option PairingHash → PairingHash} {c : RdCmd} :
    liveHash (hashed w id f c) id = some (f (liveHash w id)) :=
  TtlMap.get_update_self _ _ _ _

theorem expiring_live {t : Time} {c : RdCmd} {x : PairingHash}
    (hx : liveHash (expiring w id t c) id = some x) : liveHash w id = some x :=
  TtlMap.get_of_expire hx

theorem read_missing (hkey : liveHash w id = none) :
    quietly (Redis.readSession id) w = some (.error .notFound, w) := by
  unfold Redis.readSession
  rw [quietly_rd]
  have hstep : ((RdCmd.hgetallPairing id).step 0 w.rd).2 = none := hkey
  rw [hstep]
  rfl

theorem read_found (hkey : liveHash w id = some h) :
    quietly (Redis.readSession id) w = some (.ok (Redis.decoded id h), w) := by
  unfold Redis.readSession
  rw [quietly_rd]
  have hstep : ((RdCmd.hgetallPairing id).step 0 w.rd).2 = some h := hkey
  rw [hstep]
  rfl

/-- The live entry says how long the session is open. -/
def Open (w : World) (h : PairingHash) : Prop :=
  ∃ u : Int, h.expiresAt = some u ∧ w.clock < u * Time.second

theorem ttl_pos {now e : Time} (h : now < e) : ¬Redis.sessionTTL now e ≤ 0 := by
  have hpos : ¬e - now ≤ 0 := Int.not_le.mpr (Int.sub_pos_of_lt h)
  unfold Redis.sessionTTL
  rw [if_neg hpos]
  exact hpos

theorem Open.ttl (hopen : Open w h) :
    ¬Redis.sessionTTL w.clock (Redis.decoded id h).expiresAt ≤ 0 := by
  obtain ⟨u, hu, hlt⟩ := hopen
  have hexp : (Redis.decoded id h).expiresAt = u * Time.second := by simp [Redis.decoded, hu]
  rw [hexp]
  exact ttl_pos hlt

theorem rdGet_missing (hkey : liveHash w id = none) :
    quietly (Redis.getPairingSession id) w = some (.error .notFound, w) := by
  unfold Redis.getPairingSession
  rw [quietly_bind (read_missing hkey)]
  rfl

theorem rdGet_found (hkey : liveHash w id = some h)
    (hopen : h.status = some .pending → Open w h) :
    quietly (Redis.getPairingSession id) w = some (.ok (Redis.decoded id h), w) := by
  unfold Redis.getPairingSession
  rw [quietly_bind (read_found hkey)]
  by_cases hstatus : h.status = some .pending
  · have hsess : (Redis.decoded id h).status = some .pending := hstatus
    simp only [if_pos hsess]
    show quietly (Core.perform .now >>= _) _ = _
    rw [quietly_now, if_neg (hopen hstatus).ttl]
    rfl
  · have hsess : ¬(Redis.decoded id h).status = some .pending := hstatus
    simp only [if_neg hsess]
    rfl

theorem rdCheck_missing (hkey : liveHash w id = none) :
    quietly (Redis.checkPairingLive id) w = some (.error .notFound, w) := by
  unfold Redis.checkPairingLive
  rw [quietly_bind (read_missing hkey)]
  rfl

theorem rdCheck_decided (hkey : liveHash w id = some h) (hstatus : h.status ≠ some .pending) :
    quietly (Redis.checkPairingLive id) w = some (.error .gone, w) := by
  have hsess : (Redis.decoded id h).status ≠ some .pending := hstatus
  unfold Redis.checkPairingLive
  rw [quietly_bind (read_found hkey)]
  simp only [if_pos hsess]
  rfl

theorem rdCheck_open (hkey : liveHash w id = some h) (hstatus : h.status = some .pending)
    (hopen : Open w h) : quietly (Redis.checkPairingLive id) w = some (.ok (), w) := by
  have hsess : ¬(Redis.decoded id h).status ≠ some .pending := not_not_intro hstatus
  unfold Redis.checkPairingLive
  rw [quietly_bind (read_found hkey)]
  simp only [if_neg hsess]
  show quietly (Core.perform .now >>= _) _ = _
  rw [quietly_now, if_neg hopen.ttl]
  rfl

theorem rdSubmit_missing (hargs : ¬(j.pubKey = [] ∨ j.requestId = ""))
    (hkey : liveHash w id = none) :
    quietly (Redis.submitJoinRequest id j) w = some (.error .notFound, w) := by
  unfold Redis.submitJoinRequest
  rw [if_neg hargs, quietly_bind (read_missing hkey)]
  rfl

theorem rdSubmit_decided (hargs : ¬(j.pubKey = [] ∨ j.requestId = ""))
    (hkey : liveHash w id = some h) (hstatus : h.status ≠ some .pending) :
    quietly (Redis.submitJoinRequest id j) w = some (.error .gone, w) := by
  have hsess : (Redis.decoded id h).status ≠ some .pending := hstatus
  unfold Redis.submitJoinRequest
  rw [if_neg hargs, quietly_bind (read_found hkey)]
  simp only [if_pos hsess]
  rfl

theorem rdSubmit_joined (hargs : ¬(j.pubKey = [] ∨ j.requestId = ""))
    (hkey : liveHash w id = some h) (hstatus : h.status = some .pending) (hopen : Open w h)
    (hjoin : (Redis.decoded id h).joinRequestId ≠ "") :
    quietly (Redis.submitJoinRequest id j) w = some (.error .gone, w) := by
  have hsess : ¬(Redis.decoded id h).status ≠ some .pending := not_not_intro hstatus
  unfold Redis.submitJoinRequest
  rw [if_neg hargs, quietly_bind (read_found hkey)]
  simp only [if_neg hsess]
  show quietly (Core.perform .now >>= _) _ = _
  rw [quietly_now, if_neg hopen.ttl, if_pos hjoin]
  rfl

/-- The hash after the first join. -/
def joinedHash (h : PairingHash) (j : Join) : PairingHash :=
  PairingHash.merge { h with joinReq := some j.requestId }
    { joinPub := some j.pubKey, joinFp := some j.fingerprint, joinName := some j.name }

theorem rdSubmit_first (hfree : Free w.pg) (hargs : ¬(j.pubKey = [] ∨ j.requestId = ""))
    (hkey : liveHash w id = some h) (hstatus : h.status = some .pending) (hopen : Open w h)
    (hjoin : h.joinReq = none) :
    ∃ w', quietly (Redis.submitJoinRequest id j) w = some (.ok (), w') ∧ w'.pg = w.pg ∧
      Touches id w w' ∧ ∀ x, liveHash w' id = some x → x = joinedHash h j := by
  have hsess : ¬(Redis.decoded id h).status ≠ some .pending := not_not_intro hstatus
  have hblank : ¬(Redis.decoded id h).joinRequestId ≠ "" := by simp [Redis.decoded, hjoin]
  let f : Option PairingHash → PairingHash := fun o =>
    { o.getD {} with joinReq := some j.requestId }
  let g : Option PairingHash → PairingHash := fun o => (o.getD {}).merge
    { joinPub := some j.pubKey, joinFp := some j.fingerprint, joinName := some j.name }
  let w₁ := hashed w id f (.hsetnxJoinReq id j.requestId)
  let w₂ := hashed w₁ id g (.hsetPairing id
    { joinPub := some j.pubKey, joinFp := some j.fingerprint, joinName := some j.name })
  have hlive : liveHash w₂ id = some (joinedHash h j) := by
    show liveHash (hashed w₁ id g _) id = _
    rw [hashed_live]
    show some (g (liveHash (hashed w id f _) id)) = _
    rw [hashed_live, hkey]
    rfl
  have htouch₁ : Touches id w w₁ := hashed_touches hfree
  have htouch₂ : Touches id w₁ w₂ := hashed_touches htouch₁.free
  have htouches : Touches id w w₂ := htouch₁.trans htouch₂
  have hset : (RdCmd.hsetnxJoinReq id j.requestId).step 0 w.rd = (w₁.rd, true) := by
    have hget : w.rd.pairing.get w.rd.now id = some h := hkey
    simp only [RdCmd.step, hget, Option.getD_some, hjoin]
    rfl
  have hcode : quietly (Redis.submitJoinRequest id j) w =
      quietly (if 0 < ttlReply w₁.rd id then
        Redis.rd (.expirePairing id (ttlReply w₁.rd id)) >>= fun _ => .ret (.ok ())
      else .ret (.ok ())) w₂ := by
    unfold Redis.submitJoinRequest
    rw [if_neg hargs, quietly_bind (read_found hkey)]
    simp only [if_neg hsess]
    show quietly (Core.perform .now >>= _) _ = _
    rw [quietly_now, if_neg hopen.ttl, if_neg hblank, quietly_rd, hset]
    rfl
  by_cases httl : 0 < ttlReply w₁.rd id
  · rw [if_pos httl, quietly_rd] at hcode
    exact ⟨_, hcode, rfl, htouches.trans (expiring_touches htouches.free), fun x hx =>
      Option.some.inj ((expiring_live (w := w₂) hx).symm.trans hlive)⟩
  · rw [if_neg httl] at hcode
    exact ⟨_, hcode, rfl, htouches, fun x hx => Option.some.inj (hx.symm.trans hlive)⟩

/-- The hash of a session that was decided. -/
def markedHash (h : PairingHash) (st : Status) (now : Time) : PairingHash :=
  h.merge { status := some st, decidedAt := some (Time.unix now) }

theorem rdMark (hfree : Free w.pg) (hkey : liveHash w id = some h) (st : Status) :
    ∃ w', quietly (Redis.markPairingConsumed id st) w = some (.ok (), w') ∧ w'.pg = w.pg ∧
      Touches id w w' ∧ ∀ x, liveHash w' id = some x → x = markedHash h st w.clock := by
  let patch : PairingHash := { status := some st, decidedAt := some (Time.unix w.clock) }
  let w₁ := hashed w id (fun o => (o.getD {}).merge patch) (.hsetPairing id patch)
  have hlive : liveHash w₁ id = some (markedHash h st w.clock) := by
    show liveHash (hashed w id _ _) id = _
    rw [hashed_live, hkey]
    rfl
  have htouch : Touches id w w₁ := hashed_touches hfree
  refine ⟨expiring w₁ id (w₁.rd.now + Time.formatSec Redis.consumedKeep)
    (.expirePairing id Redis.consumedKeep), rfl, rfl,
    htouch.trans (expiring_touches htouch.free), fun x hx => ?_⟩
  exact Option.some.inj ((expiring_live (w := w₁) hx).symm.trans hlive)

/-- The hash of a new session. -/
def newHash (s : PairingSession) : PairingHash :=
  PairingHash.merge { status := some (s.status.getD .pending) } (Redis.createFields s)

theorem rdCreate (hfree : Free w.pg) {s : PairingSession} (hid : s.id ≠ "")
    (htime : w.clock < s.expiresAt) (hkey : w.rd.pairing s.id = none) :
    ∃ w', quietly (Redis.createPairingSession s) w = some (.ok (), w') ∧ w'.pg = w.pg ∧
      Touches s.id w w' ∧ ∀ x, liveHash w' s.id = some x → x = newHash s := by
  have hnone : liveHash w s.id = none := by simp [liveHash, TtlMap.get, TtlMap.entry, hkey]
  let st : Status := s.status.getD .pending
  let f : Option PairingHash → PairingHash := fun o => { o.getD {} with status := some st }
  let g : Option PairingHash → PairingHash := fun o => (o.getD {}).merge (Redis.createFields s)
  let w₁ := hashed w s.id f (.hsetnxStatus s.id st)
  let w₂ := hashed w₁ s.id g (.hsetPairing s.id (Redis.createFields s))
  let ttl := Redis.sessionTTL w.clock s.expiresAt
  have hlive : liveHash w₂ s.id = some (newHash s) := by
    show liveHash (hashed w₁ s.id g _) s.id = _
    rw [hashed_live]
    show some (g (liveHash (hashed w s.id f _) s.id)) = _
    rw [hashed_live, hnone]
    rfl
  have hset : (RdCmd.hsetnxStatus s.id st).step 0 w.rd = (w₁.rd, true) := by
    have hget : w.rd.pairing.get w.rd.now s.id = none := hnone
    simp only [RdCmd.step, hget]
    rfl
  have hpos : ¬ttl ≤ 0 := ttl_pos htime
  have htouch₁ : Touches s.id w w₁ := hashed_touches hfree
  have htouch₂ : Touches s.id w₁ w₂ := hashed_touches htouch₁.free
  refine ⟨expiring w₂ s.id (w₂.rd.now + Time.formatSec ttl) (.expirePairing s.id ttl), ?_, rfl,
    (htouch₁.trans htouch₂).trans (expiring_touches htouch₂.free),
    fun x hx => Option.some.inj ((expiring_live (w := w₂) hx).symm.trans hlive)⟩
  unfold Redis.createPairingSession
  rw [if_neg hid]
  show quietly (Core.perform .now >>= _) _ = _
  rw [quietly_now, if_neg hpos, quietly_rd, hset]
  rfl

end Redis

/-! ## The two stores side by side -/

/-- Before the last whole second of the session, which is as far as Redis knows
its deadline. -/
def InTime (now : Time) (s : PairingSession) : Prop :=
  now < Time.unix s.expiresAt * Time.second

instance {now : Time} {s : PairingSession} : Decidable (InTime now s) :=
  inferInstanceAs (Decidable (now < Time.unix s.expiresAt * Time.second))

theorem InTime.exact {now : Time} {s : PairingSession} (h : InTime now s) :
    now < Time.micros s.expiresAt ∧ ¬s.expiresAt < now := by
  have hsecond : now < s.expiresAt / 1000000000 * 1000000000 := h
  have hmicros : Time.micros s.expiresAt = s.expiresAt / 1000 * 1000 := rfl
  have hint : ∀ a b : Int, a < b / 1000000000 * 1000000000 →
      a < b / 1000 * 1000 ∧ ¬b < a := fun a b hab => by omega
  rw [hmicros]
  exact hint now s.expiresAt hsecond

/-- The audit row of a session. -/
structure Recorded (s : PairingSession) (row : SessionRow) : Prop where
  report : (Postgres.scanned row).report = s.report
  expiry : row.expiresAt = Time.micros s.expiresAt
  join : row.join = none ↔ s.joinRequestId = ""

/-- The live entry of a session. -/
structure Cached (id : String) (s : PairingSession) (h : PairingHash) : Prop where
  report : (Redis.decoded id h).report = s.report
  expiry : h.expiresAt = some (Time.unix s.expiresAt)
  join : h.joinReq = none ↔ s.joinRequestId = ""

theorem Recorded.status {s : PairingSession} {row : SessionRow} (h : Recorded s row) :
    some row.status = s.status := congrArg Report.status h.report

theorem Cached.status {s : PairingSession} {h : PairingHash} (hc : Cached id s h) :
    h.status = s.status := congrArg Report.status hc.report

theorem Cached.isOpen {s : PairingSession} {h : PairingHash} (hc : Cached id s h)
    (ht : InTime w.clock s) : Open w h := ⟨_, hc.expiry, ht⟩

/-- What the in-memory store holds, the databases hold. -/
structure Paired (m : MemStore) (w : World) : Prop where
  free : Free w.pg
  grants : w.pg.grants.length = m.grants.length
  known : ∀ id s, m.sessions id = some s →
    ∃ row, w.pg.session id = some row ∧ Recorded s row
  cached : ∀ id s h, m.sessions id = some s → liveHash w id = some h → Cached id s h
  absent : ∀ id, m.sessions id = none → w.pg.session id = none ∧ w.rd.pairing id = none

variable {m : MemStore} {s : PairingSession}

theorem liveHash_congr (hnow : w'.rd.now = w.rd.now) (hkey : w'.rd.pairing id = w.rd.pairing id) :
    liveHash w' id = liveHash w id := by
  unfold liveHash
  rw [hnow]
  exact TtlMap.get_congr hkey _

theorem liveHash_absent (hkey : w.rd.pairing id = none) : liveHash w id = none := by
  simp [liveHash, TtlMap.get, TtlMap.entry, hkey]

/-- A call that changes one session on both sides. -/
theorem Paired.change (h : Paired m w) (ht : Touches id w w') {row : SessionRow}
    (hrow : w'.pg.session id = some row) (hrec : Recorded s row)
    (hcache : ∀ x, liveHash w' id = some x → Cached id s x) : Paired (m.put id s) w' where
  free := ht.free
  grants := by
    rw [ht.grants]
    exact h.grants
  known x s' hx := by
    by_cases hid : x = id
    · subst hid
      rw [MemStore.put_self] at hx
      cases hx
      exact ⟨row, hrow, hrec⟩
    · rw [MemStore.put_ne _ _ hid] at hx
      rw [ht.rows x hid]
      exact h.known x s' hx
  cached x s' c hx hc := by
    by_cases hid : x = id
    · subst hid
      rw [MemStore.put_self] at hx
      cases hx
      exact hcache c hc
    · rw [MemStore.put_ne _ _ hid] at hx
      rw [liveHash_congr ht.now (ht.keys x hid)] at hc
      exact h.cached x s' c hx hc
  absent x hx := by
    by_cases hid : x = id
    · subst hid
      rw [MemStore.put_self] at hx
      cases hx
    · rw [MemStore.put_ne _ _ hid] at hx
      rw [ht.rows x hid, ht.keys x hid]
      exact h.absent x hx

/-- A call that changes no session. -/
theorem Paired.same (h : Paired m w) (ht : Touches id w w')
    (hrow : w'.pg.session id = w.pg.session id) (hkey : w'.rd.pairing id = w.rd.pairing id) :
    Paired m w' := by
  have hrows (x : String) : w'.pg.session x = w.pg.session x := by
    by_cases hid : x = id
    · rw [hid]
      exact hrow
    · exact ht.rows x hid
  have hkeys (x : String) : w'.rd.pairing x = w.rd.pairing x := by
    by_cases hid : x = id
    · rw [hid]
      exact hkey
    · exact ht.keys x hid
  refine ⟨ht.free, ht.grants ▸ h.grants, fun x s hx => ?_, fun x s c hx hc => ?_, fun x hx => ?_⟩
  · rw [hrows]
    exact h.known x s hx
  · rw [liveHash_congr ht.now (hkeys x)] at hc
    exact h.cached x s c hx hc
  · rw [hrows, hkeys]
    exact h.absent x hx

theorem Paired.missing (h : Paired m w) (hm : m.sessions id = none) :
    w.pg.session id = none ∧ liveHash w id = none :=
  ⟨(h.absent id hm).1, liveHash_absent (h.absent id hm).2⟩

/-! ### Get -/

theorem get_agrees {C : Crypto} (h : Paired m w) (hid : '\x00' ∉ id.toList)
    (htime : ∀ s, m.sessions id = some s → s.status = some .pending → InTime w.clock s) :
    (PairingCall.get id).onCombined C w =
      some (((PairingCall.get id).onMemory w.clock m).2, w) := by
  have hcode : ∀ {r : Except Err PairingSession},
      quietly (Combined.getPairingSession id) w = some (r, w) →
        (PairingCall.get id).onCombined C w = some (readAns r, w) := by
    intro r hr
    show (quietly (Combined.getPairingSession id) w).map _ = _
    rw [hr]
    rfl
  show _ = some (readAns (m.getPairingSession id), w)
  unfold MemStore.getPairingSession
  cases hm : m.sessions id with
  | none =>
      obtain ⟨hrow, hkey⟩ := h.missing hm
      refine hcode ?_
      unfold Combined.getPairingSession
      rw [quietly_bind (rdGet_missing hkey)]
      exact pgGet_missing hid hrow
  | some s =>
      obtain ⟨row, hrow, hrec⟩ := h.known id s hm
      cases hkey : liveHash w id with
      | none =>
          have hfound := pgGet_found hid hrow fun hstatus => by
            rw [hrec.expiry]
            exact (htime s hm (by rw [← hrec.status, hstatus])).exact.1
          have hreport : readAns (.ok s) = readAns (.ok (Postgres.scanned row)) :=
            congrArg (fun x => Except.ok (some x)) hrec.report.symm
          rw [hreport]
          refine hcode ?_
          unfold Combined.getPairingSession
          rw [quietly_bind (rdGet_missing hkey)]
          exact hfound
      | some x =>
          have hc := h.cached id s x hm hkey
          have hfound := rdGet_found hkey fun hstatus =>
            hc.isOpen (htime s hm (by rw [← hc.status, hstatus]))
          have hreport : readAns (.ok s) = readAns (.ok (Redis.decoded id x)) :=
            congrArg (fun x => Except.ok (some x)) hc.report.symm
          rw [hreport]
          refine hcode ?_
          unfold Combined.getPairingSession
          rw [quietly_bind hfound]
          rfl

/-! ### Create -/

/-- The texts of a new session hold no U+0000. -/
structure SessionTexts (s : PairingSession) : Prop where
  id : '\x00' ∉ s.id.toList
  user : '\x00' ∉ s.userId.toList
  creator : '\x00' ∉ s.createdBy.toList
  nonce : '\x00' ∉ s.qrNonce.toList

theorem SessionTexts.taken (h : SessionTexts s) :
    (PgCmd.insertSession (Postgres.newRow s)).refused = false :=
  PgCmd.refused_false fun text ht => by
    obtain rfl | rfl | rfl | rfl :
        text = s.id ∨ text = s.userId ∨ text = s.createdBy ∨ text = s.qrNonce := by
      simpa [PgCmd.texts, Postgres.newRow] using ht
    · exact h.id
    · exact h.user
    · exact h.creator
    · exact h.nonce

/-- A session both stores create: it names itself and a known user, is pending and
without a join, its deadline is ahead, and Postgres takes its texts. -/
structure Creatable (w : World) (s : PairingSession) : Prop where
  id : s.id ≠ ""
  user : s.userId ≠ ""
  known : s.userId ∈ w.pg.users
  report : { s with status := some .pending }.report = ⟨some .pending, [], "", "", ""⟩
  status : s.status.getD .pending = .pending
  time : w.clock < s.expiresAt
  texts : SessionTexts s

/-- The world after the insert. -/
def inserted (w : World) (s : PairingSession) : World :=
  w.setPg (commitWrites w.pg 0 [.addSession (Postgres.newRow s)])

theorem inserted_touches (hfree : Free w.pg) (hrow : w.pg.session s.id = none) :
    Touches s.id w (inserted w s) ∧
      (inserted w s).pg.session s.id = some (Postgres.newRow s) := by
  have hrows (x : String) : (inserted w s).pg.session x =
      (w.pg.session x).or (if s.id = x then some (Postgres.newRow s) else none) := by
    show (w.pg.sessions ++ [Postgres.newRow s]).find? (fun y => decide (y.id = x)) = _
    rw [List.find?_append, List.find?_cons]
    by_cases hx : s.id = x
    · have hself : decide ((Postgres.newRow s).id = x) = true := decide_eq_true hx
      rw [hself, if_pos hx]
      rfl
    · have hother : decide ((Postgres.newRow s).id = x) = false := decide_eq_false hx
      rw [hother, if_neg hx]
      rfl
  refine ⟨⟨rfl, rfl, hfree, rfl, fun x hx => ?_, fun _ _ => rfl⟩, ?_⟩
  · rw [hrows, if_neg (Ne.symm hx), Option.or_none]
  · rw [hrows, hrow, if_pos rfl]
    rfl

/-- A new session, in both databases. -/
theorem create_new (h : Paired m w) (hm : m.sessions s.id = none) (hs : Creatable w s) :
    ∃ w', quietly (Combined.createPairingSession s) w = some (.ok (), w') ∧
      Paired (m.put s.id { s with status := some .pending }) w' := by
  obtain ⟨hid, huser, hknown, hreport, hstatus, htime, htexts⟩ := hs
  obtain ⟨hrow, hkey⟩ := h.absent s.id hm
  obtain ⟨htouch, hins⟩ := inserted_touches h.free hrow
  have hjoin : s.joinRequestId = "" := congrArg Report.requestId hreport
  have hinsert : (PgCmd.insertSession (Postgres.newRow s)).step 0 w.pg =
      some (commitWrites w.pg 0 [.addSession (Postgres.newRow s)], .ok ()) := by
    have hu : (Postgres.newRow s).userId ∈ w.pg.users := hknown
    have hr : w.pg.session (Postgres.newRow s).id = none := hrow
    simp [PgCmd.step, hu, hr]
  have hkey' : (inserted w s).rd.pairing s.id = none := hkey
  obtain ⟨w', hrd, hpg, htouch', hlive⟩ :=
    rdCreate (w := inserted w s) htouch.free hid htime hkey'
  have hpending : Report.mk (some (s.status.getD .pending)) [] "" "" "" =
      { s with status := some .pending }.report := by rw [hreport, hstatus]
  have hrec : Recorded { s with status := some .pending } (Postgres.newRow s) :=
    ⟨hpending, rfl, iff_of_true rfl hjoin⟩
  refine ⟨w', ?_, h.change (htouch.trans htouch') (hpg ▸ hins) hrec fun x hx => ?_⟩
  · unfold Combined.createPairingSession Postgres.createPairingSession
    rw [if_neg (not_or.mpr ⟨hid, huser⟩), quietly_bind (quietly_query htexts.taken hinsert)]
    exact hrd
  · rw [hlive x hx]
    exact ⟨hpending, rfl, iff_of_true rfl hjoin⟩

/-- An id that is taken is a conflict, whatever else is wrong with a statement that
Postgres runs. -/
theorem create_taken (h : Paired m w) {s' : PairingSession}
    (hm : m.sessions s.id = some s') (htexts : s.userId = "" ∨ SessionTexts s) :
    quietly (Combined.createPairingSession s) w = some (.error .conflict, w) := by
  obtain ⟨row, hrow, -⟩ := h.known s.id s' hm
  have hrow' : (w.pg.session (Postgres.newRow s).id).isSome = true :=
    Option.isSome_iff_exists.mpr ⟨row, hrow⟩
  unfold Combined.createPairingSession Postgres.createPairingSession
  by_cases hargs : s.id = "" ∨ s.userId = ""
  · rw [if_pos hargs]
    rfl
  · rw [if_neg hargs]
    have htaken := (htexts.resolve_left fun h => hargs (.inr h)).taken
    by_cases huser : (Postgres.newRow s).userId ∈ w.pg.users
    · have hinsert : (PgCmd.insertSession (Postgres.newRow s)).step 0 w.pg =
          some (w.pg, .error .uniqueViolation) := by
        simp [PgCmd.step, huser, hrow']
      rw [quietly_bind (quietly_query htaken hinsert)]
      rfl
    · have hinsert : (PgCmd.insertSession (Postgres.newRow s)).step 0 w.pg =
          some (w.pg, .error .foreignKeyViolation) := by
        simp [PgCmd.step, huser]
      rw [quietly_bind (quietly_query htaken hinsert)]
      rfl

theorem create_agrees {C : Crypto} (h : Paired m w)
    (hs : if m.sessions s.id = none then Creatable w s else s.userId = "" ∨ SessionTexts s) :
    ∃ w', (PairingCall.create s).onCombined C w =
        some (((PairingCall.create s).onMemory w.clock m).2, w') ∧
      Paired ((PairingCall.create s).onMemory w.clock m).1 w' := by
  have hcode : ∀ {r : Except Err Unit} {w'},
      quietly (Combined.createPairingSession s) w = some (r, w') →
        (PairingCall.create s).onCombined C w = some (plainAns r, w') := by
    intro r w' hr
    show (quietly (Combined.createPairingSession s) w).map _ = _
    rw [hr]
    rfl
  show ∃ w', _ = some (plainAns (m.createPairingSession s).2, w') ∧
    Paired (m.createPairingSession s).1 w'
  unfold MemStore.createPairingSession
  cases hm : m.sessions s.id with
  | none =>
      rw [if_pos hm] at hs
      obtain ⟨w', hquiet, hpaired⟩ := create_new h hm hs
      exact ⟨w', hcode hquiet, hpaired⟩
  | some s' =>
      rw [if_neg (hm ▸ nofun)] at hs
      exact ⟨w, hcode (create_taken h hm hs), h⟩

/-! ### Submit -/

/-- The session after its first join. -/
def withJoin (s : PairingSession) (j : Join) : PairingSession :=
  { s with
    joinPubKey := j.pubKey
    joinFingerprint := j.fingerprint
    joinName := j.name
    joinRequestId := j.requestId }

theorem Recorded.joined {row : SessionRow} (h : Recorded s row) {j : Join}
    (hreq : j.requestId ≠ "") : Recorded (withJoin s j) { row with join := some j } where
  report := by
    show Report.mk (some row.status) _ _ _ _ = _
    rw [h.status]
    rfl
  expiry := h.expiry
  join := iff_of_false nofun hreq

theorem Cached.joined {x : PairingHash} (h : Cached id s x) {j : Join}
    (hreq : j.requestId ≠ "") : Cached id (withJoin s j) (joinedHash x j) where
  report := by
    show Report.mk x.status _ _ _ _ = _
    rw [h.status]
    rfl
  expiry := h.expiry
  join := iff_of_false nofun hreq

theorem combinedSubmit_dead {j : Join} {r : Except Err Unit}
    (hargs : ¬(j.pubKey = [] ∨ j.requestId = "")) (hkey : liveHash w id = none)
    (hpg : quietly (Postgres.submitJoinRequest id j) w = some (r, w')) :
    quietly (Combined.submitJoinRequest id j) w = some (r, w') := by
  unfold Combined.submitJoinRequest
  rw [quietly_bind (rdSubmit_missing hargs hkey)]
  exact hpg

theorem combinedSubmit_gone {j : Join}
    (hrd : quietly (Redis.submitJoinRequest id j) w = some (.error .gone, w)) :
    quietly (Combined.submitJoinRequest id j) w = some (.error .gone, w) := by
  unfold Combined.submitJoinRequest
  rw [quietly_bind hrd]
  rfl

theorem ended_paired (h : Paired m w) : Paired m (ended w) :=
  h.same (show Touches "" w (ended w) from ended_touches h.free) rfl rfl

section Submit

variable {j : Join}

/-- The first join in time, recorded by both databases. -/
theorem submit_first (h : Paired m w) (hid : '\x00' ∉ id.toList) (hj : JoinTexts j)
    (hargs : ¬(j.pubKey = [] ∨ j.requestId = ""))
    (hm : m.sessions id = some s) (hin : InTime w.clock s) (hstatus : s.status = some .pending)
    (hjoin : s.joinRequestId = "") (htaken : w.pg.joinRequestTaken j.requestId = false) :
    ∃ w', quietly (Combined.submitJoinRequest id j) w = some (.ok (), w') ∧
      Paired (m.put id (withJoin s j)) w' := by
  obtain ⟨row, hrow, hrec⟩ := h.known id s hm
  have htime : w.clock < row.expiresAt := hrec.expiry ▸ hin.exact.1
  have hrowstatus : row.status = .pending := Option.some.inj (hrec.status.trans hstatus)
  have hrowjoin : row.join = none := hrec.join.mpr hjoin
  have hreq : j.requestId ≠ "" := (not_or.mp hargs).2
  cases hkey : liveHash w id with
  | none =>
      have hpg := pgSubmit_first hid hj h.free hargs hrow hrowstatus htime hrowjoin htaken
      obtain ⟨htouch, hlanded⟩ := landed_touches (w := w) (p := joining w id j)
        (x := .recordJoin id j) rfl (joining_locks h.free j) (fun _ => rfl) fun _ => rfl
      rw [hrow] at hlanded
      refine ⟨_, combinedSubmit_dead hargs hkey hpg,
        h.change htouch hlanded (hrec.joined hreq) fun x hx => ?_⟩
      have hnone : liveHash (landed w (joining w id j) (.recordJoin id j)) id = none := hkey
      rw [hnone] at hx
      cases hx
  | some x =>
      have hc := h.cached id s x hm hkey
      obtain ⟨w₁, hrd, hpgsame, htouch₁, hlive⟩ := rdSubmit_first h.free hargs hkey
        (hc.status.trans hstatus) (hc.isOpen hin) (hc.join.mpr hjoin)
      have hrow₁ : w₁.pg.session id = some row := by
        rw [hpgsame]
        exact hrow
      have htime₁ : w₁.clock < row.expiresAt := by
        rw [htouch₁.clock]
        exact htime
      have hpg := pgSubmit_first hid hj htouch₁.free hargs hrow₁ hrowstatus htime₁ hrowjoin
        (hpgsame ▸ htaken)
      obtain ⟨htouch, hlanded⟩ := landed_touches (w := w₁) (p := joining w₁ id j)
        (x := .recordJoin id j) rfl (joining_locks htouch₁.free j) (fun _ => rfl) fun _ => rfl
      rw [hrow₁] at hlanded
      refine ⟨_, ?_, h.change (htouch₁.trans htouch) hlanded (hrec.joined hreq)
        fun y hy => ?_⟩
      · unfold Combined.submitJoinRequest
        rw [quietly_bind hrd]
        show quietly (Postgres.submitJoinRequest id j >>= _) w₁ = _
        rw [quietly_bind hpg]
        rfl
      · have hlive' : liveHash w₁ id = some y := hy
        rw [hlive y hlive']
        exact hc.joined hreq

/-- A second join in time is refused by whichever database is asked. -/
theorem submit_second (h : Paired m w) (hid : '\x00' ∉ id.toList)
    (hargs : ¬(j.pubKey = [] ∨ j.requestId = ""))
    (hm : m.sessions id = some s) (hin : InTime w.clock s) (hstatus : s.status = some .pending)
    (hjoin : s.joinRequestId ≠ "") :
    ∃ w', quietly (Combined.submitJoinRequest id j) w = some (.error .gone, w') ∧
      Paired m w' := by
  obtain ⟨row, hrow, hrec⟩ := h.known id s hm
  have htime : w.clock < row.expiresAt := hrec.expiry ▸ hin.exact.1
  have hrowstatus : row.status = .pending := Option.some.inj (hrec.status.trans hstatus)
  have hrowjoin : row.join.isSome = true := by
    cases hj : row.join with
    | none => exact absurd (hrec.join.mp hj) hjoin
    | some _ => rfl
  cases hkey : liveHash w id with
  | none =>
      exact ⟨_, combinedSubmit_dead hargs hkey
        (pgSubmit_joined hid hargs hrow hrowstatus htime hrowjoin), ended_paired h⟩
  | some x =>
      have hc := h.cached id s x hm hkey
      have hreq : (Redis.decoded id x).joinRequestId = s.joinRequestId :=
        congrArg Report.requestId hc.report
      exact ⟨_, combinedSubmit_gone (rdSubmit_joined hargs hkey (hc.status.trans hstatus)
        (hc.isOpen hin) (hreq ▸ hjoin)), h⟩

/-- So is a join of a decided session. -/
theorem submit_late (h : Paired m w) (hid : '\x00' ∉ id.toList)
    (hargs : ¬(j.pubKey = [] ∨ j.requestId = ""))
    (hm : m.sessions id = some s) (hstatus : s.status ≠ some .pending) :
    ∃ w', quietly (Combined.submitJoinRequest id j) w = some (.error .gone, w') ∧
      Paired m w' := by
  obtain ⟨row, hrow, hrec⟩ := h.known id s hm
  have hrowstatus : row.status ≠ .pending := fun heq => hstatus (by rw [← hrec.status, heq])
  cases hkey : liveHash w id with
  | none =>
      exact ⟨_, combinedSubmit_dead hargs hkey (pgSubmit_decided hid hargs hrow hrowstatus),
        ended_paired h⟩
  | some x =>
      have hc := h.cached id s x hm hkey
      exact ⟨_, combinedSubmit_gone (rdSubmit_decided hargs hkey (hc.status ▸ hstatus)), h⟩

theorem submit_agrees {C : Crypto} (h : Paired m w) (hid : '\x00' ∉ id.toList)
    (hargs : ¬(j.pubKey = [] ∨ j.requestId = ""))
    (htime : ∀ s, m.sessions id = some s → InTime w.clock s ∧
      (s.status = some .pending → s.joinRequestId = "" →
        JoinTexts j ∧ w.pg.joinRequestTaken j.requestId = false)) :
    ∃ w', (PairingCall.submit id j).onCombined C w =
        some (((PairingCall.submit id j).onMemory w.clock m).2, w') ∧
      Paired ((PairingCall.submit id j).onMemory w.clock m).1 w' := by
  have hcode : ∀ {m' : MemStore} {r : Except Err Unit},
      (∃ w', quietly (Combined.submitJoinRequest id j) w = some (r, w') ∧ Paired m' w') →
        ∃ w', (PairingCall.submit id j).onCombined C w = some (plainAns r, w') ∧
          Paired m' w' := by
    intro m' r hr
    obtain ⟨w', hquiet, hpaired⟩ := hr
    refine ⟨w', ?_, hpaired⟩
    show (quietly (Combined.submitJoinRequest id j) w).map _ = _
    rw [hquiet]
    rfl
  show ∃ w', _ = some (plainAns (m.submitJoinRequest w.clock id j).2, w') ∧
    Paired (m.submitJoinRequest w.clock id j).1 w'
  unfold MemStore.submitJoinRequest
  cases hm : m.sessions id with
  | none =>
      obtain ⟨hrow, hkey⟩ := h.missing hm
      exact hcode ⟨_, combinedSubmit_dead hargs hkey (pgSubmit_missing hid hargs hrow),
        ended_paired h⟩
  | some s =>
      obtain ⟨hin, hfresh⟩ := htime s hm
      simp only [if_neg hin.exact.2]
      by_cases hstatus : s.status = some .pending
      · by_cases hjoin : s.joinRequestId = ""
        · rw [if_neg (not_or.mpr ⟨not_not_intro hstatus, not_not_intro hjoin⟩)]
          obtain ⟨hj, htaken⟩ := hfresh hstatus hjoin
          exact hcode (submit_first h hid hj hargs hm hin hstatus hjoin htaken)
        · rw [if_pos (.inr hjoin)]
          exact hcode (submit_second h hid hargs hm hin hstatus hjoin)
      · rw [if_pos (.inl hstatus)]
        exact hcode (submit_late h hid hargs hm hstatus)

end Submit

/-! ### Decide -/

/-- A decision both stores take: in time, on a live entry, a rejection of a join by a
granter whose name Postgres takes; or an approval that has nothing to approve yet. -/
def DecidesAlike (w : World) (id : String) (s : PairingSession) (approve : Bool)
    (granter : String) : Prop :=
  InTime w.clock s ∧
    if s.status = some .pending then
      (approve = true ∧ s.joinRequestId = "") ∨
        (approve = false ∧ s.joinRequestId ≠ "" ∧ liveHash w id ≠ none ∧
          '\x00' ∉ granter.toList)
    else liveHash w id ≠ none

theorem Recorded.rejected {row : SessionRow} (h : Recorded s row) (granter : String)
    (sig : Bytes) : Recorded { s with status := some .rejected }
      { row with status := .rejected, granterDeviceId := granter, granterSignature := sig } where
  report := congrArg (fun r : Report => { r with status := some .rejected }) h.report
  expiry := h.expiry
  join := h.join

theorem Cached.rejected {x : PairingHash} (h : Cached id s x) (now : Time) :
    Cached id { s with status := some .rejected } (markedHash x .rejected now) where
  report := congrArg (fun r : Report => { r with status := some .rejected }) h.report
  expiry := h.expiry
  join := h.join

variable {C : Crypto} {pub sig : Bytes} {granter : String}

/-- A decision that Redis lets through and Postgres refuses as a conflict. -/
theorem combinedDecide_conflict {approve : Bool} {x : Except Err Unit}
    (hrd : quietly (Redis.checkPairingLive id) w = some (x, w))
    (hx : x = .ok () ∨ x = .error .notFound)
    (hpg : quietly (Postgres.decidePairingSession C id approve pub sig granter) w =
      some (.error .conflict, w')) :
    quietly (Combined.decidePairingSession C id approve pub sig granter) w =
      some (.error .conflict, w') := by
  have hdurably : quietly (Combined.decideDurably C id approve pub sig granter) w =
      some (.error .conflict, w') := by
    unfold Combined.decideDurably
    rw [quietly_bind hpg]
    rfl
  unfold Combined.decidePairingSession
  rw [quietly_bind hrd]
  obtain rfl | rfl := hx
  · exact hdurably
  · exact hdurably

/-- An approval in time of a session nobody joined. -/
theorem decide_unjoined (h : Paired m w) (hid : '\x00' ∉ id.toList)
    (hm : m.sessions id = some s) (hin : InTime w.clock s)
    (hstatus : s.status = some .pending) (hjoin : s.joinRequestId = "") :
    ∃ w', quietly (Combined.decidePairingSession C id true pub sig granter) w =
      some (.error .conflict, w') ∧ Paired m w' := by
  obtain ⟨row, hrow, hrec⟩ := h.known id s hm
  have htime : w.clock < row.expiresAt := hrec.expiry ▸ hin.exact.1
  have hrowstatus : row.status = .pending := Option.some.inj (hrec.status.trans hstatus)
  have hpg : quietly (Postgres.decidePairingSession C id true pub sig granter) w =
      some (.error .conflict, locked w id) :=
    pgDecide_unjoined hid (h.free _) hrow hrowstatus htime (hrec.join.mpr hjoin)
  have hpaired : Paired m (locked w id) := h.same (locked_touches h.free) rfl rfl
  cases hkey : liveHash w id with
  | none => exact ⟨_, combinedDecide_conflict (rdCheck_missing hkey) (.inr rfl) hpg, hpaired⟩
  | some x =>
      have hc := h.cached id s x hm hkey
      exact ⟨_, combinedDecide_conflict (rdCheck_open hkey (hc.status.trans hstatus)
        (hc.isOpen hin)) (.inl rfl) hpg, hpaired⟩

/-- A rejection in time, on a live entry. -/
theorem decide_rejected (h : Paired m w) (hid : '\x00' ∉ id.toList)
    (hgranter : '\x00' ∉ granter.toList) (hm : m.sessions id = some s) (hin : InTime w.clock s)
    (hstatus : s.status = some .pending) (hlive : liveHash w id ≠ none) :
    ∃ w', quietly (Combined.decidePairingSession C id false pub sig granter) w =
      some (.ok (), w') ∧ Paired (m.put id { s with status := some .rejected }) w' := by
  obtain ⟨row, hrow, hrec⟩ := h.known id s hm
  have htime : w.clock < row.expiresAt := hrec.expiry ▸ hin.exact.1
  have hrowstatus : row.status = .pending := Option.some.inj (hrec.status.trans hstatus)
  obtain ⟨x, hkey⟩ := Option.ne_none_iff_exists'.mp hlive
  have hc := h.cached id s x hm hkey
  have hpg : quietly (Postgres.decidePairingSession C id false pub sig granter) w =
      some (.ok (), rejected w id granter sig) :=
    pgDecide_rejected hid hgranter (h.free _) hrow hrowstatus htime
  obtain ⟨htouch, hlanded⟩ : Touches id w (rejected w id granter sig) ∧
      (rejected w id granter sig).pg.session id = _ :=
    landed_touches rfl (deciding_locks h.free _) (fun _ => rfl) fun _ => rfl
  rw [hrow] at hlanded
  have hkey' : liveHash (rejected w id granter sig) id = some x := hkey
  obtain ⟨w', hmark, hpgsame, htouch', hlive'⟩ := rdMark htouch.free hkey' .rejected
  refine ⟨w', ?_, h.change (htouch.trans htouch') (hpgsame ▸ hlanded)
    (hrec.rejected granter sig) fun y hy => ?_⟩
  · unfold Combined.decidePairingSession
    rw [quietly_bind (rdCheck_open hkey (hc.status.trans hstatus) (hc.isOpen hin))]
    show quietly (Combined.decideDurably C id false pub sig granter) w = _
    unfold Combined.decideDurably
    rw [quietly_bind hpg]
    show quietly (Redis.markPairingConsumed id .rejected >>= _) _ = _
    rw [quietly_bind hmark]
    rfl
  · rw [hlive' y hy]
    exact hc.rejected _

theorem decide_agrees {approve : Bool} (h : Paired m w) (hid : '\x00' ∉ id.toList)
    (hdec : ∀ s, m.sessions id = some s → DecidesAlike w id s approve granter) :
    ∃ w', (PairingCall.decide id approve pub sig granter).onCombined C w =
        some (((PairingCall.decide id approve pub sig granter).onMemory w.clock m).2, w') ∧
      Paired ((PairingCall.decide id approve pub sig granter).onMemory w.clock m).1 w' := by
  have hcode : ∀ {m' : MemStore} {r : Except Err Unit},
      (∃ w', quietly (Combined.decidePairingSession C id approve pub sig granter) w =
        some (r, w') ∧ Paired m' w') →
        ∃ w', (PairingCall.decide id approve pub sig granter).onCombined C w =
          some (plainAns r, w') ∧ Paired m' w' := by
    intro m' r hr
    obtain ⟨w', hquiet, hpaired⟩ := hr
    refine ⟨w', ?_, hpaired⟩
    show (quietly (Combined.decidePairingSession C id approve pub sig granter) w).map _ = _
    rw [hquiet]
    rfl
  show ∃ w', _ = some (plainAns (m.decidePairingSession w.clock id approve pub).2, w') ∧
    Paired (m.decidePairingSession w.clock id approve pub).1 w'
  unfold MemStore.decidePairingSession
  cases hm : m.sessions id with
  | none =>
      obtain ⟨hrow, hkey⟩ := h.missing hm
      refine hcode ⟨_, ?_, ended_paired h⟩
      unfold Combined.decidePairingSession
      rw [quietly_bind (rdCheck_missing hkey)]
      show quietly (Combined.decideDurably C id approve pub sig granter) w = _
      unfold Combined.decideDurably
      rw [quietly_bind (pgDecide_missing hid hrow)]
      rfl
  | some s =>
      obtain ⟨hin, hcase⟩ := hdec s hm
      simp only [if_neg hin.exact.2]
      by_cases hstatus : s.status = some .pending
      · rw [if_neg (not_not_intro hstatus)]
        rw [if_pos hstatus] at hcase
        obtain ⟨rfl, hjoin⟩ | ⟨rfl, hjoin, hlive, hgranter⟩ := hcase
        · rw [if_pos hjoin]
          exact hcode (decide_unjoined h hid hm hin hstatus hjoin)
        · rw [if_neg hjoin, if_neg fun hand : false = true ∧ _ => absurd hand.1 (by decide)]
          exact hcode (decide_rejected h hid hgranter hm hin hstatus hlive)
      · rw [if_pos hstatus]
        rw [if_neg hstatus] at hcase
        obtain ⟨x, hkey⟩ := Option.ne_none_iff_exists'.mp hcase
        have hc := h.cached id s x hm hkey
        refine hcode ⟨w, ?_, h⟩
        unfold Combined.decidePairingSession
        rw [quietly_bind (rdCheck_decided hkey (hc.status ▸ hstatus))]
        rfl

/-! ## Runs -/

/-- The two stores, and the time that both use. -/
structure Stores where
  memory : MemStore
  world : World

/-- Time passes, or a method is called on both stores. -/
inductive Move where
  | pass (d : Nat)
  | call (c : PairingCall)

/-- One move; there is no next state where the combined store does not return. -/
def Stores.next (C : Crypto) (x : Stores) : Move → Option Stores
  | .pass d => some ⟨x.memory, x.world.pass d⟩
  | .call c => (c.onCombined C x.world).map fun r =>
      ⟨(c.onMemory x.world.clock x.memory).1, r.2⟩

/-- A call that the two stores answer alike. -/
def Stores.Takes (x : Stores) : PairingCall → Prop
  | .create s =>
      if x.memory.sessions s.id = none then Creatable x.world s else s.userId = "" ∨ SessionTexts s
  | .get id => '\x00' ∉ id.toList ∧ ∀ s, x.memory.sessions id = some s →
      s.status = some .pending → InTime x.world.clock s
  | .submit id j => '\x00' ∉ id.toList ∧ ¬(j.pubKey = [] ∨ j.requestId = "") ∧
      ∀ s, x.memory.sessions id = some s → InTime x.world.clock s ∧
        (s.status = some .pending → s.joinRequestId = "" →
          JoinTexts j ∧ x.world.pg.joinRequestTaken j.requestId = false)
  | .decide id approve _ _ granter => '\x00' ∉ id.toList ∧
      ∀ s, x.memory.sessions id = some s → DecidesAlike x.world id s approve granter

def Stores.Aligned (x : Stores) : Move → Prop
  | .pass _ => True
  | .call c => x.Takes c

/-- The combined store returns, the answers are the same, and so is the number of
grants afterwards. -/
def Stores.Agree (C : Crypto) (x : Stores) (mv : Move) : Prop :=
  ∃ x', x.next C mv = some x' ∧ x'.world.pg.grants.length = x'.memory.grants.length ∧
    ∀ c, mv = .call c → (c.onCombined C x.world).map Prod.fst =
      some (c.onMemory x.world.clock x.memory).2

/-- No session, no live entry, no grant and no lock. -/
structure Blank (w : World) : Prop where
  sessions : w.pg.sessions = []
  grants : w.pg.grants = []
  free : Free w.pg
  pairing : w.rd.pairing = .empty

theorem Blank.paired (h : Blank w) : Paired {} w where
  free := h.free
  grants := congrArg List.length h.grants
  known id s hs := by cases hs
  cached id s c hs := by cases hs
  absent id _ := by
    refine ⟨?_, by rw [h.pairing]; rfl⟩
    show w.pg.sessions.find? _ = none
    rw [h.sessions, List.find?_nil]

theorem Paired.pass (h : Paired m w) (d : Nat) : Paired m (w.pass d) where
  free := h.free
  grants := h.grants
  known := h.known
  cached id s x hs hx := by
    have hle : w.rd.now ≤ w.rd.now + (d : Int) := Int.le_add_of_nonneg_right (Int.natCast_nonneg d)
    exact h.cached id s x hs (TtlMap.get_later hle hx)
  absent := h.absent

/-- One call. -/
theorem Paired.call {C : Crypto} (h : Paired m w) {c : PairingCall} (hc : Stores.Takes ⟨m, w⟩ c) :
    ∃ w', c.onCombined C w = some ((c.onMemory w.clock m).2, w') ∧
      Paired (c.onMemory w.clock m).1 w' := by
  cases c with
  | create s => exact create_agrees h hc
  | get id => exact ⟨w, get_agrees h hc.1 hc.2, h⟩
  | submit id j => exact submit_agrees h hc.1 hc.2.1 hc.2.2
  | decide id approve pub sig granter => exact decide_agrees h hc.1 hc.2

/-- One move. -/
theorem Paired.move {C : Crypto} {x : Stores} (h : Paired x.memory x.world) {mv : Move}
    (hmv : x.Aligned mv) :
    ∃ x', x.next C mv = some x' ∧ Paired x'.memory x'.world ∧ x.Agree C mv := by
  cases mv with
  | pass d =>
      have hpaired := h.pass d
      exact ⟨_, rfl, hpaired, _, rfl, hpaired.grants, nofun⟩
  | call c =>
      obtain ⟨w', hcode, hpaired⟩ := h.call (C := C) hmv
      have hnext : x.next C (.call c) =
          some ⟨(c.onMemory x.world.clock x.memory).1, w'⟩ := by
        show (c.onCombined C x.world).map _ = _
        rw [hcode]
        rfl
      refine ⟨_, hnext, hpaired, _, hnext, hpaired.grants, fun c' hc' => ?_⟩
      cases hc'
      rw [hcode]
      rfl

/-- A database with one user. -/
def oneUser : World := { pg := { toTables := { users := ["u"] } } }

theorem oneUser_blank : Blank oneUser := ⟨rfl, rfl, fun _ => rfl, rfl⟩

/-- A session open for a minute. -/
def minute : PairingSession where
  id := "p"
  userId := "u"
  createdBy := "PH-1"
  status := none
  expiresAt := 60 * Time.second
  qrNonce := "n"

def computerJoin : Join := ⟨[1], "fp", "Desk", "join-1"⟩

/-- SHA-256 on the binding of the join's key to the session and the granter. -/
def crypto : Crypto where
  sha256 b :=
    if b = [1, 0] ++ Trust.utf8 "p" ++ [0] ++ Trust.utf8 "PH-1" then
      Sample.bytes 32 0x71594bae027b496e336497accc9eff59042fe7af0e1c12dec1ccc0cff6746896
    else []
  ed25519Verify _ _ _ := false

/-- The state after a move. -/
def moved (x : Stores) (mv : Move) : Stores := (x.next crypto mv).getD x

theorem moved_next {x : Stores} {mv : Move} (h : (x.next crypto mv).isSome = true) :
    x.next crypto mv = some (moved x mv) := by
  obtain ⟨x', hx'⟩ := Option.isSome_iff_exists.mp h
  unfold moved
  rw [hx']
  rfl

def started : Stores := ⟨{}, oneUser⟩
def created : Stores := moved started (.call (.create minute))
def waited : Stores := moved created (.pass 1000000000)
def joined : Stores := moved waited (.call (.submit "p" computerJoin))
def refused : Stores := moved joined (.call (.decide "p" false [] [2] "PH-1"))

/-- The Owner approves the key that joined. -/
def approves : PairingCall := .decide "p" true [1] [2] "PH-1"

private theorem run_facts :
    (started.next crypto (.call (.create minute))).isSome = true ∧
    (waited.next crypto (.call (.submit "p" computerJoin))).isSome = true ∧
    (joined.next crypto (.call (.decide "p" false [] [2] "PH-1"))).isSome = true ∧
    waited.memory.sessions "p" = some { minute with status := some .pending } ∧
    joined.memory.sessions "p" = some (withJoin { minute with status := some .pending }
      computerJoin) ∧
    refused.memory.sessions "p" = some { withJoin { minute with status := some .pending }
      computerJoin with status := some .rejected } ∧
    waited.world.clock = 1000000000 ∧ joined.world.clock = 1000000000 ∧
    waited.world.pg.joinRequestTaken "join-1" = false ∧ liveHash joined.world "p" ≠ none ∧
    (joined.next crypto (.call approves)).map
      (fun x => (x.world.pg.grants.length, x.memory.grants.length)) = some (1, 0) := by
  decide

/-- The session is created, joined and rejected in time, and read. -/
def rejection : List Move :=
  [.call (.create minute), .pass 1000000000, .call (.submit "p" computerJoin),
    .call (.decide "p" false [] [2] "PH-1"), .call (.get "p")]

theorem rejection_aligned : Along (Stores.next crypto) Stores.Aligned started rejection := by
  obtain ⟨hcreate, hsubmit, hdecide, hwaited, hjoined, hrefused, hclock, hclock', hfresh, hlive,
    -⟩ := run_facts
  have hid : '\x00' ∉ "p".toList := by decide
  have hget : refused.Aligned (.call (.get "p")) := by
    refine ⟨hid, fun s hs hpending => ?_⟩
    cases hrefused.symm.trans hs
    cases hpending
  have hreject : joined.Aligned (.call (.decide "p" false [] [2] "PH-1")) := by
    refine ⟨hid, fun s hs => ?_⟩
    cases hjoined.symm.trans hs
    refine ⟨?_, .inr ⟨rfl, by decide, hlive, by decide⟩⟩
    rw [hclock']
    decide
  have hjoin : waited.Aligned (.call (.submit "p" computerJoin)) := by
    refine ⟨hid, by decide, fun s hs => ?_⟩
    cases hwaited.symm.trans hs
    refine ⟨?_, fun _ _ => ⟨⟨by decide, by decide, by decide⟩, hfresh⟩⟩
    rw [hclock]
    decide
  have htexts : SessionTexts minute := ⟨hid, by decide, by decide, by decide⟩
  have hopen : started.Aligned (.call (.create minute)) := by
    have hnew : started.memory.sessions minute.id = none := rfl
    show if started.memory.sessions minute.id = none then Creatable started.world minute
      else minute.userId = "" ∨ SessionTexts minute
    rw [if_pos hnew]
    exact ⟨by decide, by decide, by decide, rfl, rfl, by decide, htexts⟩
  have hread : Along (Stores.next crypto) Stores.Aligned refused [.call (.get "p")] :=
    ⟨hget, fun _ _ => trivial⟩
  have hrest : Along (Stores.next crypto) Stores.Aligned waited
      [.call (.submit "p" computerJoin), .call (.decide "p" false [] [2] "PH-1"),
        .call (.get "p")] :=
    .cons hjoin (moved_next hsubmit) (.cons hreject (moved_next hdecide) hread)
  have hwait : created.next crypto (.pass 1000000000) = some waited := rfl
  exact .cons hopen (moved_next hcreate) (.cons trivial hwait hrest)

end Calcar.TwoStores
