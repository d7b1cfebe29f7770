import Calcar.Store.Combined
import Calcar.Store.PgSteps

/-!
# One session in the log

A pairing session is created pending.  What the log has on it since then is a
join or none, followed by at most one ending: it expires, is rejected, or is
approved together with one grant for the joined key.

Inside a transaction the same pieces appear one write at a time, and only
under the lock of the row.  `SessionInv` says both; a statement keeps it when
the thread that issues it may issue it there (`Allowed`).

## Main results

* `view_writes` — the row and its grants follow the writes on the session.
* `SessionInv.exec` — statements that are allowed keep the invariant.
* `SessionInv.frame` — what the others leave to the thread that holds the lock.
-/

namespace Calcar

open Pg

namespace Pg

/-! ## Writes on a session -/

/-- The write changes the row of the session, or is a grant made in it. -/
def Write.On (id : String) : Write → Bool
  | .expireSession x => x = id
  | .recordJoin x _ => x = id
  | .addGrant g => g.session = id
  | .decideSession x _ _ _ => x = id
  | _ => false

/-- The writes on a session, in order. -/
def bearing (id : String) (ws : List Write) : List Write := ws.filter fun w => w.On id

@[simp] theorem bearing_nil (id : String) : bearing id [] = [] := rfl

theorem bearing_append (id : String) (ws ws' : List Write) :
    bearing id (ws ++ ws') = bearing id ws ++ bearing id ws' := List.filter_append ws ws'

theorem bearing_on {id : String} {w : Write} (h : w.On id = true) (ws : List Write) :
    bearing id (ws ++ [w]) = bearing id ws ++ [w] := by
  rw [bearing_append]
  simp [bearing, h]

theorem bearing_off {id : String} {w : Write} (h : w.On id = false) (ws : List Write) :
    bearing id (ws ++ [w]) = bearing id ws := by
  rw [bearing_append]
  simp [bearing, h]

/-- A session as the tables have it: its row and the grants made in it. -/
structure View where
  row : Option SessionRow
  grants : List TrustGrant

def Tables.view (t : Tables) (id : String) : View :=
  ⟨t.session id, t.grants.filter fun g => g.session = id⟩

/-- What a write on the session does to it. -/
def View.apply (v : View) : Write → View
  | .expireSession _ => { v with row := v.row.map fun s => { s with status := .expired } }
  | .recordJoin _ j => { v with row := v.row.map fun s => { s with join := some j } }
  | .addGrant g => { v with grants := v.grants ++ [g] }
  | .decideSession _ status granter sig =>
      { v with row := v.row.map fun s =>
          { s with status := status, granterDeviceId := granter, granterSignature := sig } }
  | _ => v

theorem session_modify (t : Tables) {x id : String} {f : SessionRow → SessionRow}
    (hf : ∀ s, (f s).id = s.id) :
    (t.modifySession x f).session id =
      if x = id then (t.session id).map f else t.session id := by
  have hid : ∀ s : SessionRow, (if s.id = x then f s else s).id = s.id := by
    intro s
    by_cases h : s.id = x
    · rw [if_pos h, hf]
    · rw [if_neg h]
  unfold Tables.session Tables.modifySession
  simp only [List.find?_map, Function.comp_def, hid]
  cases hs : t.sessions.find? fun s => decide (s.id = id) with
  | none => simp
  | some s =>
      have hsid : s.id = id := by simpa using List.find?_some hs
      show some (if s.id = x then f s else s) = _
      by_cases hx : x = id
      · rw [if_pos (hsid.trans hx.symm), if_pos hx]
        rfl
      · rw [if_neg (fun h => hx (h.symm.trans hsid)), if_neg hx]

/-- **One write.**  It moves the view of its own session and of no other. -/
theorem view_apply {t : Tables} {id : String} (h : (t.session id).isSome = true) (w : Write) :
    (t.apply w).view id = if w.On id then (t.view id).apply w else t.view id := by
  cases w with
  | expireSession x =>
      show View.mk _ _ = _
      rw [show ((t.apply (.expireSession x)).session id) = _ from
        session_modify t (fun _ => rfl)]
      by_cases hx : x = id
      · simp [Write.On, hx, View.apply, Tables.view, Tables.apply, Tables.modifySession]
      · simp [Write.On, hx, Tables.view, Tables.apply, Tables.modifySession]
  | recordJoin x j =>
      show View.mk _ _ = _
      rw [show ((t.apply (.recordJoin x j)).session id) = _ from
        session_modify t (fun _ => rfl)]
      by_cases hx : x = id
      · simp [Write.On, hx, View.apply, Tables.view, Tables.apply, Tables.modifySession]
      · simp [Write.On, hx, Tables.view, Tables.apply, Tables.modifySession]
  | decideSession x status granter sig =>
      show View.mk _ _ = _
      rw [show ((t.apply (.decideSession x status granter sig)).session id) = _ from
        session_modify t (fun _ => rfl)]
      by_cases hx : x = id
      · simp [Write.On, hx, View.apply, Tables.view, Tables.apply, Tables.modifySession]
      · simp [Write.On, hx, Tables.view, Tables.apply, Tables.modifySession]
  | addGrant g =>
      by_cases hg : g.session = id
      · simp [Write.On, hg, View.apply, Tables.view, Tables.apply, Tables.session]
      · simp [Write.On, hg, Tables.view, Tables.apply, Tables.session]
  | addSession s =>
      have hrow : (t.apply (.addSession s)).session id = t.session id := by
        unfold Tables.session at h ⊢
        show (t.sessions ++ [s]).find? _ = _
        rw [List.find?_append]
        cases hs : t.sessions.find? fun s => decide (s.id = id) with
        | none => rw [hs] at h; cases h
        | some _ => rfl
      show View.mk _ _ = View.mk _ _
      rw [hrow]
      rfl
  | putConn conn device lastSeen =>
      show View.mk _ _ = View.mk _ _
      simp only [Tables.apply]
      split
      · rfl
      · rfl
  | _ => rfl

theorem view_isSome_apply {t : Tables} {id : String} (h : (t.session id).isSome = true)
    (w : Write) : ((t.apply w).session id).isSome = true := by
  show ((t.apply w).view id).row.isSome = true
  rw [view_apply h w]
  by_cases hw : w.On id = true
  · rw [if_pos hw]
    cases w <;> simpa [View.apply, Tables.view] using h
  · rw [if_neg hw]
    exact h

/-- **Many writes.**  The view follows those on its session. -/
theorem view_writes {id : String} (ws : List Write) {t : Tables}
    (h : (t.session id).isSome = true) :
    (ws.foldl Tables.apply t).view id = (bearing id ws).foldl View.apply (t.view id) := by
  induction ws generalizing t with
  | nil => rfl
  | cons w ws ih =>
      have hone := view_apply h w
      rw [List.foldl_cons, ih (view_isSome_apply h w), hone]
      by_cases hw : w.On id = true
      · simp [bearing, hw]
      · simp [bearing, hw]

end Pg

/-! ## What the log has on a session -/

/-- The grant is for the joined key. -/
structure Binds (C : Crypto) (id : String) (j : Join) (g : TrustGrant) : Prop where
  session : g.session = id
  key : g.subjectPubKey = j.pubKey
  binding : g.payloadHash = Postgres.grantBinding C id g.granterDeviceId j.pubKey

/-- The last writes on a session with this join, the status they leave and the
grants. -/
inductive Ends (C : Crypto) (id : String) (j : Option Join) :
    Status → List TrustGrant → List Write → Prop where
  | «open» : Ends C id j .pending [] []
  | expired : Ends C id j .expired [] [.expireSession id]
  | rejected {granter : String} {sig : Bytes} :
      Ends C id j .rejected [] [.decideSession id .rejected granter sig]
  | approved {k : Join} {g : TrustGrant} {granter : String} {sig : Bytes} (hj : j = some k)
      (hg : Binds C id k g) :
      Ends C id j .approved [g] [.addGrant g, .decideSession id .approved granter sig]

/-- What a transaction can have on a session with this join. -/
inductive Piece (C : Crypto) (id : String) (j : Option Join) : List Write → Prop where
  | join {k : Join} (hj : j = none) : Piece C id j [.recordJoin id k]
  | expire : Piece C id j [.expireSession id]
  | reject {granter : String} {sig : Bytes} :
      Piece C id j [.decideSession id .rejected granter sig]
  | grant {k : Join} {g : TrustGrant} (hj : j = some k) (hg : Binds C id k g) :
      Piece C id j [.addGrant g]
  | approve {k : Join} {g : TrustGrant} {granter : String} {sig : Bytes} (hj : j = some k)
      (hg : Binds C id k g) :
      Piece C id j [.addGrant g, .decideSession id .approved granter sig]

/-- The writes the log has from its `n`th entry on. -/
def landed (n : Nat) (p : PgState) : List Write := (p.wal.drop n).flatMap Commit.writes

/-- The session as the log has it. -/
structure Stands (C : Crypto) (id : String) (n : Nat) (p : PgState) (row : SessionRow)
    (ends : List Write) : Prop where
  shown : p.session id = some row
  log : bearing id (landed n p) = row.join.toList.map (Write.recordJoin id) ++ ends
  ends : Ends C id row.join row.status (p.grants.filter fun g => g.session = id) ends

/-- The thread holds the lock of the row, which is pending. -/
structure Holds (id : String) (i : Nat) (p : PgState) (row : SessionRow) : Prop where
  lock : p.locks (.session id) = some i
  shown : p.session id = some row
  pending : row.status = .pending

/-- The writes an open transaction has on the session. -/
def Staged (C : Crypto) (id : String) (i : Nat) (p : PgState) (ws : List Write) : Prop :=
  bearing id ws = [] ∨ ∃ row, Holds id i p row ∧ Piece C id row.join (bearing id ws)

/-- The committed session and what open transactions have on it. -/
structure SessionInv (C : Crypto) (id : String) (n : Nat) (p : PgState) : Prop where
  size : n ≤ p.wal.length
  stands : ∃ row ends, Stands C id n p row ends
  staged : ∀ i tx, p.txs i = some tx → tx.aborted = false → Staged C id i p tx.writes

/-! ## Statements that are allowed -/

/-- The thread has nothing on the session. -/
def Quiet (id : String) (i : Nat) (p : PgState) : Prop :=
  ∀ tx, p.txs i = some tx → tx.aborted = false → bearing id tx.writes = []

/-- What the thread has on the session can be committed as it is. -/
def Whole (id : String) (i : Nat) (p : PgState) : Prop :=
  ∀ tx, p.txs i = some tx → tx.aborted = false → ∀ g, bearing id tx.writes ≠ [.addGrant g]

theorem Quiet.whole {id : String} {i : Nat} {p : PgState} (h : Quiet id i p) :
    Whole id i p := by
  intro tx htx hlive g hg
  rw [h tx htx hlive] at hg
  cases hg

/-- A decision may follow: a rejection what is quiet, an approval its grant. -/
def Decides (C : Crypto) (id : String) (i : Nat) (p : PgState) (row : SessionRow) :
    Status → Prop
  | .rejected => Quiet id i p
  | .approved => ∃ k g, row.join = some k ∧ Binds C id k g ∧
      ∀ tx, p.txs i = some tx → tx.aborted = false → bearing id tx.writes = [.addGrant g]
  | _ => False

/-- Where a thread may issue a statement. -/
def Allowed (C : Crypto) (id : String) (i : Nat) : PgCmd → PgState → Prop
  | .txExpirePending x, p => x = id → Quiet id i p
  | .txRecordJoin x _, p => x = id → Quiet id i p
  | .txExpire x, p => x = id → Quiet id i p ∧ ∃ row, Holds id i p row
  | .txAddGrant g, p => g.session = id →
      Quiet id i p ∧ ∃ row k, Holds id i p row ∧ row.join = some k ∧ Binds C id k g
  | .txDecide x st _ _, p => x = id → ∃ row, Holds id i p row ∧ Decides C id i p row st
  | .commit, p => Whole id i p
  | _, _ => True

/-! ## The committed session -/

section Committed

variable {C : Crypto} {id : String} {n : Nat} {p q : PgState}

theorem landed_append (h : n ≤ p.wal.length) {i : Nat} {ws : List Write}
    (hq : q.wal = p.wal ++ [⟨i, ws⟩]) : landed n q = landed n p ++ ws := by
  unfold landed
  rw [hq, List.drop_append_of_le_length h, List.flatMap_append]
  simp

/-- Nothing on the session lands. -/
theorem Stands.same {row : SessionRow} {ends : List Write} (h : Stands C id n p row ends)
    (hview : q.toTables.view id = p.toTables.view id)
    (hlog : bearing id (landed n q) = bearing id (landed n p)) : Stands C id n q row ends := by
  have hrow : q.session id = p.session id := congrArg View.row hview
  have hgrants : q.grants.filter (fun g => g.session = id) =
      p.grants.filter fun g => g.session = id := congrArg View.grants hview
  constructor
  · rw [hrow, h.shown]
  · rw [hlog, h.log]
  · rw [hgrants]
    exact h.ends

/-- **A piece lands** on a pending row, as long as it is no lone grant. -/
theorem Stands.land {row : SessionRow} {ends ws : List Write} (h : Stands C id n p row ends)
    (hpending : row.status = .pending) (hpiece : Piece C id row.join ws)
    (hwhole : ∀ g, ws ≠ [.addGrant g])
    (hview : q.toTables.view id = ws.foldl View.apply (p.toTables.view id))
    (hlog : bearing id (landed n q) = bearing id (landed n p) ++ ws) :
    ∃ row' ends', Stands C id n q row' ends' := by
  have hnone : ends = [] ∧ (p.grants.filter fun g => g.session = id) = [] := by
    have hends := h.ends
    rw [hpending] at hends
    generalize hgs : (p.grants.filter fun g => g.session = id) = gs at hends
    cases hends
    exact ⟨rfl, rfl⟩
  have hv : p.toTables.view id = ⟨some row, []⟩ := by
    show View.mk _ _ = _
    rw [hnone.2, show p.toTables.session id = some row from h.shown]
  have hl := h.log
  rw [hnone.1, List.append_nil] at hl
  rw [hv] at hview
  rw [hl] at hlog
  have hstands : ∀ (row' : SessionRow) (gs : List TrustGrant) (ends' : List Write),
      q.toTables.view id = ⟨some row', gs⟩ →
      bearing id (landed n q) = row'.join.toList.map (Write.recordJoin id) ++ ends' →
      Ends C id row'.join row'.status gs ends' → Stands C id n q row' ends' := by
    intro row' gs ends' hview' hlog' hends'
    refine ⟨congrArg View.row hview', hlog', ?_⟩
    have hgs : (q.grants.filter fun g => g.session = id) = gs := congrArg View.grants hview'
    rw [hgs]
    exact hends'
  cases hpiece with
  | @join k hj =>
      refine ⟨{ row with join := some k }, [], hstands _ [] _ hview ?_ ?_⟩
      · rw [hlog, hj]
        rfl
      · show Ends C id (some k) row.status [] []
        rw [hpending]
        exact .open
  | expire =>
      exact ⟨{ row with status := .expired }, _, hstands _ [] _ hview hlog .expired⟩
  | @reject granter sig =>
      exact ⟨{ row with
        status := .rejected, granterDeviceId := granter, granterSignature := sig }, _,
        hstands _ [] _ hview hlog .rejected⟩
  | @grant k g hj hg => exact absurd rfl (hwhole g)
  | @approve k g granter sig hj hg =>
      exact ⟨{ row with
        status := .approved, granterDeviceId := granter, granterSignature := sig }, _,
        hstands _ [g] _ hview hlog (.approved hj hg)⟩

end Committed

/-! ## One statement -/

section Statement

variable {C : Crypto} {id : String} {n i j : Nat} {c : PgCmd} {p p' : PgState} {f : Fault}
variable {r : Except PgErr c.Ret}

theorem Holds.staged {row : SessionRow} {ws : List Write} (h : Holds id i p row)
    (hp : Piece C id row.join (bearing id ws)) : Staged C id i p ws := .inr ⟨row, h, hp⟩

/-- Outside a transaction only a free row is changed: it expires. -/
private theorem commits_cases {ws : List Write} (h : Commits p c ws) :
    bearing id ws = [] ∨ p.locks (.session id) = none ∧ bearing id ws = [.expireSession id] ∧
      ∃ s, p.session id = some s ∧ s.status = .pending := by
  cases h with
  | @expire x s hs hp hfree =>
      by_cases hx : x = id
      · subst hx
        exact .inr ⟨hfree, by simp [bearing, Write.On], s, hs, hp⟩
      · exact .inl (by simp [bearing, Write.On, hx])
  | _ => exact .inl rfl

/-- What lands has nothing on the session, or is a piece under the lock. -/
theorem SessionInv.lands (h : SessionInv C id n p) (hall : Allowed C id i c p)
    {ws : List Write} (hl : PgCmd.Lands p i c ws) :
    bearing id ws = [] ∨
      ((∀ j, p.locks (.session id) = some j → j = i) ∧
        ∃ row, p.session id = some row ∧ row.status = .pending ∧
          Piece C id row.join (bearing id ws) ∧ ∀ g, bearing id ws ≠ [.addGrant g]) := by
  cases hl with
  | now hc =>
      rcases commits_cases hc with hnil | ⟨hfree, hbear, s, hs, hp⟩
      · exact .inl hnil
      · rw [hbear]
        refine .inr ⟨?_, s, hs, hp, .expire, ?_⟩
        · intro j hj
          rw [hfree] at hj
          cases hj
        · intro g hg
          cases hg
  | tx hc htx hlive hws =>
      subst hc
      subst hws
      rcases h.staged i _ htx hlive with hnil | ⟨row, hholds, hpiece⟩
      · exact .inl hnil
      · refine .inr ⟨?_, row, hholds.shown, hholds.pending, hpiece, hall _ htx hlive⟩
        intro j hj
        rw [hholds.lock] at hj
        exact (Option.some.inj hj).symm

/-- **The others.**  A statement of another thread leaves a thread its
transaction, its locks and the row it has locked. -/
structure Frame (id : String) (i : Nat) (p p' : PgState) : Prop where
  tx : p'.txs i = p.txs i
  locks : ∀ k, p.locks k = some i → p'.locks k = some i
  row : p.locks (.session id) = some i → p'.session id = p.session id

theorem SessionInv.frame (h : SessionInv C id n p) (hall : Allowed C id i c p) (hj : j ≠ i)
    (hx : c.exec i f p = some (p', r)) : Frame id j p p' := by
  refine ⟨PgCmd.exec_tx_ne hj hx, fun k hk => PgCmd.exec_lock_ne hj hk hx, ?_⟩
  intro hlock
  obtain ⟨row, ends, hstands⟩ := h.stands
  have hsome : (p.toTables.session id).isSome = true := by
    rw [show p.toTables.session id = some row from hstands.shown]
    rfl
  rcases PgCmd.exec_tables hx with ⟨ht, _⟩ | ⟨ws, hl, ht, _⟩
  · show p'.toTables.session id = _
    rw [ht]
  · rcases h.lands hall hl with hnil | ⟨honly, _⟩
    · have hview := view_writes ws hsome
      rw [hnil, ← ht] at hview
      exact congrArg View.row hview
    · exact absurd (honly j hlock) hj

theorem Holds.frame {row : SessionRow} (h : Holds id i p row) (hf : Frame id i p p') :
    Holds id i p' row := by
  refine ⟨hf.locks _ h.lock, ?_, h.pending⟩
  rw [hf.row h.lock]
  exact h.shown

theorem Quiet.frame (h : Quiet id i p) (hf : Frame id i p p') : Quiet id i p' := by
  intro tx htx
  rw [hf.tx] at htx
  exact h tx htx

theorem Whole.frame (h : Whole id i p) (hf : Frame id i p p') : Whole id i p' := by
  intro tx htx
  rw [hf.tx] at htx
  exact h tx htx

theorem Decides.frame {row : SessionRow} {st : Status} (h : Decides C id i p row st)
    (hf : Frame id i p p') : Decides C id i p' row st := by
  cases st with
  | rejected => exact Quiet.frame h hf
  | approved =>
      obtain ⟨k, g, hk, hg, hown⟩ := h
      refine ⟨k, g, hk, hg, ?_⟩
      intro tx htx
      rw [hf.tx] at htx
      exact hown tx htx
  | _ => exact h.elim

/-! ### The thread itself -/

/-- A live transaction of a thread after one of its statements. -/
private theorem own_tx {I : PgState → List Write → Prop}
    (hx : c.exec i f p = some (p', r))
    (hstay : ∀ tx, p.txs i = some tx → tx.aborted = false → I p tx.writes)
    (hcommit : ∀ ws tx, Commits p c ws → p.txs i = some tx → tx.aborted = false →
      I (commitWrites p i ws) tx.writes)
    (hopen : c = .beginTx → I (setTx p i (some {})) [])
    (hstage : ∀ tx w ks, p.txs i = some tx → tx.aborted = false → Stages p i c w ks →
      I (lockAll (stage p i tx w) i ks) (tx.writes ++ [w]))
    (hlock : ∀ x tx, c = .txSelectForUpdate x → p.txs i = some tx → tx.aborted = false →
      I (lock p i (.session x)) tx.writes) :
    ∀ tx, p'.txs i = some tx → tx.aborted = false → I p' tx.writes := by
  refine PgCmd.exec_preserves
    (I := fun q => ∀ tx, q.txs i = some tx → tx.aborted = false → I q tx.writes) hx hstay ?_ ?_ ?_
  · intro q hq tx htx hlive
    cases hq with
    | stay => exact hstay tx htx hlive
    | commit hw => exact hcommit _ tx hw htx hlive
    | «open» he =>
        rw [setTx_self] at htx
        obtain rfl := Option.some.inj htx
        exact hopen he
    | @stage tx₀ w ks htx₀ hlive₀ hst =>
        rw [lockAll_txs] at htx
        unfold stage at htx
        rw [setTx_self] at htx
        obtain rfl := Option.some.inj htx
        exact hstage tx₀ w ks htx₀ hlive₀ hst
    | lockRow hc htx₀ hl => exact hlock _ tx hc htx hlive
    | abort =>
        rw [abortTx_self] at htx
        cases hp : p.txs i with
        | none => rw [hp] at htx; cases htx
        | some tx₀ =>
            rw [hp] at htx
            obtain rfl := Option.some.inj htx
            cases hlive
    | close => rw [closeTx_self] at htx; cases htx
    | commitTx => rw [closeTx_self] at htx; cases htx
  · intro q hq tx htx hlive
    rw [abortTx_self] at htx
    cases hp : q.txs i with
    | none => rw [hp] at htx; cases htx
    | some tx₀ =>
        rw [hp] at htx
        obtain rfl := Option.some.inj htx
        cases hlive
  · intro q hq tx htx hlive
    rw [closeTx_self] at htx
    cases htx

/-- A thread that stages nothing on the session stays quiet. -/
theorem Quiet.exec (h : Quiet id i p) (hoff : ∀ w ks, Stages p i c w ks → w.On id = false)
    (hx : c.exec i f p = some (p', r)) : Quiet id i p' := by
  refine own_tx (I := fun _ ws => bearing id ws = []) hx h ?_ ?_ ?_ ?_
  · exact fun ws tx _ htx hlive => h tx htx hlive
  · exact fun _ => rfl
  · intro tx w ks htx hlive hst
    rw [bearing_off (hoff w ks hst)]
    exact h tx htx hlive
  · exact fun x tx _ htx hlive => h tx htx hlive

/-- What a quiet thread stages can be committed, if it is no grant. -/
theorem Quiet.exec_whole (h : Quiet id i p)
    (hno : ∀ w ks, Stages p i c w ks → ∀ g, w ≠ .addGrant g)
    (hx : c.exec i f p = some (p', r)) : Whole id i p' := by
  refine own_tx (I := fun _ ws => ∀ g, bearing id ws ≠ [.addGrant g]) hx h.whole ?_ ?_ ?_ ?_
  · exact fun ws tx _ htx hlive => h.whole tx htx hlive
  · intro _ g hg
    cases hg
  · intro tx w ks htx hlive hst g
    by_cases hw : w.On id = true
    · rw [bearing_on hw, h tx htx hlive]
      intro hg
      have hwg : w = .addGrant g := by simpa using hg
      exact hno w ks hst g hwg
    · rw [bearing_off (by simpa using hw), h tx htx hlive]
      intro hg
      cases hg
  · exact fun x tx _ htx hlive => h.whole tx htx hlive

/-- The row is not touched while its lock is taken. -/
private theorem holds_locked {row : SessionRow} {tx : Tx} {w : Write} {ks : List LockKey}
    (hlock : p.locks (.session id) = some i ∨ LockKey.session id ∈ ks)
    (hrow : p.session id = some row) (hpending : row.status = .pending) :
    Holds id i (lockAll (stage p i tx w) i ks) row := by
  refine ⟨?_, ?_, hpending⟩
  · rw [lockAll_locks]
    by_cases hk : LockKey.session id ∈ ks
    · rw [if_pos hk]
    · rw [if_neg hk]
      rcases hlock with hl | hl
      · exact hl
      · exact absurd hl hk
  · show (lockAll (stage p i tx w) i ks).toTables.session id = some row
    rw [lockAll_toTables]
    exact hrow

/-- What an allowed statement stages is the next part of a piece. -/
private theorem staged_next {tx : Tx} (hinv : Staged C id i p tx.writes)
    (hall : Allowed C id i c p) (htx : p.txs i = some tx) (hlive : tx.aborted = false)
    {w : Write} {ks : List LockKey} (hst : Stages p i c w ks) :
    Staged C id i (lockAll (stage p i tx w) i ks) (tx.writes ++ [w]) := by
  by_cases hw : w.On id = true
  · unfold Staged
    rw [bearing_on hw]
    right
    cases hst with
    | revocation => cases hw
    | revoke => cases hw
    | @expirePending x s hs hp hl =>
        obtain rfl : x = id := by simpa [Write.On] using hw
        rw [hall rfl tx htx hlive]
        exact ⟨s, holds_locked (.inr List.mem_cons_self) hs hp, .expire⟩
    | @expire x hl =>
        obtain rfl : x = id := by simpa [Write.On] using hw
        obtain ⟨hquiet, row, hholds⟩ := hall rfl
        rw [hquiet tx htx hlive]
        exact ⟨row, holds_locked (.inl hholds.lock) hholds.shown hholds.pending, .expire⟩
    | @join x k s hs hp hj hl hlr hr =>
        obtain rfl : x = id := by simpa [Write.On] using hw
        rw [hall rfl tx htx hlive]
        exact ⟨s, holds_locked (.inr List.mem_cons_self) hs hp, .join hj⟩
    | @grant g =>
        have hg : g.session = id := by simpa [Write.On] using hw
        obtain ⟨hquiet, row, k, hholds, hk, hbinds⟩ := hall hg
        rw [hquiet tx htx hlive]
        exact ⟨row, holds_locked (.inl hholds.lock) hholds.shown hholds.pending,
          .grant hk hbinds⟩
    | @decide x st granter sig hl =>
        obtain rfl : x = id := by simpa [Write.On] using hw
        obtain ⟨row, hholds, hdecides⟩ := hall rfl
        refine ⟨row, holds_locked (.inl hholds.lock) hholds.shown hholds.pending, ?_⟩
        cases st with
        | rejected =>
            rw [hdecides tx htx hlive]
            exact .reject
        | approved =>
            obtain ⟨k, g, hk, hbinds, hown⟩ := hdecides
            rw [hown tx htx hlive]
            exact .approve hk hbinds
        | _ => exact hdecides.elim
  · unfold Staged
    rw [bearing_off (by simpa using hw)]
    rcases hinv with hnil | ⟨row, hholds, hpiece⟩
    · exact .inl hnil
    · exact .inr ⟨row, holds_locked (.inl hholds.lock) hholds.shown hholds.pending, hpiece⟩

/-- **Statements that are allowed keep the invariant.** -/
theorem SessionInv.exec (h : SessionInv C id n p) (hall : Allowed C id i c p)
    (hx : c.exec i f p = some (p', r)) : SessionInv C id n p' := by
  obtain ⟨row, ends, hstands⟩ := h.stands
  have hsome : (p.toTables.session id).isSome = true := by
    rw [show p.toTables.session id = some row from hstands.shown]
    rfl
  have htables := PgCmd.exec_tables hx
  constructor
  · rcases htables with ⟨_, hw⟩ | ⟨ws, _, _, hw⟩
    · rw [hw]
      exact h.size
    · rw [hw, List.length_append]
      exact Nat.le_trans h.size (Nat.le_add_right _ _)
  · rcases htables with ⟨ht, hw⟩ | ⟨ws, hl, ht, hw⟩
    · exact ⟨row, ends, hstands.same (by rw [ht]) (by unfold landed; rw [hw])⟩
    · have hview := view_writes ws hsome
      rw [← ht] at hview
      have hlog : bearing id (landed n p') = bearing id (landed n p) ++ bearing id ws := by
        rw [landed_append h.size hw, bearing_append]
      rcases h.lands hall hl with hnil | ⟨_, row', hrow', hpending, hpiece, hwhole⟩
      · rw [hnil] at hview hlog
        rw [List.append_nil] at hlog
        exact ⟨row, ends, hstands.same hview hlog⟩
      · obtain rfl : row = row' := Option.some.inj (hstands.shown.symm.trans hrow')
        exact hstands.land hpending hpiece hwhole hview hlog
  · intro j tx htx hlive
    by_cases hj : j = i
    · subst hj
      have hself : ∀ tx, p.txs j = some tx → tx.aborted = false → Staged C id j p tx.writes :=
        h.staged j
      refine own_tx (I := fun q ws => Staged C id j q ws) hx hself ?_ ?_ ?_ ?_ tx htx hlive
      · -- a commit outside the transaction meets no lock on the row
        intro ws tx hc htx hlive
        rcases hself tx htx hlive with hnil | ⟨row', hholds, hpiece⟩
        · exact .inl hnil
        · rcases commits_cases hc with hnil | ⟨hfree, _⟩
          · have hv := view_writes ws hsome
            rw [hnil] at hv
            refine .inr ⟨row', ⟨hholds.lock, ?_, hholds.pending⟩, hpiece⟩
            have hsame : (commitWrites p j ws).toTables.session id = p.toTables.session id :=
              congrArg View.row hv
            exact hsame.trans hholds.shown
          · have hlock := hholds.lock
            rw [hfree] at hlock
            cases hlock
      · exact fun _ => .inl rfl
      · exact fun tx w ks htx hlive hst => staged_next (hself tx htx hlive) hall htx hlive hst
      · intro x tx _ htx hlive
        rcases hself tx htx hlive with hnil | ⟨row', hholds, hpiece⟩
        · exact .inl hnil
        · refine .inr ⟨row', ⟨?_, hholds.shown, hholds.pending⟩, hpiece⟩
          by_cases hk : LockKey.session id = .session x
          · rw [hk]
            exact lock_self p j _
          · rw [lock_ne p j hk]
            exact hholds.lock
    · have hframe := h.frame hall hj hx
      rw [hframe.tx] at htx
      rcases h.staged j tx htx hlive with hnil | ⟨row', hholds, hpiece⟩
      · exact .inl hnil
      · exact .inr ⟨row', hholds.frame hframe, hpiece⟩

/-- The invariant is not about the time. -/
theorem SessionInv.clock (h : SessionInv C id n p) (tm : Time) :
    SessionInv C id n { p with now := tm } := by
  obtain ⟨row, ends, hstands⟩ := h.stands
  refine ⟨h.size, ⟨row, ends, hstands.shown, hstands.log, hstands.ends⟩, ?_⟩
  intro i tx htx hlive
  rcases h.staged i tx htx hlive with hnil | ⟨row, hholds, hpiece⟩
  · exact .inl hnil
  · exact .inr ⟨row, ⟨hholds.lock, hholds.shown, hholds.pending⟩, hpiece⟩

end Statement

end Calcar
