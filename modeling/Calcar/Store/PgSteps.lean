import Calcar.Store.Pg

/-!
# What a statement can do to the database

Every statement does one of a few things: nothing, commit some writes at
once, or change the transaction of the thread that issues it.  Invariants
are derived from this list and not from the statements one by one.

## Main results

* `PgCmd.step_moves` — the list.
* `PgCmd.exec_tables` — the committed tables change by a commit of the
  issuing thread, or not at all.
* `PgCmd.exec_tx_ne`, `PgCmd.exec_lock_ne` — transactions and locks of other
  threads stay as they are.
-/

namespace Calcar

namespace Pg

/-! ## Projections -/

@[simp] theorem commitWrites_toTables (p : PgState) (i : Nat) (ws : List Write) :
    (commitWrites p i ws).toTables = ws.foldl Tables.apply p.toTables := rfl

@[simp] theorem commitWrites_txs (p : PgState) (i : Nat) (ws : List Write) :
    (commitWrites p i ws).txs = p.txs := rfl

@[simp] theorem commitWrites_locks (p : PgState) (i : Nat) (ws : List Write) :
    (commitWrites p i ws).locks = p.locks := rfl

@[simp] theorem commitWrites_wal (p : PgState) (i : Nat) (ws : List Write) :
    (commitWrites p i ws).wal = p.wal ++ [⟨i, ws⟩] := rfl

@[simp] theorem setTx_toTables (p : PgState) (i : Nat) (tx : Option Tx) :
    (setTx p i tx).toTables = p.toTables := rfl

@[simp] theorem setTx_wal (p : PgState) (i : Nat) (tx : Option Tx) :
    (setTx p i tx).wal = p.wal := rfl

@[simp] theorem setTx_locks (p : PgState) (i : Nat) (tx : Option Tx) :
    (setTx p i tx).locks = p.locks := rfl

@[simp] theorem setTx_self (p : PgState) (i : Nat) (tx : Option Tx) :
    (setTx p i tx).txs i = tx := by
  simp [setTx]

theorem setTx_ne (p : PgState) {i j : Nat} (tx : Option Tx) (h : j ≠ i) :
    (setTx p i tx).txs j = p.txs j := by
  simp [setTx, h]

@[simp] theorem lock_toTables (p : PgState) (i : Nat) (k : LockKey) :
    (lock p i k).toTables = p.toTables := rfl

@[simp] theorem lock_wal (p : PgState) (i : Nat) (k : LockKey) :
    (lock p i k).wal = p.wal := rfl

@[simp] theorem lock_txs (p : PgState) (i : Nat) (k : LockKey) :
    (lock p i k).txs = p.txs := rfl

@[simp] theorem lock_self (p : PgState) (i : Nat) (k : LockKey) :
    (lock p i k).locks k = some i := by
  simp [lock]

theorem lock_ne (p : PgState) (i : Nat) {k k' : LockKey} (h : k' ≠ k) :
    (lock p i k).locks k' = p.locks k' := by
  simp [lock, h]

@[simp] theorem closeTx_toTables (p : PgState) (i : Nat) :
    (closeTx p i).toTables = p.toTables := rfl

@[simp] theorem closeTx_wal (p : PgState) (i : Nat) : (closeTx p i).wal = p.wal := rfl

@[simp] theorem closeTx_self (p : PgState) (i : Nat) : (closeTx p i).txs i = none := by
  simp [closeTx, setTx]

theorem closeTx_ne (p : PgState) {i j : Nat} (h : j ≠ i) :
    (closeTx p i).txs j = p.txs j := by
  simp [closeTx, setTx, h]

theorem closeTx_lock (p : PgState) {i j : Nat} (h : j ≠ i) (k : LockKey) :
    (closeTx p i).locks k = some j ↔ p.locks k = some j := by
  simp only [closeTx]
  by_cases hk : p.locks k = some i
  · rw [if_pos hk, hk]
    constructor
    · intro h'
      cases h'
    · intro h'
      exact absurd (Option.some.inj h').symm h
  · rw [if_neg hk]

@[simp] theorem abortTx_toTables (p : PgState) (i : Nat) :
    (abortTx p i).toTables = p.toTables := by
  unfold abortTx
  split <;> rfl

@[simp] theorem abortTx_wal (p : PgState) (i : Nat) : (abortTx p i).wal = p.wal := by
  unfold abortTx
  split <;> rfl

@[simp] theorem abortTx_locks (p : PgState) (i : Nat) : (abortTx p i).locks = p.locks := by
  unfold abortTx
  split <;> rfl

theorem abortTx_ne (p : PgState) {i j : Nat} (h : j ≠ i) :
    (abortTx p i).txs j = p.txs j := by
  unfold abortTx
  split
  · exact setTx_ne p _ h
  · rfl

theorem abortTx_self (p : PgState) (i : Nat) :
    (abortTx p i).txs i = (p.txs i).map fun tx => { tx with aborted := true } := by
  unfold abortTx
  split
  · rename_i tx h
    rw [h]
    simp
  · rename_i h
    rw [h]
    rfl

theorem lockable_iff {p : PgState} {i : Nat} {k : LockKey} :
    lockable p i k = true ↔ p.locks k = none ∨ p.locks k = some i := by
  unfold lockable
  cases h : p.locks k with
  | none => simp
  | some j => simp

theorem hasNul_iff {s : String} : hasNul s = true ↔ '\x00' ∈ s.toList := by
  rw [hasNul, List.contains_iff_mem, Trust.utf8_toList, Lib.Utf8.zero_mem_asBytes]

/-! ## The moves -/

/-- Writes a statement outside a transaction commits at once, where it may. -/
inductive Commits (p : PgState) : PgCmd → List Write → Prop where
  | user {id : String} (h : id ∉ p.users) : Commits p (.insertUser id) [.addUser id]
  | device {d : Device} (hu : d.userId ∈ p.users) (hid : p.device d.id = none)
      (hkey : p.deviceByKey d.userId d.pubKey = none) :
      Commits p (.insertDevice d) [.addDevice d]
  | session {s : SessionRow} (hu : s.userId ∈ p.users) (hid : p.session s.id = none) :
      Commits p (.insertSession s) [.addSession s]
  | expire {id : String} {s : SessionRow} (hs : p.session id = some s)
      (hp : s.status = .pending) (hl : p.locks (.session id) = none) :
      Commits p (.expirePending id) [.expireSession id]
  | pushToken {d pf tok : String} :
      Commits p (.upsertPushToken d pf tok) [.putPushToken d pf tok]
  | conn {c d : String} : Commits p (.upsertConn c d) [.putConn c d p.now]

/-- A write a statement holds back in its transaction, with the locks it
takes for it. -/
inductive Stages (p : PgState) (i : Nat) : PgCmd → Write → List LockKey → Prop where
  | revocation {r : Revocation} : Stages p i (.txAddRevocation r) (.addRevocation r) []
  | revoke {id : String} (hl : lockable p i (.device id) = true) :
      Stages p i (.txRevokeDevice id) (.revokeDevice id) [.device id]
  | expirePending {id : String} {s : SessionRow} (hs : p.session id = some s)
      (hp : s.status = .pending) (hl : lockable p i (.session id) = true) :
      Stages p i (.txExpirePending id) (.expireSession id) [.session id]
  | expire {id : String} (hl : lockable p i (.session id) = true) :
      Stages p i (.txExpire id) (.expireSession id) [.session id]
  | join {id : String} {j : Join} {s : SessionRow} (hs : p.session id = some s)
      (hp : s.status = .pending) (hj : s.join = none)
      (hl : lockable p i (.session id) = true)
      (hlr : lockable p i (.joinRequest j.requestId) = true)
      (hr : p.joinRequestTaken j.requestId = false) :
      Stages p i (.txRecordJoin id j) (.recordJoin id j)
        [.session id, .joinRequest j.requestId]
  | grant {g : TrustGrant} : Stages p i (.txAddGrant g) (.addGrant g) []
  | decide {id : String} {st : Status} {granter : String} {sig : Bytes}
      (hl : lockable p i (.session id) = true) :
      Stages p i (.txDecide id st granter sig) (.decideSession id st granter sig)
        [.session id]

/-- Take several locks. -/
def lockAll (p : PgState) (i : Nat) (ks : List LockKey) : PgState :=
  ks.foldl (fun p k => lock p i k) p

/-- What one statement of thread `i` does. -/
inductive Moves (p : PgState) (i : Nat) (c : PgCmd) : PgState → Prop where
  | stay : Moves p i c p
  | commit {ws : List Write} (h : Commits p c ws) : Moves p i c (commitWrites p i ws)
  | open (h : c = .beginTx) : Moves p i c (setTx p i (some {}))
  | stage {tx : Tx} {w : Write} {ks : List LockKey} (htx : p.txs i = some tx)
      (hlive : tx.aborted = false) (h : Stages p i c w ks) :
      Moves p i c (lockAll (stage p i tx w) i ks)
  | lockRow {id : String} {tx : Tx} (hc : c = .txSelectForUpdate id)
      (htx : p.txs i = some tx) (hl : lockable p i (.session id) = true) :
      Moves p i c (lock p i (.session id))
  | abort : Moves p i c (abortTx p i)
  | close : Moves p i c (closeTx p i)
  | commitTx {tx : Tx} (hc : c = .commit) (htx : p.txs i = some tx)
      (hlive : tx.aborted = false) :
      Moves p i c (closeTx (commitWrites p i tx.writes) i)

@[simp] theorem lockAll_toTables (p : PgState) (i : Nat) (ks : List LockKey) :
    (lockAll p i ks).toTables = p.toTables := by
  induction ks generalizing p with
  | nil => rfl
  | cons k ks ih =>
      show (lockAll (lock p i k) i ks).toTables = p.toTables
      rw [ih, lock_toTables]

@[simp] theorem lockAll_wal (p : PgState) (i : Nat) (ks : List LockKey) :
    (lockAll p i ks).wal = p.wal := by
  induction ks generalizing p with
  | nil => rfl
  | cons k ks ih =>
      show (lockAll (lock p i k) i ks).wal = p.wal
      rw [ih, lock_wal]

@[simp] theorem lockAll_txs (p : PgState) (i : Nat) (ks : List LockKey) :
    (lockAll p i ks).txs = p.txs := by
  induction ks generalizing p with
  | nil => rfl
  | cons k ks ih =>
      show (lockAll (lock p i k) i ks).txs = p.txs
      rw [ih, lock_txs]

/-- A lock after several were taken: one of them, or what it was. -/
theorem lockAll_locks (p : PgState) (i : Nat) (ks : List LockKey) (k : LockKey) :
    (lockAll p i ks).locks k = if k ∈ ks then some i else p.locks k := by
  induction ks generalizing p with
  | nil => simp [lockAll]
  | cons k' ks ih =>
      show (lockAll (lock p i k') i ks).locks k = _
      rw [ih]
      by_cases hk : k ∈ ks
      · simp [hk]
      · rw [if_neg hk]
        by_cases hkk : k = k'
        · subst hkk
          simp
        · rw [lock_ne p i hkk]
          simp [hk, hkk]

end Pg

open Pg

namespace PgCmd

variable {i : Nat} {c : PgCmd} {p p' : PgState}

/-- Inside a live transaction the statement runs, otherwise nothing
happens. -/
theorem inTx_cases {α : Type} {k : Tx → Option (PgState × Except PgErr α)}
    {r : Except PgErr α} (h : inTx i p k = some (p', r)) :
    (p' = p ∧ r = .error .other) ∨
      ∃ tx, p.txs i = some tx ∧ tx.aborted = false ∧ k tx = some (p', r) := by
  unfold inTx at h
  cases htx : p.txs i with
  | none =>
      rw [htx] at h
      simp only [Option.some.injEq, Prod.mk.injEq] at h
      exact .inl ⟨h.1.symm, h.2.symm⟩
  | some tx =>
      rw [htx] at h
      cases ha : tx.aborted with
      | true =>
          simp only [ha, if_true, Option.some.injEq, Prod.mk.injEq] at h
          exact .inl ⟨h.1.symm, h.2.symm⟩
      | false =>
          simp only [ha, Bool.false_eq_true, if_false] at h
          exact .inr ⟨tx, rfl, ha, h⟩

/-- A read inside a transaction changes nothing. -/
private theorem inTx_read {α : Type} {a : Except PgErr α} {r : Except PgErr α}
    (h : inTx i p (fun _ => some (p, a)) = some (p', r)) : p' = p := by
  rcases inTx_cases h with ⟨hp, _⟩ | ⟨tx, _, _, hk⟩
  · exact hp
  · simp only [Option.some.injEq, Prod.mk.injEq] at hk
    exact hk.1.symm

/-- What a statement does is one of the moves. -/
theorem step_moves {r : Except PgErr c.Ret} (h : c.step i p = some (p', r)) :
    Moves p i c p' := by
  cases c with
  | insertUser id =>
      simp only [step] at h
      split at h <;> simp only [Option.some.injEq, Prod.mk.injEq] at h <;>
        obtain ⟨rfl, rfl⟩ := h
      · exact .stay
      · rename_i hu
        exact .commit (.user hu)
  | insertDevice d =>
      simp only [step] at h
      split at h
      · simp only [Option.some.injEq, Prod.mk.injEq] at h
        obtain ⟨rfl, rfl⟩ := h
        exact .stay
      · rename_i hu
        split at h <;> simp only [Option.some.injEq, Prod.mk.injEq] at h <;>
          obtain ⟨rfl, rfl⟩ := h
        · exact .stay
        · rename_i hfree
          rw [not_or, Option.not_isSome_iff_eq_none, Option.not_isSome_iff_eq_none]
            at hfree
          exact .commit (.device (Decidable.not_not.mp hu) hfree.1 hfree.2)
  | insertSession s =>
      simp only [step] at h
      split at h
      · simp only [Option.some.injEq, Prod.mk.injEq] at h
        obtain ⟨rfl, rfl⟩ := h
        exact .stay
      · rename_i hu
        split at h <;> simp only [Option.some.injEq, Prod.mk.injEq] at h <;>
          obtain ⟨rfl, rfl⟩ := h
        · exact .stay
        · rename_i hfree
          rw [Option.not_isSome_iff_eq_none] at hfree
          exact .commit (.session (Decidable.not_not.mp hu) hfree)
  | expirePending id =>
      simp only [step] at h
      split at h
      · simp only [Option.some.injEq, Prod.mk.injEq] at h
        obtain ⟨rfl, rfl⟩ := h
        exact .stay
      · rename_i s hs
        split at h
        · rename_i hp
          split at h
          · rename_i hl
            simp only [Option.some.injEq, Prod.mk.injEq] at h
            obtain ⟨rfl, rfl⟩ := h
            exact .commit (.expire hs hp hl)
          · cases h
        · simp only [Option.some.injEq, Prod.mk.injEq] at h
          obtain ⟨rfl, rfl⟩ := h
          exact .stay
  | upsertPushToken d pf tok =>
      simp only [step, Option.some.injEq, Prod.mk.injEq] at h
      obtain ⟨rfl, rfl⟩ := h
      exact .commit .pushToken
  | upsertConn cn d =>
      simp only [step, Option.some.injEq, Prod.mk.injEq] at h
      obtain ⟨rfl, rfl⟩ := h
      exact .commit .conn
  | beginTx =>
      simp only [step, Option.some.injEq, Prod.mk.injEq] at h
      obtain ⟨rfl, rfl⟩ := h
      exact .open rfl
  | txDeviceExists id =>
      simp only [step] at h
      rw [inTx_read h]
      exact .stay
  | txSelectSession id =>
      simp only [step] at h
      rw [inTx_read h]
      exact .stay
  | txDeviceByKey u k =>
      simp only [step] at h
      rw [inTx_read h]
      exact .stay
  | txAddRevocation rv =>
      simp only [step] at h
      rcases inTx_cases h with ⟨rfl, _⟩ | ⟨tx, htx, hlive, hk⟩
      · exact .stay
      · simp only [Option.some.injEq, Prod.mk.injEq] at hk
        obtain ⟨rfl, rfl⟩ := hk
        exact .stage htx hlive .revocation
  | txAddGrant g =>
      simp only [step] at h
      rcases inTx_cases h with ⟨rfl, _⟩ | ⟨tx, htx, hlive, hk⟩
      · exact .stay
      · simp only [Option.some.injEq, Prod.mk.injEq] at hk
        obtain ⟨rfl, rfl⟩ := hk
        exact .stage htx hlive .grant
  | txRevokeDevice id =>
      simp only [step] at h
      rcases inTx_cases h with ⟨rfl, _⟩ | ⟨tx, htx, hlive, hk⟩
      · exact .stay
      · split at hk
        · rename_i hl
          simp only [Option.some.injEq, Prod.mk.injEq] at hk
          obtain ⟨rfl, rfl⟩ := hk
          exact .stage htx hlive (.revoke hl)
        · cases hk
  | txExpire id =>
      simp only [step] at h
      rcases inTx_cases h with ⟨rfl, _⟩ | ⟨tx, htx, hlive, hk⟩
      · exact .stay
      · split at hk
        · rename_i hl
          simp only [Option.some.injEq, Prod.mk.injEq] at hk
          obtain ⟨rfl, rfl⟩ := hk
          exact .stage htx hlive (.expire hl)
        · cases hk
  | txDecide id st granter sig =>
      simp only [step] at h
      rcases inTx_cases h with ⟨rfl, _⟩ | ⟨tx, htx, hlive, hk⟩
      · exact .stay
      · split at hk
        · rename_i hl
          simp only [Option.some.injEq, Prod.mk.injEq] at hk
          obtain ⟨rfl, rfl⟩ := hk
          exact .stage htx hlive (.decide hl)
        · cases hk
  | txSelectForUpdate id =>
      simp only [step] at h
      rcases inTx_cases h with ⟨rfl, _⟩ | ⟨tx, htx, hlive, hk⟩
      · exact .stay
      · split at hk
        · simp only [Option.some.injEq, Prod.mk.injEq] at hk
          obtain ⟨rfl, rfl⟩ := hk
          exact .stay
        · split at hk
          · rename_i hl
            simp only [Option.some.injEq, Prod.mk.injEq] at hk
            obtain ⟨rfl, rfl⟩ := hk
            exact .lockRow rfl htx hl
          · cases hk
  | txExpirePending id =>
      simp only [step] at h
      rcases inTx_cases h with ⟨rfl, _⟩ | ⟨tx, htx, hlive, hk⟩
      · exact .stay
      · split at hk
        · simp only [Option.some.injEq, Prod.mk.injEq] at hk
          obtain ⟨rfl, rfl⟩ := hk
          exact .stay
        · rename_i s hs
          split at hk
          · rename_i hp
            split at hk
            · rename_i hl
              simp only [Option.some.injEq, Prod.mk.injEq] at hk
              obtain ⟨rfl, rfl⟩ := hk
              exact .stage htx hlive (.expirePending hs hp hl)
            · cases hk
          · simp only [Option.some.injEq, Prod.mk.injEq] at hk
            obtain ⟨rfl, rfl⟩ := hk
            exact .stay
  | txRecordJoin id j =>
      simp only [step] at h
      rcases inTx_cases h with ⟨rfl, _⟩ | ⟨tx, htx, hlive, hk⟩
      · exact .stay
      · split at hk
        · simp only [Option.some.injEq, Prod.mk.injEq] at hk
          obtain ⟨rfl, rfl⟩ := hk
          exact .stay
        · rename_i s hs
          split at hk
          · rename_i hp
            split at hk
            · rename_i hl
              split at hk
              · simp only [Option.some.injEq, Prod.mk.injEq] at hk
                obtain ⟨rfl, rfl⟩ := hk
                exact .abort
              · rename_i hr
                simp only [Option.some.injEq, Prod.mk.injEq] at hk
                obtain ⟨rfl, rfl⟩ := hk
                exact .stage htx hlive
                  (.join hs hp.1 hp.2 hl.1 hl.2 (Bool.eq_false_iff.mpr hr))
            · cases hk
          · simp only [Option.some.injEq, Prod.mk.injEq] at hk
            obtain ⟨rfl, rfl⟩ := hk
            exact .stay
  | commit =>
      simp only [step] at h
      split at h
      · simp only [Option.some.injEq, Prod.mk.injEq] at h
        obtain ⟨rfl, rfl⟩ := h
        exact .stay
      · rename_i tx htx
        cases ha : tx.aborted with
        | true =>
            simp only [ha, if_true, Option.some.injEq, Prod.mk.injEq] at h
            obtain ⟨rfl, rfl⟩ := h
            exact .close
        | false =>
            simp only [ha, Bool.false_eq_true, if_false, Option.some.injEq,
              Prod.mk.injEq] at h
            obtain ⟨rfl, rfl⟩ := h
            exact .commitTx rfl htx ha
  | rollback =>
      simp only [step, Option.some.injEq, Prod.mk.injEq] at h
      obtain ⟨rfl, rfl⟩ := h
      exact .close
  | selectDevice id =>
      simp only [step, Option.some.injEq, Prod.mk.injEq] at h
      obtain ⟨rfl, rfl⟩ := h
      exact .stay
  | selectUserDevices u =>
      simp only [step, Option.some.injEq, Prod.mk.injEq] at h
      obtain ⟨rfl, rfl⟩ := h
      exact .stay
  | selectRevoked id =>
      simp only [step, Option.some.injEq, Prod.mk.injEq] at h
      obtain ⟨rfl, rfl⟩ := h
      exact .stay
  | selectSession id =>
      simp only [step, Option.some.injEq, Prod.mk.injEq] at h
      obtain ⟨rfl, rfl⟩ := h
      exact .stay
  | selectConn d =>
      simp only [step, Option.some.injEq, Prod.mk.injEq] at h
      obtain ⟨rfl, rfl⟩ := h
      exact .stay
  | ping =>
      simp only [step, Option.some.injEq, Prod.mk.injEq] at h
      obtain ⟨rfl, rfl⟩ := h
      exact .stay

/-! ## With faults -/

/-- A failed statement aborts or ends the transaction. -/
theorem failed_eq (i : Nat) (c : PgCmd) (p : PgState) :
    c.failed i p = abortTx p i ∨ c.failed i p = closeTx p i := by
  cases c <;> first
    | exact .inl rfl
    | exact .inr rfl

/-- A statement with its fault: it moves, it is lost, or it moves and the
answer is lost. -/
theorem exec_cases {f : Fault} {r : Except PgErr c.Ret}
    (h : c.exec i f p = some (p', r)) :
    c.step i p = some (p', r) ∨
      (∃ e, r = .error e ∧ p' = c.failed i p) ∨
      ∃ q r' e, c.step i p = some (q, r') ∧ r = .error e ∧ p' = c.failed i q := by
  unfold exec at h
  split at h
  · exact .inl h
  · split at h
    · simp only [Option.some.injEq, Prod.mk.injEq] at h
      exact .inr (.inl ⟨_, h.2.symm, h.1.symm⟩)
    · cases f with
      | none => exact .inl h
      | lost =>
          simp only [Option.some.injEq, Prod.mk.injEq] at h
          exact .inr (.inl ⟨_, h.2.symm, h.1.symm⟩)
      | unacked =>
          simp only at h
          cases hs : c.step i p with
          | none => rw [hs] at h; cases h
          | some x =>
              obtain ⟨q, r'⟩ := x
              rw [hs] at h
              simp only [Option.some.injEq, Prod.mk.injEq] at h
              exact .inr (.inr ⟨q, r', _, rfl, h.2.symm, h.1.symm⟩)

/-- A successful answer is the answer of the statement. -/
theorem exec_ok {f : Fault} {a : c.Ret} (h : c.exec i f p = some (p', .ok a)) :
    c.step i p = some (p', .ok a) := by
  rcases exec_cases h with hs | ⟨e, he, _⟩ | ⟨q, r', e, _, he, _⟩
  · exact hs
  · cases he
  · cases he

/-- A statement answers what its step answers, or an error of no class. -/
theorem exec_answer {f : Fault} {r : Except PgErr c.Ret} (h : c.exec i f p = some (p', r)) :
    c.step i p = some (p', r) ∨ r = .error .other := by
  unfold exec at h
  split at h
  · exact .inl h
  · split at h
    · exact .inr (Prod.mk.inj (Option.some.inj h)).2.symm
    · cases f with
      | none => exact .inl h
      | lost => exact .inr (Prod.mk.inj (Option.some.inj h)).2.symm
      | unacked =>
          simp only at h
          split at h
          · cases h
          · exact .inr (Prod.mk.inj (Option.some.inj h)).2.symm

/-- A statement all of whose texts are free of U+0000 is not refused. -/
theorem refused_false (h : ∀ text ∈ c.texts, '\x00' ∉ text.toList) : c.refused = false := by
  unfold refused
  rw [List.any_eq_false]
  exact fun text ht hnul => h text ht (hasNul_iff.mp hnul)

/-- A statement that is not refused and does not fail takes its step. -/
theorem exec_none (h : c.refused = false) : c.exec i .none p = c.step i p := by
  unfold exec
  rw [h]
  split <;> rfl

/-- A refused statement fails and does nothing. -/
theorem exec_refused {f : Fault} {r : Except PgErr c.Ret} (hc : c.refused = true)
    (h : c.exec i f p = some (p', r)) : p' = c.failed i p := by
  have hback : c ≠ .rollback := by
    rintro rfl
    cases hc
  unfold exec at h
  rw [if_neg hback, if_pos hc] at h
  exact (Prod.mk.inj (Option.some.inj h)).1.symm

/-- What every move keeps, and aborting and closing keep, a statement keeps
whatever happens to it. -/
theorem exec_preserves {I : PgState → Prop} {f : Fault} {r : Except PgErr c.Ret}
    (h : c.exec i f p = some (p', r)) (hp : I p)
    (hmove : ∀ q, Moves p i c q → I q)
    (habort : ∀ q, I q → I (abortTx q i)) (hclose : ∀ q, I q → I (closeTx q i)) :
    I p' := by
  have hfailed : ∀ q, I q → I (c.failed i q) := by
    intro q hq
    rcases failed_eq i c q with he | he
    · rw [he]
      exact habort q hq
    · rw [he]
      exact hclose q hq
  rcases exec_cases h with hs | ⟨_, _, rfl⟩ | ⟨q, _, _, hs, _, rfl⟩
  · exact hmove _ (step_moves hs)
  · exact hfailed p hp
  · exact hfailed q (hmove q (step_moves hs))

/-- The writes a statement commits in this state: its own, or those of the
transaction it ends. -/
inductive Lands (p : PgState) (i : Nat) (c : PgCmd) (ws : List Write) : Prop where
  | now (h : Commits p c ws)
  | tx {tx : Tx} (hc : c = .commit) (htx : p.txs i = some tx)
      (hlive : tx.aborted = false) (hws : ws = tx.writes)

/-- The committed tables and the log change together, by what lands. -/
theorem exec_tables {f : Fault} {r : Except PgErr c.Ret}
    (h : c.exec i f p = some (p', r)) :
    (p'.toTables = p.toTables ∧ p'.wal = p.wal) ∨
      ∃ ws, Lands p i c ws ∧ p'.toTables = ws.foldl Tables.apply p.toTables ∧
        p'.wal = p.wal ++ [⟨i, ws⟩] := by
  apply exec_preserves (I := fun q => (q.toTables = p.toTables ∧ q.wal = p.wal) ∨
      ∃ ws, Lands p i c ws ∧ q.toTables = ws.foldl Tables.apply p.toTables ∧
        q.wal = p.wal ++ [(⟨i, ws⟩ : Commit)]) h
  · exact .inl ⟨rfl, rfl⟩
  · intro q hq
    cases hq with
    | stay => exact .inl ⟨rfl, rfl⟩
    | commit hw => exact .inr ⟨_, .now hw, rfl, rfl⟩
    | «open» => exact .inl ⟨rfl, rfl⟩
    | stage htx hlive hst =>
        refine .inl ⟨?_, ?_⟩
        · rw [lockAll_toTables]
          rfl
        · rw [lockAll_wal]
          rfl
    | lockRow => exact .inl ⟨rfl, rfl⟩
    | abort => exact .inl ⟨abortTx_toTables p i, abortTx_wal p i⟩
    | close => exact .inl ⟨rfl, rfl⟩
    | commitTx hc htx hlive => exact .inr ⟨_, .tx hc htx hlive rfl, rfl, rfl⟩
  · intro q hq
    simpa using hq
  · intro q hq
    simpa using hq

/-- Another thread's transaction is not touched. -/
theorem exec_tx_ne {f : Fault} {r : Except PgErr c.Ret} {j : Nat} (hj : j ≠ i)
    (h : c.exec i f p = some (p', r)) : p'.txs j = p.txs j := by
  apply exec_preserves (I := fun q => q.txs j = p.txs j) h rfl
  · intro q hq
    cases hq with
    | stay => rfl
    | commit => rfl
    | «open» => exact setTx_ne p _ hj
    | stage =>
        rw [lockAll_txs]
        exact setTx_ne p _ hj
    | lockRow => rfl
    | abort => exact abortTx_ne p hj
    | close => exact closeTx_ne p hj
    | commitTx => exact closeTx_ne _ hj
  · intro q hq
    rw [abortTx_ne q hj, hq]
  · intro q hq
    rw [closeTx_ne q hj, hq]

/-- Another thread's locks stay with it. -/
theorem exec_lock_ne {f : Fault} {r : Except PgErr c.Ret} {j : Nat} (hj : j ≠ i)
    {k : LockKey} (hk : p.locks k = some j) (h : c.exec i f p = some (p', r)) :
    p'.locks k = some j := by
  have hfree : ∀ k', lockable p i k' = true → k ≠ k' := by
    intro k' hl he
    subst he
    rcases lockable_iff.mp hl with h' | h' <;> rw [hk] at h'
    · cases h'
    · exact hj (Option.some.inj h')
  apply exec_preserves (I := fun q => q.locks k = some j) h hk
  · intro q hq
    cases hq with
    | stay => exact hk
    | commit => exact hk
    | «open» => exact hk
    | @stage tx w ks htx hlive hst =>
        have hnot : k ∉ ks := by
          cases hst with
          | revocation => simp
          | revoke hl => simp [hfree _ hl]
          | expirePending _ _ hl => simp [hfree _ hl]
          | expire hl => simp [hfree _ hl]
          | join _ _ _ hl hlr _ => simp [hfree _ hl, hfree _ hlr]
          | grant => simp
          | decide hl => simp [hfree _ hl]
        rw [lockAll_locks, if_neg hnot]
        exact hk
    | lockRow hc htx hl =>
        rw [lock_ne p i (hfree _ hl)]
        exact hk
    | abort => rw [abortTx_locks]; exact hk
    | close => exact (closeTx_lock p hj k).mpr hk
    | commitTx => exact (closeTx_lock _ hj k).mpr hk
  · intro q hq
    rw [abortTx_locks]
    exact hq
  · intro q hq
    exact (closeTx_lock q hj k).mpr hq

end PgCmd

end Calcar
