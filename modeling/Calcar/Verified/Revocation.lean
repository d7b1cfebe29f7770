import Calcar.Store.Rows
import Calcar.Verified.Requests

/-!
# Revocation on HTTP and on new sockets

Once `RevokeDevice` has committed, the flag on the device's row stays set:
rows are never removed, and the only write that touches the flag sets it.
Every entry of the backend reads the row before it lets anything happen, and
a row that says revoked is refused whatever the second check answers.

## Main results

* `committed_revocation` — a revocation in the log of a reachable state has
  left its device registered and revoked.
* `revoked_device_locked_out` — no goroutine started after the commit enters
  a handler body, has a socket accepted or is given tokens as that device.
-/

namespace Calcar.Api

open Lib Pg

/-! ## What a committed revocation has done -/

/-- The log only revokes registered devices, and so does every open
transaction. -/
structure RevocationInv (p : PgState) : Prop where
  logged : ∀ e ∈ p.wal, ∀ id, .revokeDevice id ∈ e.writes → p.Revoked id
  staged : ∀ j tx id, p.txs j = some tx → .revokeDevice id ∈ tx.writes →
    (p.device id).isSome = true

private theorem commits_no_revoke {p : PgState} {c : PgCmd} {ws : List Write}
    (h : Commits p c ws) (id : String) : .revokeDevice id ∉ ws := by
  cases h <;> simp

/-- A commit of writes that only revoke registered devices keeps the
invariant of the log. -/
private theorem RevocationInv.land {p q : PgState} {i : Nat} {ws : List Write}
    (h : RevocationInv p) (hreg : ∀ id, .revokeDevice id ∈ ws → (p.device id).isSome = true)
    (htab : q.toTables = ws.foldl Tables.apply p.toTables)
    (hwal : q.wal = p.wal ++ [⟨i, ws⟩])
    (htx : ∀ j tx, q.txs j = some tx → p.txs j = some tx) : RevocationInv q := by
  constructor
  · intro e he id hid
    rw [hwal, List.mem_append, List.mem_singleton] at he
    show Tables.Revoked q.toTables id
    rw [htab]
    rcases he with he | rfl
    · exact (h.logged e he id hid).writes ws
    · exact Tables.revoked_of_mem hid (hreg id hid)
  · intro j tx id hj hid
    show (Tables.device q.toTables id).isSome = true
    rw [htab]
    exact Tables.device_isSome_writes ws (h.staged j tx id (htx j tx hj) hid)

/-- Transactions may change as long as what they stage stays registered. -/
private theorem RevocationInv.restage {p q : PgState} (h : RevocationInv p)
    (htab : q.toTables = p.toTables) (hwal : q.wal = p.wal)
    (htx : ∀ j tx id, q.txs j = some tx → .revokeDevice id ∈ tx.writes →
      (p.device id).isSome = true) : RevocationInv q := by
  constructor
  · intro e he id hid
    rw [hwal] at he
    show Tables.Revoked q.toTables id
    rw [htab]
    exact h.logged e he id hid
  · intro j tx id hj hid
    show (Tables.device q.toTables id).isSome = true
    rw [htab]
    exact htx j tx id hj hid

private theorem RevocationInv.abort {p : PgState} (h : RevocationInv p) (i : Nat) :
    RevocationInv (abortTx p i) := by
  apply h.restage (abortTx_toTables p i) (abortTx_wal p i)
  intro j tx id hj hid
  by_cases hji : j = i
  · subst hji
    rw [abortTx_self] at hj
    cases htx : p.txs j with
    | none => rw [htx] at hj; cases hj
    | some tx' =>
        rw [htx] at hj
        obtain rfl := Option.some.inj hj
        exact h.staged j tx' id htx hid
  · rw [abortTx_ne p hji] at hj
    exact h.staged j tx id hj hid

private theorem RevocationInv.close {p : PgState} (h : RevocationInv p) (i : Nat) :
    RevocationInv (closeTx p i) := by
  apply h.restage (closeTx_toTables p i) (closeTx_wal p i)
  intro j tx id hj hid
  by_cases hji : j = i
  · subst hji
    rw [closeTx_self] at hj
    cases hj
  · rw [closeTx_ne p hji] at hj
    exact h.staged j tx id hj hid

/-- A statement keeps the invariant if it only revokes registered devices. -/
theorem RevocationInv.exec {p p' : PgState} {i : Nat} {c : PgCmd} {f : Fault}
    {r : Except PgErr c.Ret} (h : RevocationInv p)
    (hreg : ∀ id, c = .txRevokeDevice id → (p.device id).isSome = true)
    (hx : c.exec i f p = some (p', r)) : RevocationInv p' := by
  apply PgCmd.exec_preserves (I := RevocationInv) hx h
  · intro q hq
    cases hq with
    | stay => exact h
    | commit hw =>
        exact h.land (fun id hid => absurd hid (commits_no_revoke hw id)) rfl rfl
          fun _ _ hj => hj
    | «open» =>
        refine h.restage (q := setTx p i (some {})) rfl rfl ?_
        intro j tx id hj hid
        by_cases hji : j = i
        · subst hji
          rw [setTx_self] at hj
          obtain rfl := Option.some.inj hj
          cases hid
        · rw [setTx_ne p _ hji] at hj
          exact h.staged j tx id hj hid
    | @stage tx₀ w ks htx hlive hst =>
        refine h.restage (q := lockAll (stage p i tx₀ w) i ks)
          (lockAll_toTables _ i ks) (lockAll_wal _ i ks) ?_
        intro j tx id hj hid
        rw [lockAll_txs] at hj
        by_cases hji : j = i
        · subst hji
          unfold stage at hj
          rw [setTx_self] at hj
          obtain rfl := Option.some.inj hj
          simp only [List.mem_append, List.mem_singleton] at hid
          rcases hid with hid | hid
          · exact h.staged j tx₀ id htx hid
          · cases hst with
            | revoke =>
                obtain rfl : id = _ := by simpa using hid
                exact hreg _ rfl
            | revocation => cases hid
            | expirePending => cases hid
            | expire => cases hid
            | join => cases hid
            | grant => cases hid
            | decide => cases hid
        · unfold stage at hj
          rw [setTx_ne p _ hji] at hj
          exact h.staged j tx id hj hid
    | lockRow => exact h.restage rfl rfl h.staged
    | abort => exact h.abort i
    | close => exact h.close i
    | commitTx hc htx hlive =>
        have hland : RevocationInv (commitWrites p i _) :=
          h.land (fun id hid => h.staged i _ id htx hid) rfl rfl fun _ _ hj => hj
        exact hland.close i
  · exact fun q hq => hq.abort i
  · exact fun q hq => hq.close i

variable (S : Server)

/-- Revocations are staged for registered devices only. -/
def revocationDiscipline : Discipline (backend S) where
  inv w := RevocationInv w.pg
  allowed _ _ cmd w :=
    ∀ id, cmd = .core (.pg (.txRevokeDevice id)) → (w.pg.device id).isSome = true

variable {S}

/-- Registration is not undone by anything. -/
private theorem registered_stays {w w' : World} {id : String}
    (htab : w'.pg.toTables = w.pg.toTables ∨
      ∃ ws, w'.pg.toTables = List.foldl Tables.apply w.pg.toTables ws)
    (h : (w.pg.device id).isSome = true) : (w'.pg.device id).isSome = true := by
  show (Tables.device w'.pg.toTables id).isSome = true
  rcases htab with ht | ⟨ws, ht⟩
  · rw [ht]
    exact h
  · rw [ht]
    exact Tables.device_isSome_writes ws h

/-- Commands write to the tables or leave them alone. -/
theorem tables_after {i : Nat} (cmd : Srv) {o : Oracle} {w w' : World} {r : cmd.Ans}
    (hx : cmd.exec i o w = some (w', r)) :
    w'.pg.toTables = w.pg.toTables ∨
      ∃ ws, w'.pg.toTables = List.foldl Tables.apply w.pg.toTables ws := by
  rcases Srv.exec_pg cmd hx with hp | ⟨c, r', _, hc⟩
  · rw [hp]
    exact .inl rfl
  · rcases PgCmd.exec_tables hc with ⟨ht, _⟩ | ⟨ws, _, ht, _⟩
    · exact .inl ht
    · exact .inr ⟨ws, ht⟩

/-- The environment leaves the tables alone. -/
theorem tables_env {e : Env} {w w' : World} (h : e.step w = some w') :
    w'.pg.toTables = w.pg.toTables := by
  obtain ⟨tm, hp⟩ := Env.step_pg h
  rw [hp]

private theorem registered_stable {D : Discipline (backend S)} {i : Nat} {id : String} :
    D.Stable i fun w => (w.pg.device id).isSome = true := by
  rintro w w' (⟨_, _, _, _, hx⟩ | ⟨_, _, hx⟩) h
  · exact registered_stays (tables_after _ hx) h
  · exact registered_stays (.inl (tables_env hx)) h

/-- Every method but `RevokeDevice` stages no revocation. -/
private theorem method_safe {t : Task} {i : Nat} (c : Seam)
    (hc : ∀ id by' why, c ≠ .revokeDevice id by' why) :
    (revocationDiscipline S).Triple t i (fun _ => True)
      (Core.toSrv (combined S.crypto c)) fun _ _ => True := by
  apply Discipline.Triple.only (only_toSrv (combined_issues S.crypto c))
    (Discipline.stable_const True)
  rintro _ o w ⟨cmd, rfl, hissue⟩ _ _ _
  refine ⟨?_, fun _ _ _ => trivial⟩
  intro id hcmd
  obtain rfl : cmd = .pg (.txRevokeDevice id) := by simpa using hcmd
  rcases hissue with hr | hw
  · exact hr.elim
  · cases c with
    | revokeDevice id' by' why => exact absurd rfl (hc id' by' why)
    | _ => exact hw.elim

/-- `RevokeDevice` looks the device up first. -/
private theorem revokeDevice_safe {t : Task} {i : Nat} (id by' why : String) :
    (revocationDiscipline S).Triple t i (fun _ => True)
      (Core.toSrv (Postgres.revokeDevice id by' why)) fun _ _ => True := by
  have hfree : ∀ {β : Type} {A : World → Prop} (p : Core.M β)
      (_ : (revocationDiscipline S).Stable i A)
      (_ : p.Only fun c => ∀ x, c = .pg (.txRevokeDevice x) → x = id)
      (_ : ∀ w, A w → (w.pg.device id).isSome = true),
      (revocationDiscipline S).Triple t i A (Core.toSrv p) fun _ _ => True := by
    intro β A p hs hp hA
    refine ((Discipline.Triple.only (only_toSrv hp) registered_stable ?_).pre
      fun w _ h => hA w h).post fun _ _ _ => trivial
    rintro _ o w ⟨cmd, rfl, hissue⟩ _ _ hreg
    refine ⟨?_, fun _ _ hx => registered_stays (tables_after (.core cmd) hx) hreg⟩
    intro x hcmd
    obtain rfl : x = id := hissue x (by simpa using hcmd)
    exact hreg
  have htrue : (revocationDiscipline S).Stable i fun _ => True :=
    Discipline.stable_const True
  have hone : ∀ c, (∀ x, c ≠ .txRevokeDevice x) →
      (revocationDiscipline S).Triple t i (fun _ => True)
        (Core.toSrv (Postgres.pg c)) fun _ _ => True := by
    intro c hc
    apply Triple.pg_alone htrue fun _ => htrue
    intro w o _ _ _
    refine ⟨?_, fun _ _ _ _ => trivial⟩
    intro x hcmd
    exact absurd (by simpa using hcmd) (hc x)
  apply Triple.withTx (B := fun _ => True) (M := fun _ _ => True)
  · refine (hone .beginTx (by simp)).post ?_
    rintro (e | a) _ _ <;> trivial
  · rw [Core.toSrv_bind]
    -- the lookup answers `true` only for a registered device
    apply Discipline.Triple.bind
      (B := fun r w => r = .ok true → (w.pg.device id).isSome = true)
    · apply Triple.pg_alone htrue fun r => Discipline.Stable.imp fun _ => registered_stable
      intro w o _ _ _
      refine ⟨fun x hcmd => by simp at hcmd, ?_⟩
      rintro p' r hx _ rfl
      have hstep := PgCmd.exec_ok hx
      simp only [PgCmd.step] at hstep
      rcases PgCmd.inTx_cases hstep with ⟨_, he⟩ | ⟨tx, _, _, hk⟩
      · cases he
      · simp only [Option.some.injEq, Prod.mk.injEq, Except.ok.injEq] at hk
        obtain ⟨rfl, hreg⟩ := hk
        exact hreg
    · have hret : ∀ (A : World → Prop) (r : Except Err Unit),
          (revocationDiscipline S).Triple t i A (.ret r) fun _ _ => True :=
        fun A r => Discipline.Triple.ret htrue fun _ _ _ => trivial
      rintro (e | _ | _)
      · exact hret _ _
      · exact hret _ _
      · apply (hfree _ (Discipline.Stable.imp fun _ => registered_stable) ?_
          fun w h => h rfl)
        apply Prog.Only.bind (Postgres.only_query (by simp))
        rintro (e | a)
        · trivial
        · apply Prog.Only.bind (Postgres.only_query (by simp))
          rintro (e | a)
          · trivial
          · apply Prog.Only.bind (Postgres.only_pg (by simp))
            rintro (e | a) <;> trivial
  · exact fun r => hone .rollback (by simp)
  · exact fun _ => htrue

/-- Every task keeps to the discipline. -/
private theorem task_safe (t : Task) (i : Nat) :
    (revocationDiscipline S).Triple t i (fun _ => True) (t.code S) fun _ _ => True := by
  apply Triple.task (Discipline.stable_const True)
  · intro c
    by_cases hc : ∃ id by' why, c = .revokeDevice id by' why
    · obtain ⟨id, by', why, rfl⟩ := hc
      exact revokeDevice_safe id by' why
    · exact method_safe c fun id by' why he => hc ⟨id, by', why, he⟩
  · intro cmd o w hpg _ _ _ _
    exact ⟨fun id he => absurd he (hpg _), fun _ _ _ => trivial⟩

/-- **A revocation in the log has happened.**  In every state the backend
reaches, the device of a committed revocation is registered and revoked. -/
theorem committed_revocation {c : Config Task World Srv Srv.Ans Outcome}
    (h : (backend S).Reach (fun _ _ => True) boot c) {e : Commit} (he : e ∈ c.world.pg.wal)
    {id : String} (hid : .revokeDevice id ∈ e.writes) : c.world.pg.Revoked id := by
  have hreach := (revocationDiscipline S).presumes_any trivial trivial h
  have hinv : RevocationInv c.world.pg := by
    refine (Discipline.sound (D := revocationDiscipline S) (Q := fun _ _ _ _ => True)
      ?_ ?_ ?_ ?_ ?_ ?_ ?_ hreach).2.1
    · intro t j cmd o w w' r hi _ hall hx
      rcases Srv.exec_pg cmd hx with hp | ⟨pc, r', rfl, hc⟩
      · show RevocationInv w'.pg
        rw [hp]
        exact hi
      · exact hi.exec (fun id hc' => hall id (by rw [hc'])) hc
    · intro e w w' hi _ hx
      obtain ⟨tm, hp⟩ := Env.step_pg hx
      show RevocationInv w'.pg
      rw [hp]
      exact ⟨hi.logged, hi.staged⟩
    · exact fun _ _ => Discipline.stable_const True
    · exact fun t i w _ hi _ => (task_safe t i).safe hi trivial
    · exact ⟨fun e he => absurd he List.not_mem_nil, fun j tx id hj => absurd hj (by simp [boot])⟩
    · exact fun _ _ => trivial
    · intro i t p hi
      simp [boot] at hi
  exact hinv.logged e he id hid

/-! ## Nobody gets in as a revoked device -/

/-- The reply hands out tokens. -/
def Reply.issuesTokens (r : Reply) : Bool :=
  match r.body with
  | .tokens _ _ _ _ => true
  | _ => false

/-- The task is a login or a token refresh for this device. -/
def Task.isLoginFor (id : String) : Task → Prop
  | .request r =>
      match r.route with
      | .verify (.ok req) => req.deviceId = id
      | .refresh (.ok req) => Text.trimSpace req.deviceId = id
      | _ => False
  | _ => False

/-- The command lets somebody in as this device: into the body of an
authenticated handler, or onto a socket. -/
def LetsIn (id : String) : Srv → Prop
  | .enter dev _ => dev.id = id
  | .accept device => device = id
  | .register device _ _ => device = id
  | _ => False

variable (S) in
/-- The device is revoked, and goroutines from the `n`th on let nobody in as
it. -/
def lockoutDiscipline (n : Nat) (id : String) : Discipline (backend S) where
  inv w := w.pg.Revoked id
  allowed _ i cmd _ := n ≤ i → ¬LetsIn id cmd

/-- A handler part ends with a value that satisfies `P` or with a reply that
has no tokens in it. -/
def Screened {β : Type} (P : β → Prop) : Except Reply β → Prop
  | .ok a => P a
  | .error e => e.issuesTokens = false

section Lockout

variable {n : Nat} {id : String} {t : Task} {i : Nat}

private theorem pure_stable {D : Discipline (backend S)} (P : Prop) :
    D.Stable i fun _ => P := Discipline.stable_const P

/-- The methods of the store let nobody in. -/
private theorem core_safe {β : Type} (p : Core.M β) :
    (lockoutDiscipline S n id).Triple t i (fun _ => True) (Core.toSrv p)
      fun _ _ => True := by
  apply Discipline.Triple.only (only_toSrv (Prog.only_of_all (P := fun _ => True)
    (fun _ => trivial) _)) (pure_stable True)
  rintro _ o w ⟨cmd, rfl, _⟩ _ _ _
  exact ⟨fun _ h => h, fun _ _ _ => trivial⟩

/-- Handler bodies let nobody in. -/
private theorem body_safe {β : Type} (p : M β) :
    (lockoutDiscipline S n id).Triple t i (fun _ => True) (toSrv S p) fun _ _ => True :=
  core_safe (onCore S p)

private theorem screened_bind {β γ : Type} {x : H β} {f : β → H γ} {P : β → Prop}
    {Q : γ → Prop}
    (hx : (lockoutDiscipline S n id).Triple t i (fun _ => True) (toSrv S x.run)
      fun r _ => Screened P r)
    (hf : ∀ a, P a → (lockoutDiscipline S n id).Triple t i (fun _ => True)
      (toSrv S (f a).run) fun r _ => Screened Q r) :
    (lockoutDiscipline S n id).Triple t i (fun _ => True) (toSrv S (x >>= f).run)
      fun r _ => Screened Q r := by
  apply Triple.hbind (B := fun a _ => P a) fun e => pure_stable _
  · refine hx.post ?_
    rintro (e | a) _ h
    · exact h
    · exact h
  · intro a
    exact Discipline.Triple.assume (fun _ _ ha => ha) fun ha =>
      (hf a ha).pre fun _ _ _ => trivial

private theorem screened_replyIf {c : Prop} [Decidable c] {r : Reply}
    (hr : r.issuesTokens = false) :
    (lockoutDiscipline S n id).Triple t i (fun _ => True)
      (toSrv S (replyIf c r).run) fun r _ => Screened (fun _ => ¬c) r :=
  Triple.replyIf (fun _ => pure_stable _) (fun hc _ _ _ => hc) fun _ _ _ _ => hr

private theorem screened_store {c : Seam} {bad : Err → Reply} {P : c.Ret → Prop}
    (hbad : ∀ e, (bad e).issuesTokens = false)
    (h : (lockoutDiscipline S n id).Triple t i (fun _ => True)
      (Core.toSrv (combined S.crypto c)) fun r _ => ∀ a, r = .ok a → P a) :
    (lockoutDiscipline S n id).Triple t i (fun _ => True) (toSrv S (store c bad).run)
      fun r _ => Screened P r := by
  apply Triple.store fun r => pure_stable _
  refine h.post ?_
  rintro (e | a) _ ha
  · exact hbad e
  · exact ha a rfl

private theorem screened_any {c : Seam} {bad : Err → Reply}
    (hbad : ∀ e, (bad e).issuesTokens = false) :
    (lockoutDiscipline S n id).Triple t i (fun _ => True) (toSrv S (store c bad).run)
      fun r _ => Screened (fun _ => True) r :=
  screened_store hbad ((core_safe _).post fun _ _ _ _ _ => trivial)

private theorem screened_ret {β : Type} {P : β → Prop} {a : β} (h : P a) :
    (lockoutDiscipline S n id).Triple t i (fun _ => True)
      (toSrv S (pure a : H β).run) fun r _ => Screened P r :=
  Discipline.Triple.ret (pure_stable _) fun _ _ _ => h

private theorem screened_throw {β : Type} {P : β → Prop} {e : Reply}
    (h : e.issuesTokens = false) :
    (lockoutDiscipline S n id).Triple t i (fun _ => True)
      (toSrv S (throw e : H β).run) fun r _ => Screened P r :=
  Discipline.Triple.ret (pure_stable _) fun _ _ _ => h

/-- A row read under the id of the revoked device says revoked. -/
private theorem getDevice_tells (x : String) :
    (lockoutDiscipline S n id).Triple t i (fun _ => True)
      (Core.toSrv (Postgres.getDevice x)) fun r _ =>
        ∀ dev, r = .ok dev → dev.id = x ∧ (x = id → dev.revoked = true) := by
  unfold Postgres.getDevice
  rw [Core.toSrv_bind]
  apply Discipline.Triple.bind (B := fun r _ =>
    ∀ dev, r = .ok (some dev) → dev.id = x ∧ (x = id → dev.revoked = true))
  · apply Triple.query (pure_stable _) fun _ => pure_stable _
    intro w o hinv _ _
    refine ⟨fun _ h => h, ?_⟩
    rintro p' (e | found) hx _ dev hdev
    · cases hdev
    · have hstep := PgCmd.exec_ok hx
      simp only [PgCmd.step, Option.some.injEq, Prod.mk.injEq, Except.ok.injEq] at hstep
      obtain ⟨_, hfound⟩ := hstep
      obtain rfl : found = some dev := by simpa [Postgres.reported] using hdev
      refine ⟨Tables.device_id hfound, ?_⟩
      rintro rfl
      obtain ⟨d, hd, hr⟩ := hinv
      have hsame : d = dev := Option.some.inj (hd.symm.trans hfound)
      rw [← hsame]
      exact hr
  · rintro (e | _ | dev)
    · exact Discipline.Triple.ret (pure_stable _) fun _ _ _ _ h => by cases h
    · exact Discipline.Triple.ret (pure_stable _) fun _ _ _ _ h => by cases h
    · refine Discipline.Triple.ret (pure_stable _) fun _ _ hb dev' h => ?_
      obtain rfl : dev = dev' := by simpa using h
      exact hb dev rfl

/-- The durable check adds refusals only. -/
private theorem refuseRevoked_screened (x : String) {bad : Reply}
    (hbad : bad.issuesTokens = false) :
    (lockoutDiscipline S n id).Triple t i (fun _ => True)
      (toSrv S (refuseRevoked x bad).run) fun r _ => Screened (fun _ => True) r := by
  apply screened_bind (P := fun _ => True)
  · exact Triple.attempt (fun _ => pure_stable _) ((core_safe _).post fun _ _ h => h)
  · rintro (e | _ | _) _
    · exact screened_ret trivial
    · exact screened_ret trivial
    · exact screened_throw hbad

/-- A login or refresh does not get past the device check as the revoked
device. -/
private theorem activeDevice_screened (x : String) :
    (lockoutDiscipline S n id).Triple t i (fun _ => True)
      (toSrv S (activeDevice x).run) fun r _ => Screened (fun _ => x ≠ id) r := by
  apply screened_bind (screened_store (fun _ => rfl) (getDevice_tells x))
  rintro dev ⟨_, hrev⟩
  apply screened_bind (screened_replyIf rfl)
  intro _ hact
  apply screened_bind (refuseRevoked_screened x rfl)
  intro _ _
  exact screened_ret fun hx => hact (hrev hx)

/-- `authed` does not let the revoked device through. -/
private theorem authenticate_screened (hdr : String) :
    (lockoutDiscipline S n id).Triple t i (fun _ => True)
      (toSrv S (authenticate hdr).run) fun r _ => Screened (fun a => a.1.id ≠ id) r := by
  apply screened_bind (screened_replyIf rfl)
  intro _ _
  apply screened_bind (screened_any fun _ => rfl)
  rintro ⟨deviceId, userId⟩ _
  apply screened_bind (screened_store (fun _ => rfl) (getDevice_tells deviceId))
  rintro dev ⟨hid, hrev⟩
  apply screened_bind (screened_replyIf rfl)
  intro _ hact
  apply screened_bind (refuseRevoked_screened deviceId rfl)
  intro _ _
  refine screened_ret fun hx => hact (hrev ?_)
  rw [← hid]
  exact hx

/-- Nor does the check before a socket upgrade. -/
private theorem checkUpgrade_screened (u : Upgrade) :
    (lockoutDiscipline S n id).Triple t i (fun _ => True)
      (toSrv S (checkUpgrade u).run) fun r _ => Screened (fun a => a.1 ≠ id) r := by
  apply screened_bind (screened_replyIf rfl)
  intro _ _
  apply screened_bind (screened_replyIf rfl)
  intro _ _
  apply screened_bind (screened_any fun _ => rfl)
  rintro ⟨deviceId, userId⟩ _
  apply screened_bind (screened_store (fun _ => rfl) (getDevice_tells deviceId))
  rintro dev ⟨_, hrev⟩
  apply screened_bind (screened_replyIf rfl)
  intro _ hact
  apply screened_bind (refuseRevoked_screened deviceId rfl)
  intro _ _
  exact screened_ret fun hx => hact (hrev hx)

private theorem decode_screened {β : Type} (body : Json β) :
    (lockoutDiscipline S n id).Triple t i (fun _ => True) (toSrv S (decode body).run)
      fun r _ => Screened (fun req => body = .ok req) r := by
  cases body with
  | ok req => exact screened_ret rfl
  | error detail => exact screened_throw rfl

private theorem idempotent_screened (hdr : String) :
    (lockoutDiscipline S n id).Triple t i (fun _ => True)
      (toSrv S (idempotent hdr).run) fun r _ => Screened (fun _ => True) r := by
  apply screened_bind (screened_replyIf rfl)
  intro _ _
  apply screened_any
  intro e
  split <;> rfl

/-- A login as the revoked device is not given tokens. -/
private theorem verify_screened (req : VerifyReq) (hid : req.deviceId = id) :
    (lockoutDiscipline S n id).Triple t i (fun _ => True)
      (toSrv S (handleVerify S (.ok req)).run)
      fun r _ => Screened (fun rep => rep.issuesTokens = false) r := by
  unfold handleVerify
  apply screened_bind (decode_screened _)
  rintro req' ⟨⟩
  apply screened_bind (activeDevice_screened req.deviceId)
  intro dev hne
  exact absurd hid hne

/-- A refresh as the revoked device is not given tokens. -/
private theorem refresh_screened (hdr : String) (req : RefreshReq)
    (hid : Text.trimSpace req.deviceId = id) :
    (lockoutDiscipline S n id).Triple t i (fun _ => True)
      (toSrv S (handleRefresh S hdr (.ok req)).run)
      fun r _ => Screened (fun rep => rep.issuesTokens = false) r := by
  unfold handleRefresh
  apply screened_bind (idempotent_screened hdr)
  intro _ _
  apply screened_bind (decode_screened _)
  rintro req' ⟨⟩
  apply screened_bind (screened_replyIf rfl)
  intro _ _
  apply screened_bind (activeDevice_screened (Text.trimSpace req.deviceId))
  intro dev hne
  exact absurd hid hne

/-- A command of the server that does not let the device in. -/
private theorem gate_safe (cmd : Srv) (h : ¬LetsIn id cmd) :
    (lockoutDiscipline S n id).Triple t i (fun _ => True) (Srv.perform cmd)
      fun _ _ => True := by
  apply Discipline.Triple.only (P := fun c => c = cmd) (Prog.only_perform rfl)
    (pure_stable True)
  rintro _ o w rfl _ _ _
  exact ⟨fun _ => h, fun _ _ _ => trivial⟩

private theorem done_safe {β : Type} (b : β) :
    (lockoutDiscipline S n id).Triple t i (fun _ => True) (.ret b : Srv.M β)
      fun _ _ => True :=
  Discipline.Triple.ret (pure_stable True) fun _ _ _ => trivial

private theorem authed_safe (hdr : String) (next : Device → String → H Reply) :
    (lockoutDiscipline S n id).Triple t i (fun _ => True) (authed S hdr next)
      fun _ _ => True := by
  apply (authenticate_screened hdr).bind
  rintro (r | ⟨dev, user⟩)
  · exact (done_safe r).pre fun _ _ _ => trivial
  · apply Discipline.Triple.assume (fun _ _ hne => hne)
    intro hne
    refine Discipline.Triple.pre (A := fun _ => True) ?_ fun _ _ _ => trivial
    exact (gate_safe (.enter dev user) hne).bind fun _ => body_safe _

private theorem connection_safe (device user : String) (hne : device ≠ id) :
    (lockoutDiscipline S n id).Triple t i (fun _ => True) (connection S device user)
      fun _ _ => True := by
  have hgate : ∀ cmd, ¬LetsIn id cmd → (lockoutDiscipline S n id).Triple t i
      (fun _ => True) (Srv.perform cmd) fun _ _ => True := fun _ h => gate_safe _ h
  apply (hgate (.core .now) (by simp [LetsIn])).bind
  intro tm
  apply (hgate (.register device user _) hne).bind
  intro k
  apply (hgate (.core (.rand 16)) (by simp [LetsIn])).bind
  intro b
  apply (hgate (.core .now) (by simp [LetsIn])).bind
  intro seen
  apply (body_safe _).bind
  intro _
  apply (hgate (.start k) (by simp [LetsIn])).bind
  intro _
  apply (hgate (.done k) (by simp [LetsIn])).bind
  intro _
  apply (hgate (.unregister device k) (by simp [LetsIn])).bind
  intro _
  apply (hgate (.core .now) (by simp [LetsIn])).bind
  intro left
  apply (body_safe _).bind
  intro _
  exact done_safe _

private theorem upgrade_safe (u : Upgrade) :
    (lockoutDiscipline S n id).Triple t i (fun _ => True) (upgrade S u)
      fun _ _ => True := by
  apply (checkUpgrade_screened u).bind
  rintro (r | ⟨device, user⟩)
  · exact (done_safe _).pre fun _ _ _ => trivial
  · apply Discipline.Triple.assume (fun _ _ hne => hne)
    intro hne
    refine Discipline.Triple.pre (A := fun _ => True) ?_ fun _ _ _ => trivial
    apply (gate_safe (.accept device) hne).bind
    intro ok
    show (lockoutDiscipline S n id).Triple t i _ (ite _ _ _ : Srv.M Outcome) _
    split
    · exact connection_safe device user hne
    · exact done_safe _

/-- The reply of a screened handler has no tokens in it. -/
private theorem reply_screened {h : H Reply}
    (hh : (lockoutDiscipline S n id).Triple t i (fun _ => True) (toSrv S h.run)
      fun r _ => Screened (fun rep => rep.issuesTokens = false) r) :
    (lockoutDiscipline S n id).Triple t i (fun _ => True) (toSrv S h.reply)
      fun rep _ => rep.issuesTokens = false := by
  unfold H.reply
  rw [toSrv_bind]
  apply hh.bind
  rintro (e | rep)
  · exact Discipline.Triple.ret (pure_stable _) fun _ _ h => h
  · exact Discipline.Triple.ret (pure_stable _) fun _ _ h => h

/-- A login for the revoked device is answered without tokens. -/
private theorem login_safe (r : Request) (hlogin : (Task.request r).isLoginFor id) :
    (lockoutDiscipline S n id).Triple t i (fun _ => True) (serve S r)
      fun rep _ => rep.issuesTokens = false := by
  obtain ⟨hdr, rid, route⟩ := r
  cases route with
  | verify body =>
      cases body with
      | error detail => exact hlogin.elim
      | ok req => exact reply_screened (verify_screened req hlogin)
  | refresh body =>
      cases body with
      | error detail => exact hlogin.elim
      | ok req => exact reply_screened (refresh_screened rid req hlogin)
  | _ => exact hlogin.elim

private theorem serve_safe (r : Request) :
    (lockoutDiscipline S n id).Triple t i (fun _ => True) (serve S r) fun _ _ => True := by
  unfold serve
  split
  · exact body_safe _
  · exact authed_safe _ _

/-- Every task lets nobody in as the revoked device, and its logins come
back empty-handed. -/
private theorem task_locked (t : Task) (i : Nat) :
    (lockoutDiscipline S n id).Triple t i (fun _ => True) (t.code S) fun out _ =>
      t.isLoginFor id → ∀ rep, out = .reply rep → rep.issuesTokens = false := by
  cases t with
  | request r =>
      by_cases hlogin : (Task.request r).isLoginFor id
      · apply (login_safe r hlogin).bind
        intro rep
        apply Discipline.Triple.ret (pure_stable _)
        rintro _ _ hrep _ _ ⟨⟩
        exact hrep
      · apply (serve_safe r).bind
        intro rep
        exact Discipline.Triple.ret (pure_stable _) fun _ _ _ h => absurd h hlogin
  | upgrade u => exact (upgrade_safe u).post fun _ _ _ h => h.elim
  | catchup =>
      refine Discipline.Triple.post (Q := fun _ _ => True) ?_ fun _ _ _ h => h.elim
      apply (gate_safe .takeCatchup (by simp [LetsIn])).bind
      intro user
      apply (body_safe _).bind
      intro _
      exact done_safe _

/-- Goroutines started before the commit are not judged. -/
private theorem early_safe {n : Nat} {t : Task} {i : Nat} (hi : i < n)
    (p : Srv.M Outcome) {Q : Outcome → World → Prop} (hQ : ∀ a w, Q a w) :
    (lockoutDiscipline S n id).Triple t i (fun _ => True) p Q := by
  refine (Discipline.Triple.only (Prog.only_of_all (P := fun _ => True)
    (fun _ => trivial) p) (pure_stable True) ?_).post fun a w _ => hQ a w
  intro cmd o w _ _ _ _
  exact ⟨fun hle => absurd hi (by omega), fun _ _ _ => trivial⟩

end Lockout

/-- From a committed revocation on, every goroutine keeps to the lockout, and
those that have ended have given no tokens to the device. -/
theorem lockout_holds {c₀ c : Config Task World Srv Srv.Ans Outcome} {id : String}
    (h₀ : (backend S).Reach (fun _ _ => True) boot c₀)
    (hrev : ∃ e ∈ c₀.world.pg.wal, .revokeDevice id ∈ e.writes)
    (h : (backend S).Reach (fun _ _ => True) c₀ c) :
    (lockoutDiscipline S c₀.pool.length id).inv c.world ∧
      ∀ i t p, c.pool[i]? = some (t, p) →
        (lockoutDiscipline S c₀.pool.length id).Safe t i
          (fun out _ => c₀.pool.length ≤ i → t.isLoginFor id →
            ∀ rep, out = .reply rep → rep.issuesTokens = false) p c.world := by
  obtain ⟨e, he, hid⟩ := hrev
  have hrevoked : c₀.world.pg.Revoked id := committed_revocation h₀ he hid
  have hreach := (lockoutDiscipline S c₀.pool.length id).presumes_any trivial trivial h
  have hsound := Discipline.sound (D := lockoutDiscipline S c₀.pool.length id)
    (Q := fun t i out _ => c₀.pool.length ≤ i → t.isLoginFor id →
      ∀ rep, out = .reply rep → rep.issuesTokens = false)
    (by
      intro t j cmd o w w' r hi _ _ hx
      rcases tables_after cmd hx with ht | ⟨ws, ht⟩
      · show Tables.Revoked w'.pg.toTables id
        rw [ht]
        exact hi
      · show Tables.Revoked w'.pg.toTables id
        rw [ht]
        exact Tables.Revoked.writes hi ws)
    (by
      intro e w w' hi _ hx
      show Tables.Revoked w'.pg.toTables id
      rw [tables_env hx]
      exact hi)
    (fun _ _ => pure_stable True)
    (by
      intro t i w _ hw _
      exact ((task_locked t i).post fun _ _ hq _ => hq).safe hw trivial)
    hrevoked (fun _ _ => trivial)
    (by
      intro j t p hj
      have hlt : j < c₀.pool.length := (List.getElem?_eq_some_iff.mp hj).1
      exact (early_safe hlt p fun _ _ hle => absurd hlt (by omega)).safe hrevoked trivial)
    hreach
  exact ⟨hsound.2.1, hsound.2.2.2⟩

/-- A goroutine started after the commit is not about to let the device in. -/
theorem lockout_issues {c₀ c : Config Task World Srv Srv.Ans Outcome} {id : String}
    (h₀ : (backend S).Reach (fun _ _ => True) boot c₀)
    (hrev : ∃ e ∈ c₀.world.pg.wal, .revokeDevice id ∈ e.writes)
    (h : (backend S).Reach (fun _ _ => True) c₀ c) {i : Nat} {t : Task} {cmd : Srv}
    {k : cmd.Ans → Srv.M Outcome} (hi : c₀.pool.length ≤ i)
    (hp : c.pool[i]? = some (t, .call cmd k)) : ¬LetsIn id cmd := by
  obtain ⟨hinv, hsafe⟩ := lockout_holds h₀ hrev h
  exact (hsafe i t _ hp).issues (o := {}) hinv trivial hi

/-- **A revoked device is locked out.**  Take any state the backend reaches
with a committed revocation of a device in its log, and go on from there in
any way.  No goroutine started since then is about to enter the body of an
authenticated handler as that device or about to accept a socket of it, and a
login or refresh for it that has been answered has not been given tokens. -/
theorem revoked_device_locked_out {c₀ c : Config Task World Srv Srv.Ans Outcome}
    {id : String} (h₀ : (backend S).Reach (fun _ _ => True) boot c₀)
    (hrev : ∃ e ∈ c₀.world.pg.wal, .revokeDevice id ∈ e.writes)
    (h : (backend S).Reach (fun _ _ => True) c₀ c) {i : Nat} {t : Task}
    {p : Srv.M Outcome} (hi : c₀.pool.length ≤ i) (hp : c.pool[i]? = some (t, p)) :
    (∀ dev user k, p = .call (.enter dev user) k → dev.id ≠ id) ∧
      (∀ k, p ≠ .call (.accept id) k) ∧
      (t.isLoginFor id → ∀ rep, p = .ret (.reply rep) → rep.issuesTokens = false) := by
  refine ⟨?_, ?_, ?_⟩
  · rintro dev user k rfl
    exact lockout_issues h₀ hrev h hi hp
  · rintro k rfl
    exact lockout_issues h₀ hrev h hi hp rfl
  · rintro hlogin rep rfl
    obtain ⟨_, hsafe⟩ := lockout_holds h₀ hrev h
    exact (hsafe i t _ hp).returned hi hlogin rep rfl

/-- The Owner revokes its own phone; a login for it begun afterwards gets no
tokens. -/
theorem revoked_device_locked_out_own_phone :
    ∃ t p, (Sample.ask (Sample.ask Sample.ownerIn 4 (Sample.revokeReq 3 "rv" "PH-1")) 5
        (Sample.verifyReq "PH-1" 2 Sample.ownerSig)).pool[4]? = some (t, p) ∧
      (∀ dev user k, p = .call (.enter dev user) k → dev.id ≠ "PH-1") ∧
      (∀ k, p ≠ .call (.accept "PH-1") k) ∧
      (t.isLoginFor "PH-1" → ∀ rep, p = .ret (.reply rep) → rep.issuesTokens = false) := by
  -- One evaluation of the run for all three facts.
  have hfacts : ((Sample.ask (Sample.ask Sample.ownerIn 4 (Sample.revokeReq 3 "rv" "PH-1")) 5
      (Sample.verifyReq "PH-1" 2 Sample.ownerSig)).pool[4]?).isSome = true ∧
      (∃ e ∈ (Sample.ask Sample.ownerIn 4 (Sample.revokeReq 3 "rv" "PH-1")).world.pg.wal,
        .revokeDevice "PH-1" ∈ e.writes) ∧
      (Sample.ask Sample.ownerIn 4 (Sample.revokeReq 3 "rv" "PH-1")).pool.length ≤ 4 := by
    decide +kernel
  obtain ⟨hsome, hrev, hlen⟩ := hfacts
  obtain ⟨⟨t, p⟩, hp⟩ := Option.isSome_iff_exists.mp hsome
  exact ⟨t, p, hp, revoked_device_locked_out (S := Sample.server)
    (Sample.ask_reach Sample.ownerIn_reach 4 _) hrev (Sample.ask_reach .refl 5 _) hlen hp⟩

end Calcar.Api
