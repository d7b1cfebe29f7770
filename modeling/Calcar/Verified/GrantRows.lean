import Calcar.Verified.RevokeMarks

/-!
# The row of a grant

A grant is for the device that the row of user and key names when the store
decides, and that row was written by the registration before the decision, or by
something long before it.
-/

namespace Calcar

open Lib Pg

variable {ok : Oracle → Prop} {i : Nat} {w w' : World}

/-! ## What a grant is about -/

/-- Whose session it is, and what has joined it. -/
def Pg.Tables.joined (t : Tables) (id : String) : Option (String × Option Join) :=
  (t.session id).map fun s => (s.userId, s.join)

/-- The device is there, a computer of the user with this key, and not revoked. -/
def Pg.Tables.HasComputer (t : Tables) (user : String) (key : Bytes) (id : String) : Prop :=
  t.isRevoked id = false ∧
    ∃ d, t.device id = some d ∧ d.userId = user ∧ d.role = .computer ∧ d.pubKey = key

/-- `RegisterDevice` can write a row of this id, user and key. -/
structure Fits (t : Tables) (id user : String) (key : Bytes) : Prop where
  named : ¬(id = "" ∨ user = "" ∨ key = [])
  known : user ∈ t.users
  idFree : t.device id = none
  keyFree : t.deviceByKey user key = none

/-- The device with the session's key is the computer `id`, or none has it and
the Owner `owner` can register it as `id`. -/
def Pg.Tables.Grantable (t : Tables) (owner user : String) (key : Bytes) (id : String) : Prop :=
  t.HasComputer user key id ∧ (t.deviceByKey user key).map Device.id = some id ∨
    t.isRevoked id = false ∧ Fits t id user key ∧ user = owner

/-- An unrevoked row more. -/
theorem isRevoked_append {t t' : Tables} {d : Device} {id : String}
    (hd : t'.devices = t.devices ++ [d]) (hr : t'.revocations = t.revocations)
    (hflag : d.revoked = false) : t'.isRevoked id = t.isRevoked id := by
  unfold Tables.isRevoked
  rw [hd, hr, List.any_append]
  simp [hflag]

/-- A row whose id was free is the device of that id. -/
theorem device_append {t t' : Tables} {d : Device} (hd : t'.devices = t.devices ++ [d])
    (hfree : t.device d.id = none) : t'.device d.id = some d := by
  unfold Tables.device at hfree ⊢
  rw [hd, List.find?_append, hfree]
  simp

/-- A row whose key was free is the device of that user and key. -/
theorem deviceByKey_append {t t' : Tables} {d : Device} (hd : t'.devices = t.devices ++ [d])
    (hfree : t.deviceByKey d.userId d.pubKey = none) :
    t'.deviceByKey d.userId d.pubKey = some d := by
  unfold Tables.deviceByKey at hfree ⊢
  rw [hd, List.find?_append, hfree]
  simp

/-- A computer with the key is found under it, as itself or as another device. -/
theorem hasComputer_found {t : Tables} {user id : String} {key : Bytes}
    (h : t.HasComputer user key id) : ∃ d, t.deviceByKey user key = some d := by
  obtain ⟨_, d, hd, huser, _, hkey⟩ := h
  have hsome : (t.deviceByKey user key).isSome = true := by
    rw [Tables.deviceByKey, List.find?_isSome]
    exact ⟨d, List.mem_of_find?_eq_some hd, by simp [huser, hkey]⟩
  exact Option.isSome_iff_exists.mp hsome

/-- **What the grant's subject is.**  After the registration the lookup by user
and key finds the computer `id` exactly when the tables before were such that it
could. -/
theorem subject_iff {t t' : Tables} (c : Device) (user : String) (hrole : c.role = .computer)
    (hflag : c.revoked = false) (hrevs : t'.revocations = t.revocations)
    (hreg : Fits t c.id c.userId c.pubKey ∧ t'.devices = t.devices ++ [c] ∨
      ¬Fits t c.id c.userId c.pubKey ∧ t'.devices = t.devices) :
    ((t'.deviceByKey user c.pubKey).map Device.id).getD "" = c.id ∧
        t'.HasComputer user c.pubKey c.id ↔
      t.Grantable c.userId user c.pubKey c.id := by
  obtain ⟨hfits, hdevs⟩ | ⟨hno, hdevs⟩ := hreg
  · have hrow : t'.device c.id = some c := device_append hdevs hfits.idFree
    constructor
    · intro h
      obtain ⟨_, hactive, d, hd, huser, _, _⟩ := h
      rw [hrow] at hd
      cases hd
      rw [isRevoked_append hdevs hrevs hflag] at hactive
      exact .inr ⟨hactive, huser ▸ hfits, huser.symm⟩
    · intro h
      obtain ⟨⟨_, d, hd, _⟩, _⟩ | ⟨hactive, _, huser⟩ := h
      · rw [hfits.idFree] at hd
        cases hd
      · rw [huser, deviceByKey_append hdevs hfits.keyFree]
        refine ⟨rfl, ?_, c, hrow, rfl, hrole, rfl⟩
        rw [isRevoked_append hdevs hrevs hflag]
        exact hactive
  · have hsame : ∀ {key : Bytes}, t'.deviceByKey user key = t.deviceByKey user key := by
      intro key
      unfold Tables.deviceByKey
      rw [hdevs]
    have hcomputer : t'.HasComputer user c.pubKey c.id ↔ t.HasComputer user c.pubKey c.id := by
      unfold Tables.HasComputer Tables.isRevoked Tables.device
      rw [hdevs, hrevs]
    rw [hsame, hcomputer]
    constructor
    · intro h
      obtain ⟨hsubject, hhas⟩ := h
      obtain ⟨d, hd⟩ := hasComputer_found hhas
      rw [hd] at hsubject
      exact .inl ⟨hhas, by rw [hd]; exact congrArg some hsubject⟩
    · intro h
      obtain ⟨hhas, hkey⟩ | ⟨_, hfits, huser⟩ := h
      · rw [hkey]
        exact ⟨rfl, hhas⟩
      · rw [huser] at hfits
        exact absurd hfits hno

/-! ## What a write leaves alone -/

/-- A change of a session that leaves its user and its join. -/
theorem joined_modify (t : Tables) {x id : String} {f : SessionRow → SessionRow}
    (hid : ∀ s, (f s).id = s.id) (hf : ∀ s, (f s).userId = s.userId ∧ (f s).join = s.join) :
    (t.modifySession x f).joined id = t.joined id := by
  unfold Tables.joined
  rw [session_modify t hid]
  by_cases hx : x = id
  · rw [if_pos hx, Option.map_map]
    congr 1
    funext s
    show ((f s).userId, (f s).join) = (s.userId, s.join)
    rw [(hf s).1, (hf s).2]
  · rw [if_neg hx]

/-- The session's user and join are not changed by a decision, nor are devices
and revocations. -/
theorem decided_tables {t t' : Tables} {g : TrustGrant} {id granter : String} {st : Status}
    {sig : Bytes}
    (ht : t' = [Write.addGrant g, .decideSession id st granter sig].foldl Tables.apply t) :
    t'.grants = t.grants ++ [g] ∧ t'.devices = t.devices ∧ t'.revocations = t.revocations ∧
      ∀ x, t'.joined x = t.joined x := by
  have hform : t' = ({ t with grants := t.grants ++ [g] } : Tables).modifySession id fun s =>
      { s with status := st, granterDeviceId := granter, granterSignature := sig } := ht
  rw [hform]
  refine ⟨rfl, rfl, rfl, fun x => ?_⟩
  exact joined_modify _ (fun _ => rfl) fun _ => ⟨rfl, rfl⟩

/-- A registration leaves everything but the devices. -/
theorem registered_tables {t t' : Tables} {c : Device} {P Q : Prop}
    (h : P ∧ t' = t.apply (.addDevice c) ∨ Q ∧ t' = t) :
    t'.grants = t.grants ∧ t'.revocations = t.revocations ∧ ∀ x, t'.joined x = t.joined x := by
  obtain ⟨_, ht⟩ | ⟨_, ht⟩ := h
  · rw [ht]
    exact ⟨rfl, rfl, fun _ => rfl⟩
  · rw [ht]
    exact ⟨rfl, rfl, fun _ => rfl⟩

/-- The computers are those of the devices and the revocations. -/
theorem hasComputer_congr {t t' : Tables} {user id : String} {key : Bytes}
    (hd : t'.devices = t.devices) (hr : t'.revocations = t.revocations) :
    t'.HasComputer user key id ↔ t.HasComputer user key id := by
  unfold Tables.HasComputer Tables.isRevoked Tables.device
  rw [hd, hr]

/-! ## A decision that goes through -/

/-- A statement that succeeds is the statement's own step. -/
theorem runs_pg_ok {c : PgCmd} {a : c.Ret}
    (h : Prog.Runs Core.exec ok i (Postgres.pg c) w (.ok a) w') :
    ∃ p', c.step i w.pg = some (p', .ok a) ∧ w' = w.setPg p' := by
  obtain ⟨o, p', _, hx, hw⟩ := runs_pg.mp h
  exact ⟨p', PgCmd.exec_ok hx, hw⟩

/-- A transaction that returns a value: its body has, in a transaction of its
own, and the rollback leaves the tables. -/
theorem withTx_ok {α : Type} {body : Core.M (Except Err α)} {a : α}
    (h : Prog.Runs Core.exec ok i (Postgres.withTx body) w (.ok a) w') :
    ∃ w₁, Prog.Runs Core.exec ok i body (w.setPg (setTx w.pg i (some {}))) (.ok a) w₁ ∧
      w'.pg.toTables = w₁.pg.toTables := by
  obtain ⟨r, w₀, hbegin, hrest⟩ := Prog.runs_bind.mp h
  cases r with
  | error e =>
      obtain ⟨he, _⟩ := Prog.runs_ret.mp hrest
      cases he
  | ok u =>
      obtain ⟨p₀, hstep, hw₀⟩ := runs_pg_ok hbegin
      cases hstep
      obtain ⟨r, w₁, hbody, hroll⟩ := Prog.runs_bind.mp hrest
      obtain ⟨rr, w₂, hback, hret⟩ := Prog.runs_bind.mp hroll
      obtain ⟨hr, hw'⟩ := Prog.runs_ret.mp hret
      rw [hw₀, ← hr] at hbody
      refine ⟨w₁, hbody, ?_⟩
      obtain ⟨o, p₂, _, hx, hw₂⟩ := runs_pg.mp hback
      have hclose : p₂ = closeTx w₁.pg i := by
        unfold PgCmd.exec at hx
        rw [if_pos rfl] at hx
        cases hx
        rfl
      rw [hw', hw₂, hclose]
      rfl

/-- `UPDATE` and `COMMIT` of a decision in a live transaction. -/
theorem finishDecision_ok {id granter : String} {next : Status} {sig : Bytes} {tx : Tx}
    (h : Prog.Runs Core.exec ok i (Postgres.finishDecision id next granter sig) w (.ok ()) w')
    (htx : w.pg.txs i = some tx) (hlive : tx.aborted = false) :
    w'.pg.toTables =
      (tx.writes ++ [Write.decideSession id next granter sig]).foldl Tables.apply
        w.pg.toTables := by
  obtain ⟨r, w₁, hdecide, hrest⟩ := Prog.runs_bind.mp h
  cases r with
  | error e =>
      obtain ⟨he, _⟩ := Prog.runs_ret.mp hrest
      cases he
  | ok u =>
      obtain ⟨p₁, hstep, hw₁⟩ := runs_query_ok hdecide
      have hset : (PgCmd.txDecide id next granter sig).step i w.pg =
          if lockable w.pg i (.session id) = true then
            some (lock (stage w.pg i tx (.decideSession id next granter sig)) i (.session id),
              .ok ())
          else none := by
        show PgCmd.inTx i _ _ = _
        rw [inTx_live htx hlive]
      rw [hset] at hstep
      by_cases hlock : lockable w.pg i (.session id) = true
      · rw [if_pos hlock] at hstep
        cases hstep
        obtain ⟨r, w₂, hcommit, hret⟩ := Prog.runs_bind.mp hrest
        cases r with
        | error e =>
            obtain ⟨he, _⟩ := Prog.runs_ret.mp hret
            cases he
        | ok u =>
            obtain ⟨p₂, hstep₂, hw₂⟩ := runs_pg_ok hcommit
            obtain ⟨_, hw'⟩ := Prog.runs_ret.mp hret
            have htx₁ : (lock (stage w.pg i tx (.decideSession id next granter sig)) i
                (.session id)).txs i =
                  some { tx with writes := tx.writes ++ [.decideSession id next granter sig] } := by
              rw [lock_txs]
              exact setTx_self _ _ _
            rw [hw₁, World.setPg_pg, commit_live htx₁ hlive] at hstep₂
            cases hstep₂
            rw [hw', hw₂]
            rfl
      · rw [if_neg hlock] at hstep
        cases hstep

/-- Expiring the row under its lock answers with an error. -/
theorem expireTx_never {id : String} {r : Except Err Unit}
    (h : Prog.Runs Core.exec ok i (do
      match ← Postgres.query (.txExpire id) with
      | .error e => return .error e
      | .ok () =>
          match ← Postgres.query .commit with
          | .error e => return .error e
          | .ok () => return .error .expired) w r w') : r ≠ .ok () := by
  intro hr
  obtain ⟨a, w₁, _, hrest⟩ := Prog.runs_bind.mp h
  cases a with
  | error e =>
      obtain ⟨he, _⟩ := Prog.runs_ret.mp hrest
      rw [hr] at he
      cases he
  | ok u =>
      obtain ⟨a, w₂, _, hret⟩ := Prog.runs_bind.mp hrest
      cases a with
      | error e =>
          obtain ⟨he, _⟩ := Prog.runs_ret.mp hret
          rw [hr] at he
          cases he
      | ok u =>
          obtain ⟨he, _⟩ := Prog.runs_ret.mp hret
          rw [hr] at he
          cases he

/-- The row a decision locks. -/
theorem selectForUpdate_ok {id : String} {found : Option SessionRow}
    (h : Prog.Runs Core.exec ok i (Postgres.query (.txSelectForUpdate id)) w (.ok found) w')
    (htx : w.pg.txs i = some {}) :
    found = w.pg.session id ∧ w'.pg.txs i = some {} ∧ w'.pg.toTables = w.pg.toTables := by
  obtain ⟨p₁, hstep, hw'⟩ := runs_query_ok h
  rw [PgCmd.step, inTx_live htx rfl] at hstep
  cases hrow : w.pg.session id with
  | none =>
      rw [hrow] at hstep
      cases hstep
      rw [hw']
      exact ⟨rfl, htx, rfl⟩
  | some row =>
      rw [hrow] at hstep
      by_cases hlock : lockable w.pg i (.session id) = true
      · have hstep' := (if_pos hlock).symm.trans hstep
        cases hstep'
        rw [hw']
        exact ⟨rfl, htx, rfl⟩
      · have hstep' := (if_neg hlock).symm.trans hstep
        cases hstep'

/-- The lookup of the subject tells what is registered, or the transaction has
failed. -/
theorem lookup_subject {user : String} {pub : Bytes} {r : Except PgErr (Option String)}
    (h : Prog.Runs Core.exec ok i (Postgres.pg (.txDeviceByKey user pub)) w r w')
    (htx : w.pg.txs i = some {}) :
    (r = .ok ((w.pg.deviceByKey user pub).map Device.id) ∧ w' = w) ∨
      w'.pg.txs i = some { aborted := true } := by
  obtain ⟨o, p', _, hx, hw'⟩ := runs_pg.mp h
  have hstep : (PgCmd.txDeviceByKey user pub).step i w.pg =
      some (w.pg, .ok ((w.pg.deviceByKey user pub).map Device.id)) := by
    show PgCmd.inTx i _ _ = _
    rw [inTx_live htx rfl]
  have hfailed : (abortTx w.pg i).txs i = some { aborted := true } := by
    rw [abortTx_self, htx]
    rfl
  obtain hs | ⟨e, _, hp'⟩ | ⟨q, r', e, hs, _, hp'⟩ := PgCmd.exec_cases hx
  · rw [hstep] at hs
    cases hs
    exact .inl ⟨rfl, hw'⟩
  · rw [hw', hp']
    exact .inr hfailed
  · rw [hstep] at hs
    cases hs
    rw [hw', hp']
    exact .inr hfailed

/-- A grant that is staged is staged in a live transaction. -/
theorem addGrant_ok {g : TrustGrant}
    (h : Prog.Runs Core.exec ok i (Postgres.query (.txAddGrant g)) w (.ok ()) w') :
    ∃ tx, w.pg.txs i = some tx ∧ tx.aborted = false ∧
      w'.pg.txs i = some { tx with writes := tx.writes ++ [.addGrant g] } ∧
        w'.pg.toTables = w.pg.toTables := by
  obtain ⟨p', hstep, hw'⟩ := runs_query_ok h
  obtain ⟨_, he⟩ | ⟨tx, htx, hlive, hstaged⟩ := PgCmd.inTx_cases hstep
  · cases he
  · cases hstaged
    rw [hw']
    exact ⟨tx, htx, hlive, setTx_self _ _ _, rfl⟩

/-- **An approval that goes through** grants the joined key, for the device the
row of user and key has. -/
theorem approval_ok {C : Crypto} {id granter : String} {pub sig : Bytes}
    (h : Prog.Runs Core.exec ok i (Postgres.decidePairingSession C id true pub sig granter) w
      (.ok ()) w') :
    ∃ row j, w.pg.session id = some row ∧ row.join = some j ∧ pub = j.pubKey ∧
      w'.pg.toTables = [Write.addGrant {
          subjectDeviceId := ((w.pg.deviceByKey row.userId pub).map Device.id).getD ""
          granterDeviceId := granter
          payloadHash := Postgres.grantBinding C id granter pub
          signature := sig
          session := id
          subjectPubKey := pub }, .decideSession id .approved granter sig].foldl
        Tables.apply w.pg.toTables := by
  obtain ⟨w₁, hbody, htables⟩ := withTx_ok h
  have htx : (setTx w.pg i (some {})).txs i = some {} := setTx_self _ _ _
  obtain ⟨found, w₂, hselect, hrest⟩ := Prog.runs_bind.mp hbody
  cases found with
  | error e =>
      obtain ⟨he, _⟩ := Prog.runs_ret.mp hrest
      cases he
  | ok found =>
      obtain ⟨hfound, htx₂, htables₂⟩ := selectForUpdate_ok hselect htx
      cases found with
      | none =>
          obtain ⟨he, _⟩ := Prog.runs_ret.mp hrest
          cases he
      | some row =>
          obtain ⟨t, w₃, hclock, hrest⟩ := Prog.runs_bind.mp hrest
          have hw₃ : w₃ = w₂ := by
            obtain ⟨o, _, hx⟩ := Prog.runs_perform.mp hclock
            cases hx
            rfl
          rw [hw₃] at hrest
          change Prog.Runs Core.exec ok i (ite _ _ _ : Core.M _) w₂ _ w₁ at hrest
          by_cases hstatus : row.status ≠ .pending
          · rw [if_pos hstatus] at hrest
            obtain ⟨he, _⟩ := Prog.runs_ret.mp hrest
            cases he
          rw [if_neg hstatus] at hrest
          by_cases hexpired : ¬t < row.expiresAt
          · rw [if_pos hexpired] at hrest
            exact absurd rfl (expireTx_never hrest)
          rw [if_neg hexpired, if_pos rfl] at hrest
          cases hjoin : row.join with
          | none =>
              rw [hjoin] at hrest
              obtain ⟨he, _⟩ := Prog.runs_ret.mp hrest
              cases he
          | some j =>
              rw [hjoin] at hrest
              change Prog.Runs Core.exec ok i (ite _ _ _ : Core.M _) w₂ _ w₁ at hrest
              by_cases hkey : pub = [] ∨ pub ≠ j.pubKey
              · rw [if_pos hkey] at hrest
                obtain ⟨he, _⟩ := Prog.runs_ret.mp hrest
                cases he
              rw [if_neg hkey] at hrest
              obtain ⟨subject, w₄, hlookup, hrest⟩ := Prog.runs_bind.mp hrest
              obtain ⟨granted, w₅, hgrant, hrest⟩ := Prog.runs_bind.mp hrest
              cases granted with
              | error e =>
                  obtain ⟨he, _⟩ := Prog.runs_ret.mp hrest
                  cases he
              | ok u =>
                  obtain ⟨tx, htx₄, hlive, htx₅, htables₅⟩ := addGrant_ok hgrant
                  have hdone := finishDecision_ok hrest htx₅ hlive
                  obtain ⟨hsubject, hw₄⟩ | hfailed := lookup_subject hlookup htx₂
                  · rw [hw₄, htx₂] at htx₄
                    cases htx₄
                    have hkey' : pub = j.pubKey :=
                      Classical.byContradiction fun hne => hkey (.inr hne)
                    refine ⟨row, j, hfound.symm, hjoin, hkey', ?_⟩
                    have hsame : w₂.pg.deviceByKey row.userId pub =
                        w.pg.deviceByKey row.userId pub := by
                      show Tables.deviceByKey w₂.pg.toTables row.userId pub = _
                      rw [htables₂]
                      rfl
                    rw [hsame] at hsubject
                    rw [htables, hdone, htables₅, hw₄, htables₂, hsubject]
                    cases w.pg.deviceByKey row.userId pub with
                    | none => rfl
                    | some d => rfl
                  · rw [htx₄] at hfailed
                    cases hfailed
                    cases hlive

/-! ## The registration before it -/

/-- A registration that a decision goes on after has written the row, or
nothing because the row does not fit. -/
theorem registerDevice_settled {d : Device} {r : Except Err Unit}
    (h : Prog.Runs Core.exec ok i (Postgres.registerDevice d) w r w')
    (hr : Api.failedHard r = false) :
    (Fits w.pg.toTables d.id d.userId d.pubKey ∧
        w'.pg.toTables = w.pg.toTables.apply (.addDevice { d with revoked := false })) ∨
      (¬Fits w.pg.toTables d.id d.userId d.pubKey ∧ w'.pg.toTables = w.pg.toTables) := by
  unfold Postgres.registerDevice at h
  by_cases hblank : d.id = "" ∨ d.userId = "" ∨ d.pubKey = []
  · rw [if_pos hblank] at h
    obtain ⟨_, hw'⟩ := Prog.runs_ret.mp h
    rw [hw']
    exact .inr ⟨fun hfits => hfits.named hblank, rfl⟩
  rw [if_neg hblank] at h
  obtain ⟨r', hpg, hrep⟩ := runs_query.mp h
  obtain ⟨o, p', _, hx, hw'⟩ := runs_pg.mp hpg
  have hstep : (PgCmd.insertDevice { d with revoked := false }).step i w.pg = some (p', r') := by
    obtain hs | ho := PgCmd.exec_answer hx
    · exact hs
    · rw [hrep, ho] at hr
      cases hr
  rw [PgCmd.step] at hstep
  rw [hw']
  by_cases huser : ¬d.userId ∈ w.pg.users
  · rw [if_pos huser] at hstep
    cases hstep
    exact .inr ⟨fun hfits => huser hfits.known, rfl⟩
  rw [if_neg huser] at hstep
  by_cases htaken : (w.pg.device d.id).isSome ∨ (w.pg.deviceByKey d.userId d.pubKey).isSome
  · rw [if_pos htaken] at hstep
    cases hstep
    refine .inr ⟨fun hfits => ?_, rfl⟩
    obtain hid | hkey := htaken
    · rw [hfits.idFree] at hid
      cases hid
    · rw [hfits.keyFree] at hkey
      cases hkey
  · rw [if_neg htaken] at hstep
    cases hstep
    refine .inl ⟨⟨hblank, Classical.not_not.mp huser, ?_, ?_⟩, rfl⟩
    · exact Option.not_isSome_iff_eq_none.mp fun hid => htaken (.inl hid)
    · exact Option.not_isSome_iff_eq_none.mp fun hkey => htaken (.inr hkey)

/-- The combined store's approval that goes through: Redis has no part in the
tables. -/
theorem decide_ok {C : Crypto} {id granter : String} {pub sig : Bytes}
    (h : Prog.Runs Core.exec ok i (combined C (.decidePairingSession id true pub sig granter)) w
      (.ok ()) w') :
    ∃ row j g, w.pg.session id = some row ∧ row.join = some j ∧ pub = j.pubKey ∧
      g.session = id ∧
      g.subjectDeviceId = ((w.pg.deviceByKey row.userId pub).map Device.id).getD "" ∧
      w'.pg.toTables = [Write.addGrant g, .decideSession id .approved granter sig].foldl
        Tables.apply w.pg.toTables := by
  have hmark : ∀ {st : Status} {a : Except Err Unit} {w₁ w₂ : World},
      Prog.Runs Core.exec ok i (Redis.markPairingConsumed id st) w₁ a w₂ → w₂.pg = w₁.pg :=
    fun hrun => off_pg_keeps (Redis.only_markPairingConsumed (fun _ h => by cases h)
      fun c hc s hs => by subst hs; exact hc) hrun
  obtain ⟨live, w₁, hlive, hrest⟩ := Prog.runs_bind.mp h
  have hpg₁ : w₁.pg = w.pg :=
    off_pg_keeps (Redis.only_checkPairingLive (fun _ h => by cases h) fun _ h => by cases h) hlive
  have hdurably : Prog.Runs Core.exec ok i (Combined.decideDurably C id true pub sig granter) w₁
      (.ok ()) w' := by
    cases live with
    | ok u => exact hrest
    | error e =>
        change Prog.Runs Core.exec ok i (ite _ _ _ : Core.M _) w₁ _ w' at hrest
        by_cases hgone : e ≠ .notFound
        · rw [if_pos hgone] at hrest
          obtain ⟨he, _⟩ := Prog.runs_ret.mp hrest
          cases he
        · rw [if_neg hgone] at hrest
          exact hrest
  obtain ⟨decided, w₂, hdecide, hdone⟩ := Prog.runs_bind.mp hdurably
  cases decided with
  | error e =>
      change Prog.Runs Core.exec ok i (ite _ _ _ : Core.M _) w₂ _ w' at hdone
      by_cases hdead : e = .expired ∨ e = .gone
      · rw [if_pos hdead] at hdone
        obtain ⟨_, _, _, hret⟩ := Prog.runs_bind.mp hdone
        obtain ⟨he, _⟩ := Prog.runs_ret.mp hret
        cases he
      · rw [if_neg hdead] at hdone
        obtain ⟨he, _⟩ := Prog.runs_ret.mp hdone
        cases he
  | ok u =>
      obtain ⟨_, w₃, hconsumed, hret⟩ := Prog.runs_bind.mp hdone
      obtain ⟨_, hw'⟩ := Prog.runs_ret.mp hret
      obtain ⟨row, j, hrow, hjoin, hkey, htables⟩ := approval_ok hdecide
      rw [hpg₁] at hrow htables
      rw [← hmark hconsumed, ← hw'] at htables
      exact ⟨row, j, _, hrow, hjoin, hkey, rfl, rfl, htables⟩

end Calcar
