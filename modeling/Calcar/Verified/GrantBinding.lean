import Calcar.Verified.GrantRows
import Calcar.Verified.RequestTime

/-!
# What a grant binds

An approval that is answered with 200 has verified a record about one computer
and has committed a grant.  When the two are about the same device, and that
device is the user's own unrevoked computer with the joined key, is decided by
the rows there are before the request.
-/

namespace Calcar

open Lib Pg Trust

variable {ok : Oracle → Prop} {i : Nat} {w w' : World}

/-! ## Before the registration -/

/-- Nothing is registered, revoked, granted or joined; a session may have expired. -/
structure Undecided (w w' : World) : Prop where
  users : w'.pg.users = w.pg.users
  devices : w'.pg.devices = w.pg.devices
  revocations : w'.pg.revocations = w.pg.revocations
  grants : w'.pg.grants = w.pg.grants
  joined : ∀ id, w'.pg.joined id = w.pg.joined id

theorem Undecided.refl (w : World) : Undecided w w := ⟨rfl, rfl, rfl, rfl, fun _ => rfl⟩

theorem Undecided.trans {w w₁ w₂ : World} (h₁ : Undecided w w₁) (h₂ : Undecided w₁ w₂) :
    Undecided w w₂ :=
  ⟨h₂.users.trans h₁.users, h₂.devices.trans h₁.devices, h₂.revocations.trans h₁.revocations,
    h₂.grants.trans h₁.grants, fun id => (h₂.joined id).trans (h₁.joined id)⟩

/-- Equal tables are undecided. -/
theorem Undecided.of_tables {w w' : World} (h : w'.pg.toTables = w.pg.toTables) :
    Undecided w w' where
  users := congrArg Tables.users h
  devices := congrArg Tables.devices h
  revocations := congrArg Tables.revocations h
  grants := congrArg Tables.grants h
  joined id := congrArg (fun t : Tables => t.joined id) h

/-- The command commits nothing but the expiry of a session. -/
def Undeciding : Core → Prop
  | .pg s => ∀ (p : PgState) (i : Nat) ws, PgCmd.Lands p i s ws → ∃ id, ws = [.expireSession id]
  | _ => True

theorem Undeciding.step {c : Core} (hc : Undeciding c) {o : Oracle} {r : c.Ans} {w₀ : World}
    (hx : Core.exec i c o w = some (w', r)) (h : Undecided w₀ w) : Undecided w₀ w' := by
  cases c with
  | pg s =>
      simp only [Core.exec] at hx
      cases he : s.exec i o.fault w.pg with
      | none =>
          rw [he] at hx
          cases hx
      | some x =>
          obtain ⟨p', r'⟩ := x
          rw [he] at hx
          cases hx
          obtain ⟨ht, _⟩ | ⟨ws, hl, ht, _⟩ := PgCmd.exec_tables he
          · exact h.trans (.of_tables ht)
          · obtain ⟨id, hws⟩ := hc w.pg i ws hl
            rw [hws] at ht
            have hexpired : p'.toTables =
                w.pg.toTables.modifySession id fun s => { s with status := .expired } := ht
            refine h.trans ⟨?_, ?_, ?_, ?_, ?_⟩
            · show p'.toTables.users = _
              rw [hexpired]
              rfl
            · show p'.toTables.devices = _
              rw [hexpired]
              rfl
            · show p'.toTables.revocations = _
              rw [hexpired]
              rfl
            · show p'.toTables.grants = _
              rw [hexpired]
              rfl
            · intro sid
              show p'.toTables.joined sid = _
              rw [hexpired]
              exact joined_modify _ (fun _ => rfl) fun _ => ⟨rfl, rfl⟩
  | rand n =>
      simp only [Core.exec] at hx
      split at hx
      · cases hx
        exact h.trans (.of_tables rfl)
      · cases hx
  | _ =>
      cases hx
      exact h.trans (.of_tables rfl)

theorem undeciding_of_issues {s : Seam} {sid : String} {cmd : Core}
    (hs : (Api.Route.pairingGet sid).Calls (.store s)) (h : s.Issues cmd) : Undeciding cmd := by
  cases cmd with
  | pg c =>
      intro p j ws hl
      obtain hreads | hwrites := h
      · cases hl with
        | now hcom => cases hcom <;> exact hreads.elim
        | tx hcm =>
            rw [hcm] at hreads
            exact hreads.elim
      · have hexpire : ∃ id', c = .expirePending id' := by
          cases s with
          | getPairingSession id' =>
              cases c with
              | expirePending id'' => exact ⟨id'', rfl⟩
              | _ => exact absurd hwrites id
          | checkAndMarkRequest rid ttl => exact absurd hwrites id
          | getDevice d => exact absurd hwrites id
          | listUserDevices u => exact absurd hwrites id
          | isRevoked d => exact absurd hwrites id
          | resolveAccessToken t => exact absurd hwrites id
          | getPresence d => exact absurd hwrites id
          | ping => exact absurd hwrites id
          | _ =>
              obtain hlook | hw := hs
              · exact absurd hlook id
              · exact absurd hw id
        obtain ⟨id', hc⟩ := hexpire
        rw [hc] at hl
        cases hl with
        | now hcom =>
            cases hcom
            exact ⟨id', rfl⟩
        | tx hcm => cases hcm
  | _ => trivial

/-- **Before the registration** a decision changes nothing that it will rest
on. -/
theorem part_undecided {S : Api.Server} {β : Type} (sid : String) {x : Api.H β}
    {r : Except Api.Reply β} (hx : Api.HOnly ((Api.Route.pairingGet sid).CallsAs fun _ => True) x)
    (h : Api.HRuns S ok i x w r w') : Undecided w w' := by
  have honly : (Api.onCore S x.run).Only Undeciding := by
    refine hx.run.expand fun c hc => ?_
    cases c with
    | store s =>
        exact (combined_issues S.crypto s).mono fun cmd hcmd =>
          undeciding_of_issues hc.calls hcmd
    | now => exact Prog.only_perform trivial
    | rand n => exact Prog.only_perform trivial
    | notify ev => exact Prog.only_perform trivial
  exact honly.runs (I := Undecided w)
    (fun _ _ _ _ _ hc hcmd hi => hc.step hcmd hi) h (.refl w)

/-- What can be granted does not depend on what a handler does before the
registration. -/
theorem Undecided.grantable (h : Undecided w w') {owner user id : String} {key : Bytes} :
    w'.pg.Grantable owner user key id ↔ w.pg.Grantable owner user key id := by
  have hrevoked : w'.pg.isRevoked id = w.pg.isRevoked id := by
    unfold Tables.isRevoked
    rw [h.devices, h.revocations]
  have hdevice : w'.pg.device id = w.pg.device id := by
    unfold Tables.device
    rw [h.devices]
  have hbyKey : w'.pg.deviceByKey user key = w.pg.deviceByKey user key := by
    unfold Tables.deviceByKey
    rw [h.devices]
  have hfits : Fits w'.pg.toTables id user key ↔ Fits w.pg.toTables id user key :=
    ⟨fun hf => ⟨hf.named, h.users ▸ hf.known, hdevice ▸ hf.idFree, hbyKey ▸ hf.keyFree⟩,
      fun hf => ⟨hf.named, h.users.symm ▸ hf.known, hdevice.symm ▸ hf.idFree,
        hbyKey.symm ▸ hf.keyFree⟩⟩
  unfold Tables.Grantable Tables.HasComputer
  rw [hrevoked, hdevice, hbyKey, hfits]

namespace Api

variable {S : Server}

/-! ## An approval that goes through -/

/-- The subject's key is the one that has joined. -/
theorem decidable_joined {me : Device} {id : String} {req : DecisionReq} {s : PairingSession}
    {pub : Bytes} {subject : String}
    (h : HRuns S ok i (decidable S me id req) w (.ok (s, pub, subject)) w') :
    pub = s.joinPubKey := by
  unfold decidable at h
  obtain ⟨pub', w₁, _, h⟩ := hruns_ok h
  obtain ⟨s', w₂, _, h⟩ := hruns_ok h
  obtain ⟨_, w₃, _, h⟩ := hruns_ok h
  obtain ⟨t, w₄, _, h⟩ := hruns_ok h
  obtain ⟨_, w₅, _, h⟩ := hruns_ok h
  obtain ⟨_, w₆, _, h⟩ := hruns_ok h
  obtain ⟨_, w₇, hsame, h⟩ := hruns_ok h
  obtain ⟨_, w₈, _, h⟩ := hruns_ok h
  have hall : s = s' ∧ pub = pub' := by
    cases hid : deviceIDForComputer S.crypto pub' with
    | error e =>
        rw [hid] at h
        obtain ⟨x, w₉, hthrow, _⟩ := hruns_ok h
        obtain ⟨he, _⟩ := hruns_throw.mp hthrow
        cases he
    | ok y =>
        rw [hid] at h
        obtain ⟨x, w₉, _, hpure⟩ := hruns_ok h
        obtain ⟨he, _⟩ := hruns_pure.mp hpure
        cases he
        exact ⟨rfl, rfl⟩
  obtain ⟨rfl, rfl⟩ := hall
  exact Classical.byContradiction (replyIf_ok hsame).2

/-- The record that is verified is about the subject and its key. -/
theorem verifiedRecord_ok {me : Device} {id : String} {req : DecisionReq} {s : PairingSession}
    {pub : Bytes} {subject : String} {record : AuthorizationRecord} (hok : ∃ o, ok o)
    (h : HRuns S ok i (verifiedRecord S me id req s pub subject) w (.ok record) w') :
    w' = w ∧ (∃ sig nonce, record = authorizationRecord S me s req id subject pub sig nonce) ∧
      verifyAuthorization S.crypto record me.pubKey id s.joinPubKey record.contextHash
        (Time.unixMilli w.clock) pairingTTLMillis = .ok () := by
  unfold verifiedRecord at h
  obtain ⟨sig, w₁, hsig, h⟩ := hruns_ok h
  obtain ⟨_, w₂, hid, h⟩ := hruns_ok h
  obtain ⟨nonce, w₃, hnonce, h⟩ := hruns_ok h
  obtain ⟨_, w₄, hmillis, h⟩ := hruns_ok h
  obtain ⟨t, w₅, hnow, h⟩ := hruns_ok h
  obtain ⟨ht, hw₅⟩ := (hruns_now hok).mp hnow
  have hw₄ : w₄ = w := by
    rw [(replyIf_ok hmillis).1, (require_ok hnonce).1, (replyIf_ok hid).1, (require_ok hsig).1]
  dsimp only at h
  split at h
  · rename_i hverify
    obtain ⟨he, hw'⟩ := hruns_pure.mp h
    have hrecord := Except.ok.inj he
    have hclock : t = w.clock := (Except.ok.inj ht).trans (congrArg World.clock hw₄)
    rw [hclock] at hverify
    rw [hw', hw₅, hw₄, hrecord]
    exact ⟨rfl, ⟨sig, nonce, rfl⟩, hverify⟩
  · obtain ⟨he, _⟩ := hruns_throw.mp h
    cases he

/-- The grant `g` is the one that the approval of `id` has committed; the
device it names is the computer of `record`, which the Owner has signed and
which is in the reply. -/
structure GrantBound (S : Server) (w w' : World) (me : Device) (id : String) (req : DecisionReq)
    (rep : Reply) (g : TrustGrant) (record : AuthorizationRecord) : Prop where
  committed : w'.pg.grants = w.pg.grants ++ [g]
  session : g.session = id
  built : ∃ s sig nonce, record =
    authorizationRecord S me s req id record.subjectDeviceId record.subjectPublicKey sig nonce
  verified : verifyAuthorization S.crypto record me.pubKey id record.subjectPublicKey
    record.contextHash (Time.unixMilli w'.clock) pairingTTLMillis = .ok ()
  returned : rep = ⟨200, .decided id .approved (some record.subjectDeviceId)⟩
  subject : g.subjectDeviceId = record.subjectDeviceId
  computer : ∃ user join, w'.pg.joined id = some (user, some join) ∧
    record.subjectPublicKey = join.pubKey ∧
      w'.pg.HasComputer user join.pubKey g.subjectDeviceId

/-- The rows before the approval of `id` let the grant be for the computer that
is derived from the joined key. -/
def GrantBindable (S : Server) (w : World) (me : Device) (id : String) : Prop :=
  ∃ user join subject, w.pg.joined id = some (user, some join) ∧
    deviceIDForComputer S.crypto join.pubKey = .ok subject ∧
      w.pg.Grantable me.userId user join.pubKey subject

/-- What an approval that goes through has done. -/
theorem approve_ok {me : Device} {id : String} {req : DecisionReq} {s : PairingSession}
    {pub : Bytes} {subject : String} {rep : Reply} (hok : ∃ o, ok o)
    (h : HRuns S ok i (approve S me id req s pub subject) w (.ok rep) w') :
    rep = ⟨200, .decided id .approved (some subject)⟩ ∧
      (∃ record sig nonce, record = authorizationRecord S me s req id subject pub sig nonce ∧
        verifyAuthorization S.crypto record me.pubKey id s.joinPubKey record.contextHash
          (Time.unixMilli w'.clock) pairingTTLMillis = .ok ()) ∧
      ∃ registered w₁ sig w₂,
        Prog.Runs Core.exec ok i (Postgres.registerDevice (pairedComputer me s subject pub)) w
          registered w₁ ∧ failedHard registered = false ∧
        Prog.Runs Core.exec ok i
          (combined S.crypto (.decidePairingSession id true pub sig me.id)) w₁ (.ok ()) w₂ ∧
        w'.pg = w₂.pg := by
  have hclock := hruns_clock h
  unfold approve at h
  obtain ⟨record, w₁, hverified, h⟩ := hruns_ok h
  obtain ⟨registered, w₂, hregister, h⟩ := hruns_ok h
  obtain ⟨_, w₃, hsoft, h⟩ := hruns_ok h
  obtain ⟨_, w₄, hdecide, h⟩ := hruns_ok h
  obtain ⟨_, w₅, hnotify, h⟩ := hruns_ok h
  obtain ⟨hrep, hw'⟩ := hruns_pure.mp h
  obtain ⟨hw₁, ⟨sig, nonce, hrecord⟩, hverify⟩ := verifiedRecord_ok hok hverified
  obtain ⟨answer, he, hregistered⟩ := hruns_attempt.mp hregister
  obtain ⟨hw₃, hhard⟩ := replyIf_ok hsoft
  obtain ⟨_, _, hnotified⟩ := hruns_attempt.mp hnotify
  have hpg : w₅.pg = w₄.pg :=
    off_pg_keeps (Prog.only_perform fun _ h => by cases h) hnotified
  rw [← Except.ok.inj he] at hregistered
  rw [hw₁] at hregistered
  rw [hw₃] at hdecide
  rw [← hclock] at hverify
  refine ⟨Except.ok.inj hrep, ⟨record, sig, nonce, hrecord, hverify⟩, registered, w₂, _, w₄,
    hregistered, ?_, store_ok hdecide, ?_⟩
  · simpa using hhard
  · rw [hw']
    exact hpg

/-- With the session's row at hand, only the devices are left to look at. -/
theorem bindable_iff {me : Device} {id user subject : String} {join : Join}
    (hjoined : w.pg.joined id = some (user, some join))
    (hid : deviceIDForComputer S.crypto join.pubKey = .ok subject) :
    GrantBindable S w me id ↔ w.pg.Grantable me.userId user join.pubKey subject := by
  constructor
  · intro h
    obtain ⟨user', join', subject', hjoined', hid', hgrantable⟩ := h
    rw [hjoined] at hjoined'
    cases hjoined'
    rw [hid] at hid'
    cases hid'
    exact hgrantable
  · intro h
    exact ⟨user, join, subject, hjoined, hid, h⟩

/-- **An approval binds its grant exactly when the rows let it.** -/
theorem approve_binds_iff {me : Device} {id : String} {req : DecisionReq} {s : PairingSession}
    {pub : Bytes} {subject : String} {rep : Reply} (hok : ∃ o, ok o)
    (h : HRuns S ok i (approve S me id req s pub subject) w (.ok rep) w')
    (huser : s.userId = me.userId) (hkey : pub = s.joinPubKey)
    (hid : deviceIDForComputer S.crypto pub = .ok subject) :
    (∃ g record, GrantBound S w w' me id req rep g record) ↔ GrantBindable S w me id := by
  obtain ⟨hrep, ⟨record, sig, nonce, hrecord, hverify⟩, registered, w₁, sig', w₂, hregister,
    hsoft, hdecide, hpg⟩ := approve_ok hok h
  obtain ⟨row, j, g, hrow, hjoin, hpub, hsession, hsubject, htables⟩ := decide_ok hdecide
  obtain ⟨hgrants, hdevices, hrevocations, hjoined⟩ := decided_tables htables
  have hsettled := registerDevice_settled hregister hsoft
  obtain ⟨hgrants₁, hrevocations₁, hjoined₁⟩ := registered_tables hsettled
  have hrowJoined : w₁.pg.joined id = some (row.userId, some j) := by
    unfold Tables.joined
    rw [hrow, Option.map_some, hjoin]
  have hlookup := subject_iff (pairedComputer me s subject pub) row.userId rfl rfl
    hrevocations₁ (hsettled.imp (fun h => ⟨h.1, by rw [h.2]; rfl⟩) fun h => ⟨h.1, by rw [h.2]⟩)
  have hcomputer : w'.pg.HasComputer row.userId pub subject ↔
      w₁.pg.HasComputer row.userId pub subject := by
    rw [hpg]
    exact hasComputer_congr hdevices hrevocations
  have hown : (pairedComputer me s subject pub).userId = me.userId := huser
  rw [bindable_iff ((hjoined₁ id).symm.trans hrowJoined) (hpub ▸ hid), ← hpub, ← hown]
  refine Iff.trans ?_ hlookup
  constructor
  · intro h
    obtain ⟨g', record', hbinds⟩ := h
    have hcommitted := hbinds.committed
    rw [hpg, hgrants, hgrants₁] at hcommitted
    have hg := List.cons.inj (List.append_cancel_left hcommitted)
    have hreturned := hbinds.returned
    rw [hrep] at hreturned
    have hrecordId : subject = record'.subjectDeviceId := by cases hreturned; rfl
    have hnamed : g.subjectDeviceId = subject := by
      rw [hg.1, hbinds.subject, hrecordId]
    obtain ⟨user, join, hjoined', _, hhas⟩ := hbinds.computer
    rw [hpg, hjoined id, hrowJoined] at hjoined'
    cases hjoined'
    rw [← hg.1, hnamed, ← hpub] at hhas
    exact ⟨hsubject.symm.trans hnamed, hcomputer.mp hhas⟩
  · intro h
    obtain ⟨hlooked, hhas⟩ := h
    have hnamed : g.subjectDeviceId = subject := hsubject.trans hlooked
    have hrecordKey : record.subjectPublicKey = pub := by rw [hrecord]; rfl
    have hrecordId : record.subjectDeviceId = subject := by rw [hrecord]; rfl
    refine ⟨g, record, ?_⟩
    constructor
    · rw [hpg, hgrants, hgrants₁]
    · exact hsession
    · exact ⟨s, sig, nonce, by rw [hrecordId, hrecordKey]; exact hrecord⟩
    · rw [hrecordKey, hkey]
      exact hverify
    · rw [hrep, hrecordId]
    · rw [hrecordId]
      exact hnamed
    · refine ⟨row.userId, j, ?_, hrecordKey.trans hpub, ?_⟩
      · rw [hpg, hjoined id, hrowJoined]
      · rw [← hpub, hnamed]
        exact hcomputer.mpr hhas

/-! ## A request that is answered with 200 -/

/-- A reply that is no success. -/
def Reply.Refuses (r : Reply) : Prop := r.status ≠ 200

theorem refuses_writeErr {status : Nat} {code msg : String} {retryable : Bool}
    (h : status ≠ 200) : (writeErr status code msg retryable).Refuses := h

theorem refuses_storeErr (e : Err) : (storeErr e .pairingExpired .pairingConsumed).Refuses := by
  cases e <;> exact refuses_writeErr (by decide)

theorem refuses_writeTrustErr (e : TrustError) : (writeTrustErr e).Refuses := by
  unfold writeTrustErr
  split <;> exact refuses_writeErr (by decide)

theorem throwing_idempotent {hdr : String} : Throwing S Reply.Refuses (idempotent hdr) := by
  apply Throwing.bind (throwing_replyIf _ (refuses_writeErr (by decide)))
  intro _
  apply throwing_store
  intro e
  split
  · exact refuses_writeErr (by decide)
  · exact refuses_writeErr (by decide)

theorem throwing_decidable {me : Device} {id : String} {req : DecisionReq} :
    Throwing S Reply.Refuses (decidable S me id req) := by
  unfold decidable
  apply Throwing.bind (throwing_require (refuses_writeErr (by decide)))
  intro pub
  apply Throwing.bind (throwing_store refuses_storeErr)
  intro s
  apply Throwing.bind (throwing_replyIf _ (refuses_writeErr (by decide)))
  intro _
  apply Throwing.bind throwing_attempt
  intro t
  apply Throwing.bind (throwing_replyIf _ (refuses_writeErr (by decide)))
  intro _
  apply Throwing.bind (throwing_replyIf _ (refuses_writeErr (by decide)))
  intro _
  apply Throwing.bind (throwing_replyIf _ (refuses_writeErr (by decide)))
  intro _
  apply Throwing.bind (throwing_replyIf _ (refuses_writeErr (by decide)))
  intro _
  cases deviceIDForComputer S.crypto pub with
  | ok subject => exact Throwing.bind (throwing_pure subject) fun _ => throwing_pure _
  | error e =>
      apply Throwing.bind (throwing_throw (refuses_writeErr (by decide)))
      exact fun _ => throwing_pure _

theorem throwing_approve {me : Device} {id : String} {req : DecisionReq} {s : PairingSession}
    {pub : Bytes} {subject : String} :
    Throwing S Reply.Refuses (approve S me id req s pub subject) := by
  unfold approve
  apply Throwing.bind
  · unfold verifiedRecord
    apply Throwing.bind (throwing_require (refuses_writeErr (by decide)))
    intro sig
    apply Throwing.bind (throwing_replyIf _ (refuses_writeErr (by decide)))
    intro _
    apply Throwing.bind (throwing_require (refuses_writeErr (by decide)))
    intro nonce
    apply Throwing.bind (throwing_replyIf _ (refuses_writeErr (by decide)))
    intro _
    apply Throwing.bind throwing_attempt
    intro t
    dsimp only
    split
    · exact throwing_pure _
    · exact throwing_throw (refuses_writeTrustErr _)
  intro record
  apply Throwing.bind throwing_attempt
  intro registered
  apply Throwing.bind (throwing_replyIf _ (refuses_writeErr (by decide)))
  intro _
  apply Throwing.bind (throwing_store refuses_storeErr)
  intro _
  apply Throwing.bind throwing_attempt
  exact fun _ => throwing_pure _

theorem throwing_reject {me : Device} {id : String} {s : PairingSession} :
    Throwing S Reply.Refuses (reject me id s) := by
  unfold reject
  apply Throwing.bind (throwing_store refuses_storeErr)
  intro _
  apply Throwing.bind throwing_attempt
  exact fun _ => throwing_pure _

/-- A decision that ends early is answered with no 200. -/
theorem throwing_decision {rid : String} {me : Device} {id : String} {body : Json DecisionReq} :
    Throwing S Reply.Refuses (handlePairingDecision S rid me id body) := by
  unfold handlePairingDecision
  apply Throwing.bind throwing_idempotent
  intro _
  apply Throwing.bind (throwing_replyIf _ (refuses_writeErr (by decide)))
  intro _
  apply Throwing.bind (throwing_decode fun _ => refuses_writeErr (by decide))
  intro req
  apply Throwing.bind throwing_decidable
  rintro ⟨s, pub, subject⟩
  show Throwing S _ (ite _ _ _ : H Reply)
  split
  · exact throwing_approve
  · exact throwing_reject

/-- What `GrantBound` says of the world before the request is the grants it has. -/
theorem undecided_bound {w₀ : World} (h : Undecided w₀ w) {me : Device} {id : String}
    {req : DecisionReq} {rep : Reply} {g : TrustGrant} {record : AuthorizationRecord} :
    GrantBound S w₀ w' me id req rep g record ↔ GrantBound S w w' me id req rep g record := by
  constructor
  · intro hb
    exact { hb with committed := by rw [h.grants]; exact hb.committed }
  · intro hb
    exact { hb with committed := by rw [← h.grants]; exact hb.committed }

theorem undecided_bindable {w₀ : World} (h : Undecided w₀ w) {me : Device} {id : String} :
    GrantBindable S w₀ me id ↔ GrantBindable S w me id := by
  unfold GrantBindable
  constructor
  · intro hb
    obtain ⟨user, join, subject, hjoined, hid, hgrantable⟩ := hb
    exact ⟨user, join, subject, (h.joined id).trans hjoined, hid, h.grantable.mpr hgrantable⟩
  · intro hb
    obtain ⟨user, join, subject, hjoined, hid, hgrantable⟩ := hb
    exact ⟨user, join, subject, (h.joined id).symm.trans hjoined, hid, h.grantable.mp hgrantable⟩

/-- **A grant binds what the Owner has signed, exactly when the rows let it.**
Whatever the stores hold, let an approval be answered with 200.  Its grant is
committed, and it names the computer of the verified record that is in the
reply, one of the session's user, unrevoked, with the joined key, if and only if
before the request the joined key belonged to that computer already or to no
device, with the id free as well. -/
theorem grant_bound_iff {r : Request} {rep : Reply} {id : String} {req : DecisionReq}
    (hroute : r.route = .pairingDecision id (.ok req)) (happrove : req.approve = true)
    (hserved : Served S (fun _ => True) i r w rep w') (h200 : rep.status = 200) :
    ∃ me, caller S w r = some me ∧
      ((∃ g record, GrantBound S w w' me id req rep g record) ↔ GrantBindable S w me id) := by
  have hok : ∃ o : Oracle, (fun _ => True) o := ⟨{}, trivial⟩
  have hauthed : routes S r =
      .authed fun me _ => handlePairingDecision S r.requestId me id (.ok req) := by
    unfold routes
    rw [hroute]
  obtain ⟨me, user, w₁, hcaller, hauth, hdone⟩ :=
    served_open hok hauthed (fun _ _ => throwing_decision) hserved h200
  refine ⟨me, hcaller, ?_⟩
  unfold handlePairingDecision at hdone
  obtain ⟨_, w₂, hmark, hdone⟩ := hruns_ok hdone
  obtain ⟨_, w₃, hrole, hdone⟩ := hruns_ok hdone
  obtain ⟨req', w₄, hdecode, hdone⟩ := hruns_ok hdone
  obtain ⟨⟨s, pub, subject⟩, w₅, hcheck, hdone⟩ := hruns_ok hdone
  obtain ⟨hw₄, hreq⟩ := decode_ok hdecode
  have hsame : req' = req := (Except.ok.inj hreq).symm
  rw [hsame] at hcheck hdone
  change HRuns S _ i (if _ then _ else _) w₅ _ w' at hdone
  rw [if_pos happrove] at hdone
  have hbefore : Undecided w w₅ :=
    (part_undecided id (honly_authenticate _) hauth).trans
      ((part_undecided id (honly_idempotent trivial) hmark).trans
        ((Undecided.of_tables (by rw [hw₄, (replyIf_ok hrole).1])).trans
          (part_undecided id (honly_decidable (by rfl)) hcheck)))
  obtain ⟨_, _, huser, hsubject⟩ := decidable_hruns hcheck
  have hiff := approve_binds_iff hok hdone huser (decidable_joined hcheck) hsubject
  rw [undecided_bindable hbefore, ← hiff]
  exact exists_congr fun g => exists_congr fun record => undecided_bound hbefore

/-! ### A computer that is paired -/

namespace Pairing

/-- The Owner approves it. -/
def approval : DecisionReq where
  approve := true
  subjectPubKeyB64 := Sample.base64 Sample.computerKey
  signatureB64 := Sample.base64 Sample.approvalSig
  authorizationId := "auth-1"
  nonceB64 := Sample.base64 (List.replicate 16 7)
  decidedAtMillis := 1

def approveReq : Request where
  authorization := Sample.bearer 3
  requestId := "d1"
  route := .pairingDecision Sample.session (.ok approval)

/-- A session is created and joined. -/
def pairing : List (UInt8 × Request) := [(10, Polling.createReq), (11, Polling.joinReq)]

/-- The Owner logs in and registers the computer under an id of its own. -/
def registered : List (UInt8 × Request) :=
  Sample.ownerLogin ++ [(4, Sample.registerReq 3 "r4" "PC-1" Sample.computerKey "computer")]

/-- The Owner is logged in, and a computer that is new to it has joined. -/
def fresh : Sample.Conf where
  world := {
    pg := {
      users := [Sample.owner.userId]
      devices := [Sample.owner]
      sessions := [{
        id := Sample.session, userId := Sample.owner.userId, createdBy := "PH-1"
        status := .pending, expiresAt := 600 * Time.second, qrNonce := "nonce"
        join := some ⟨Sample.computerKey, Sample.computerFp, "Desk", "j1"⟩ }] }
    rd := {
      tokens := TtlMap.empty.set (.access, Sample.drawn 3) ("PH-1", Sample.owner.userId) none } }
  pool := []

/-- The Owner has registered the computer before. -/
def known : Sample.Conf := Sample.asks boot (registered ++ pairing)

def approved : Reply := ⟨200, .decided Sample.session .approved (some "RD-WIN-1325B850")⟩

end Pairing

open Pairing

/-- What the pairing of a new computer starts from, and its reply. -/
private theorem fresh_facts :
    replied (Sample.ask fresh 12 approveReq) fresh.pool.length = some approved ∧
      caller Sample.server fresh.world approveReq = some Sample.owner ∧
      fresh.world.pg.joined Sample.session = some (Sample.owner.userId,
        some ⟨Sample.computerKey, Sample.computerFp, "Desk", "j1"⟩) ∧
      fresh.world.pg.isRevoked "RD-WIN-1325B850" = false ∧
      fresh.world.pg.users = [Sample.owner.userId] ∧
      fresh.world.pg.device "RD-WIN-1325B850" = none ∧
      fresh.world.pg.deviceByKey Sample.owner.userId Sample.computerKey = none := by
  decide +kernel

/-- The grant for a new computer is bound. -/
theorem grant_bound_iff_fresh :
    ∃ g record, GrantBound Sample.server fresh.world (Sample.ask fresh 12 approveReq).world
      Sample.owner Sample.session approval approved g record := by
  obtain ⟨hrep, hcaller, hjoined, hactive, husers, hid, hkey⟩ := fresh_facts
  obtain ⟨me, hme, hiff⟩ := grant_bound_iff (r := approveReq) rfl rfl
    (Sample.ask_served hrep).any rfl
  have hsame : me = Sample.owner := Option.some.inj (hme.symm.trans hcaller)
  rw [hsame] at hiff
  have hfits : Fits fresh.world.pg.toTables "RD-WIN-1325B850" Sample.owner.userId
      Sample.computerKey :=
    ⟨by decide, by rw [husers]; exact List.mem_singleton_self _, hid, hkey⟩
  exact hiff.mpr ⟨_, _, "RD-WIN-1325B850", hjoined, by decide,
    .inr ⟨hactive, hfits, rfl⟩⟩

/-- What the pairing of a known computer starts from and ends with. -/
private theorem known_facts :
    Sample.answered boot (registered ++ pairing) = true ∧
      replied (Sample.ask known 12 approveReq) known.pool.length = some approved ∧
      caller Sample.server known.world approveReq = some Sample.owner ∧
      known.world.pg.grants = [] ∧
      (Sample.ask known 12 approveReq).world.pg.grants.map TrustGrant.subjectDeviceId =
        ["PC-1"] := by
  decide +kernel

/-- **A grant for another id.**  The joined key is registered already, under an
id of the Owner's choosing: the Owner signs for `RD-WIN-1325B850`, which is the
id in the reply, the grant is for `PC-1`, and `RD-WIN-1325B850` is no device. -/
theorem grant_for_another_id :
    ¬∀ (turns : List Turn) (w w' : World) (i : Nat) (r : Request) (rep : Reply) (id : String)
      (req : DecisionReq) (me : Device),
      Serving Sample.server {} turns w → r.route = .pairingDecision id (.ok req) →
      req.approve = true → caller Sample.server w r = some me →
      Served Sample.server (fun _ => True) i r w rep w' → rep.status = 200 →
      ∃ g record, GrantBound Sample.server w w' me id req rep g record := by
  intro hall
  obtain ⟨hanswered, hrep, hcaller, hnone, hsubjects⟩ := known_facts
  obtain ⟨turns, h, -⟩ : ∃ turns, Serving Sample.server {} turns known.world ∧ _ :=
    serving_asks (registered ++ pairing) (c := boot) .start hanswered
  obtain ⟨g, record, hbinds⟩ := hall turns known.world _ _ approveReq approved Sample.session
    approval Sample.owner h rfl rfl hcaller (Sample.ask_served hrep).any rfl
  rw [hbinds.committed, hnone] at hsubjects
  have hgranted : g.subjectDeviceId = "PC-1" := (List.cons.inj hsubjects).1
  have hreturned : record.subjectDeviceId = "RD-WIN-1325B850" := by
    have hbody := (Reply.mk.inj hbinds.returned).2
    exact (Option.some.inj (Body.decided.inj hbody).2.2).symm
  rw [hbinds.subject, hreturned] at hgranted
  exact absurd hgranted (by decide)

end Api

end Calcar
