import Calcar.Verified.Stores

/-!
# Who registers devices

A history is a sequence of requests, each served alone, with any faults, and
with any time between them.  A device row is there because a bootstrap or an
active Owner put it there, except for one endpoint: `handleDevicesRegister`
takes any authenticated device, whatever its role, and writes the row it asks
for.  `Oversteps` says on the state before a request that this is about to
happen, and `devices_come_from_the_owner` that nothing else can go wrong.

## Main results

* `register_creates` — when `handleDevicesRegister` writes a row, its checks
  have passed.
* `devices_come_from_the_owner` — histories without an overstepping request
  keep device creation to bootstraps and active Owners.
-/

namespace Calcar.Api

open Lib Pg Trust

/-! ## Histories -/

/-- One request of a history. -/
structure Turn where
  before : World
  request : Request
  reply : Reply
  after : World

/-- Requests served one after the other. -/
inductive Serving (S : Server) (w₀ : World) : List Turn → World → Prop where
  | start : Serving S w₀ [] w₀
  | turn {turns : List Turn} {w w' : World} {i : Nat} {r : Request} {rep : Reply}
      (h : Serving S w₀ turns w) (hs : Served S (fun _ => True) i r w rep w') :
      Serving S w₀ (turns ++ [⟨w, r, rep, w'⟩]) w'
  | env {turns : List Turn} {w w' : World} {e : Env} (h : Serving S w₀ turns w)
      (he : e.step w = some w') : Serving S w₀ turns w'

/-- The device a request is authenticated as. -/
def caller (S : Server) (w : World) (r : Request) : Option Device :=
  match routes S r with
  | .plain _ => none
  | .authed _ =>
      match w.rd.tokens.get w.rd.now (.access, Ws.bearerToken r.authorization) with
      | some (device, _) => w.pg.device device
      | none => none

/-- The request wrote a row under this id. -/
def Turn.Created (t : Turn) (id : String) : Prop :=
  t.before.pg.device id = none ∧ (t.after.pg.device id).isSome = true

/-- A bootstrap, or a request of an Owner that is not revoked. -/
def Turn.Authorised (S : Server) (t : Turn) : Prop :=
  (∃ body, t.request.route = .bootstrap body) ∨
    ∃ me, caller S t.before t.request = some me ∧ me.role = .ownerPhone ∧ me.revoked = false

/-! ## Requests that overstep -/

/-- Everything `handleDevicesRegister` checks before it writes a new row. -/
structure Registrable (S : Server) (w : World) (rid : String) (me : Device)
    (req : RegisterReq) (asked : Role) (name : String) (pub : Bytes) (fp : String) :
    Prop where
  requestId : Text.trimSpace rid ≠ "" ∧
    w.rd.replay.get w.rd.now (Text.trimSpace rid) = none
  deviceId : ¬(Text.trimSpace req.deviceId = "" ∨ maxIDLen < len req.deviceId)
  unknown : w.pg.device req.deviceId = none
  displayName : checkDisplayName req.displayName = some name
  role : requestedRole req.role = some asked
  slot : asked = .ownerPhone → ((w.pg.devices.filter fun d => d.userId = me.userId).any
    fun d => d.role = .ownerPhone ∧ d.revoked = false) = false
  key : decodePubKey req.pubKeyB64 = some pub
  fingerprint : fingerprintEd25519Pub S.crypto pub = .ok fp
  matching : ¬(req.fingerprint ≠ "" ∧ req.fingerprint ≠ fp)
  user : me.userId ∈ w.pg.users
  keyFree : w.pg.deviceByKey me.userId pub = none

/-- A registration by a device that is no Owner, about to write a row. -/
def Oversteps (S : Server) (w : World) (r : Request) : Prop :=
  ∃ me req role name pub fp, caller S w r = some me ∧ me.role ≠ .ownerPhone ∧
    me.revoked = false ∧ r.route = .devicesRegister (.ok req) ∧
    Registrable S w r.requestId me req role name pub fp

/-! ## Handlers, run -/

section Runs

variable {S : Server} {ok : Oracle → Prop} {i : Nat} {w w' : World}

theorem idempotent_hruns {hdr : String}
    (h : HRuns S ok i (idempotent hdr) w (.ok ()) w') :
    w'.pg = w.pg ∧ Text.trimSpace hdr ≠ "" ∧
      w.rd.replay.get w.rd.now (Text.trimSpace hdr) = none := by
  unfold idempotent at h
  rcases hruns_bind.mp h with ⟨_, w₁, hblank, hmark⟩ | ⟨e, _, he⟩
  · obtain ⟨rfl, _⟩ := hruns_replyIf.mp hblank
    unfold markRequest at hmark
    rcases hruns_store.mp hmark with ⟨a, _, hrun⟩ | ⟨e, he, _⟩
    · obtain ⟨hpg, hfree⟩ := mark_runs hrun
      exact ⟨hpg, hfree rfl⟩
    · cases he
  · cases he

theorem refuseRevoked_kept {id : String} {bad : Reply} {r : Except Reply Unit}
    (h : HRuns S ok i (refuseRevoked id bad) w r w') : Kept w w' := by
  unfold refuseRevoked at h
  rcases hruns_bind.mp h with ⟨b, w₁, hb, hk⟩ | ⟨e, hb, _⟩
  · obtain ⟨b', _, hrun⟩ := hruns_attempt.mp hb
    have hkept : Kept w w₁ := (isRevoked_runs hrun).1
    have hw : w' = w₁ := by
      rcases b with e | _ | _
      · exact (hruns_pure.mp hk).2
      · exact (hruns_pure.mp hk).2
      · exact (hruns_throw.mp hk).2
    rw [hw]
    exact hkept
  · obtain ⟨b', he, _⟩ := hruns_attempt.mp hb
    cases he

/-- `authed` lets a request through as an unrevoked device of its token. -/
theorem authenticate_hruns {hdr : String} {dev : Device} {user : String}
    (h : HRuns S ok i (authenticate hdr) w (.ok (dev, user)) w') :
    Kept w w' ∧ dev.revoked = false ∧ ∃ id,
      w.rd.tokens.get w.rd.now (.access, Ws.bearerToken hdr) = some (id, user) ∧
        w.pg.device id = some dev := by
  unfold authenticate at h
  rcases hruns_bind.mp h with ⟨_, w₁, hblank, h₁⟩ | ⟨e, _, he⟩
  · obtain ⟨hw₁, _⟩ := hruns_replyIf.mp hblank
    rw [hw₁] at h₁
    rcases hruns_bind.mp h₁ with ⟨⟨id, user'⟩, w₂, htok, h₂⟩ | ⟨e, _, he⟩
    · rcases hruns_store.mp htok with ⟨a, ha, hrun⟩ | ⟨e, he, _⟩
      · obtain rfl := Except.ok.inj ha
        obtain ⟨hkept₂, hget⟩ := resolveAccessToken_runs hrun
        rcases hruns_bind.mp h₂ with ⟨dev', w₃, hdev, h₃⟩ | ⟨e, _, he⟩
        · rcases hruns_store.mp hdev with ⟨a, ha, hrun'⟩ | ⟨e, he, _⟩
          · obtain rfl := Except.ok.inj ha
            obtain ⟨hkept₃, hrow, _⟩ := getDevice_runs hrun'
            rcases hruns_bind.mp h₃ with ⟨_, w₄, hflag, h₄⟩ | ⟨e, _, he⟩
            · obtain ⟨hw₄, hflag'⟩ := hruns_replyIf.mp hflag
              rw [hw₄] at h₄
              rcases hruns_bind.mp h₄ with ⟨_, w₅, hrev, h₅⟩ | ⟨e, _, he⟩
              · obtain ⟨hout, hw₅⟩ := hruns_pure.mp h₅
                cases hout
                have hkept₅ : Kept w₃ w₅ := refuseRevoked_kept hrev
                have hunrevoked : dev.revoked = false := by
                  rcases hflag' with ⟨_, he⟩ | ⟨hn, _⟩
                  · cases he
                  · simpa using hn
                have hrow' := hrow dev rfl
                rw [hkept₂.device] at hrow'
                rw [hw₅]
                exact ⟨(hkept₂.trans hkept₃).trans hkept₅, hunrevoked, id, hget _ rfl, hrow'⟩
              · cases he
            · cases he
          · cases he
        · cases he
      · cases he
    · cases he
  · cases he

/-- `RegisterDevice` writes the row of its argument, for a known user and a
free key. -/
theorem registerDevice_creates {d : Device} {r : Except Err Unit} {id : String}
    (h : Prog.Runs Core.exec ok i (Postgres.registerDevice d) w r w') (hu : Unstaged w.pg)
    (hno : w.pg.device id = none) (hyes : (w'.pg.device id).isSome = true) :
    d.id = id ∧ d.userId ∈ w.pg.users ∧ w.pg.deviceByKey d.userId d.pubKey = none := by
  unfold Postgres.registerDevice at h
  split at h
  · obtain ⟨_, rfl⟩ := Prog.runs_ret.mp h
    rw [hno] at hyes
    cases hyes
  · obtain ⟨r', hpg, _⟩ := runs_query.mp h
    obtain ⟨o, p', _, hx, rfl⟩ := runs_pg.mp hpg
    obtain ⟨d', hc, hid, huser, hkey⟩ := registered_by hu hx hno hyes
    obtain rfl := PgCmd.insertDevice.inj hc
    exact ⟨hid, huser, hkey⟩

/-- The calls of a route that registers nothing. -/
private theorem calls_no_register (d : Device) :
    ¬Route.healthz.Calls (.store (.registerDevice d)) := by
  rintro (h | h)
  · exact h
  · exact h

/-- A part of a handler that registers nothing creates nothing. -/
private theorem part_creates_nothing {β : Type} {h : H β} {r : Except Reply β} {id : String}
    (honly : HOnly (Route.healthz.CallsAs fun _ => True) h) (hr : HRuns S ok i h w r w') (hu : Unstaged w.pg)
    (hno : w.pg.device id = none) : Unstaged w'.pg ∧ w'.pg.device id = none := by
  have hf := hfresh (honly.mono fun _ hc => hc.calls) calls_no_register hr hu
  exact ⟨hf.unstaged, hf.device id hno⟩

theorem checkOwnerSlot_hruns {role : Role} {user : String}
    (h : HRuns S ok i (checkOwnerSlot role user) w (.ok ()) w') :
    Kept w w' ∧ (role = .ownerPhone → ((w.pg.devices.filter fun d => d.userId = user).any
      fun d => d.role = .ownerPhone ∧ d.revoked = false) = false) := by
  unfold checkOwnerSlot at h
  by_cases hrole : role = .ownerPhone
  · rw [if_pos hrole] at h
    rcases hruns_bind.mp h with ⟨has, w₁, hhas, hk⟩ | ⟨e, _, he⟩
    · unfold userHasOwner at hhas
      rcases hruns_bind.mp hhas with ⟨ds, w₂, hds, hk₂⟩ | ⟨e, _, he⟩
      · obtain ⟨ds', he, hrun⟩ := hruns_attempt.mp hds
        obtain rfl := Except.ok.inj he
        obtain ⟨hkept, hlist⟩ := listUserDevices_runs hrun
        cases ds with
        | error e =>
            obtain ⟨hout, rfl⟩ := hruns_pure.mp hk₂
            obtain rfl := Except.ok.inj hout
            obtain ⟨he, _⟩ := hruns_throw.mp hk
            cases he
        | ok ds =>
            obtain ⟨hout, rfl⟩ := hruns_pure.mp hk₂
            obtain rfl := Except.ok.inj hout
            obtain ⟨rfl, hfree⟩ := hruns_replyIf.mp hk
            refine ⟨hkept, fun _ => ?_⟩
            rw [← hlist ds rfl]
            rcases hfree with ⟨_, he⟩ | ⟨hn, _⟩
            · cases he
            · simpa using hn
      · cases he
    · cases he
  · rw [if_neg hrole] at h
    obtain ⟨_, rfl⟩ := hruns_pure.mp h
    exact ⟨.refl _, fun he => absurd he hrole⟩

/-- When the second half of a registration writes a row, its checks have
passed. -/
private theorem addDevice_creates {me : Device} {req : RegisterReq} {name : String}
    {r : Except Reply Reply} {id : String}
    (h : HRuns S ok i (addDevice S me req name) w r w') (hu : Unstaged w.pg)
    (hno : w.pg.device id = none) (hyes : (w'.pg.device id).isSome = true) :
    req.deviceId = id ∧ ∃ role pub fp,
      requestedRole req.role = some role ∧
      (role = .ownerPhone → ((w.pg.devices.filter fun d => d.userId = me.userId).any
        fun d => d.role = .ownerPhone ∧ d.revoked = false) = false) ∧
      decodePubKey req.pubKeyB64 = some pub ∧
      fingerprintEd25519Pub S.crypto pub = .ok fp ∧
      ¬(req.fingerprint ≠ "" ∧ req.fingerprint ≠ fp) ∧
      me.userId ∈ w.pg.users ∧ w.pg.deviceByKey me.userId pub = none := by
  have hgone : w'.pg.device id ≠ none := by
    intro hn
    rw [hn] at hyes
    cases hyes
  unfold addDevice at h
  rcases hruns_bind.mp h with ⟨role, w₁, hrole, h₁⟩ | ⟨e, hrole, _⟩
  · obtain ⟨hw₁, hrole⟩ := hruns_require.mp hrole
    rw [hw₁] at h₁
    rcases hruns_bind.mp h₁ with ⟨_, w₂, hslot, h₂⟩ | ⟨e, hslot, _⟩
    · obtain ⟨hkept, hfree⟩ := checkOwnerSlot_hruns hslot
      have hno₂ : w₂.pg.device id = none := by
        rw [hkept.device]
        exact hno
      have hu₂ : Unstaged w₂.pg := unstaged_runs hslot hu
      rcases hruns_bind.mp h₂ with ⟨pub, w₃, hpub, h₃⟩ | ⟨e, hpub, _⟩
      · obtain ⟨hw₃, hpub⟩ := hruns_require.mp hpub
        rw [hw₃] at h₃
        rcases hruns_bind.mp h₃ with ⟨fp, w₄, hfp, h₄⟩ | ⟨e, hfp, _⟩
        · have hfp' : w₄ = w₂ ∧ fingerprintEd25519Pub S.crypto pub = .ok fp := by
            unfold fingerprint at hfp
            split at hfp
            · rename_i fp' he
              obtain ⟨hout, hw⟩ := hruns_pure.mp hfp
              obtain rfl := Except.ok.inj hout
              exact ⟨hw, he⟩
            · obtain ⟨hout, _⟩ := hruns_throw.mp hfp
              cases hout
          rw [hfp'.1] at h₄
          rcases hruns_bind.mp h₄ with ⟨_, w₅, hmatch, h₅⟩ | ⟨e, hmatch, _⟩
          · obtain ⟨hw₅, hmatch⟩ := hruns_replyIf.mp hmatch
            rw [hw₅] at h₅
            have hstored : ∃ res w₆, Prog.Runs Core.exec ok i
                (Postgres.registerDevice (newDevice me req role name fp pub)) w₂ res w₆ ∧
                w₆ = w' := by
              rcases hruns_bind.mp h₅ with ⟨_, w₆, hst, h₆⟩ | ⟨e, hst, _⟩
              · rcases hruns_store.mp hst with ⟨a, _, hrun⟩ | ⟨e, he, _⟩
                · exact ⟨_, w₆, hrun, (hruns_pure.mp h₆).2.symm⟩
                · cases he
              · rcases hruns_store.mp hst with ⟨a, he, _⟩ | ⟨e, _, hrun⟩
                · cases he
                · exact ⟨_, w', hrun, rfl⟩
            obtain ⟨res, w₆, hrun, rfl⟩ := hstored
            obtain ⟨hid, huser, hkey⟩ := registerDevice_creates hrun hu₂ hno₂ hyes
            have huser' : me.userId ∈ w.pg.users := by
              have ht : w₂.pg.users = w.pg.users := congrArg Tables.users hkept.tables
              rw [← ht]
              exact huser
            have hkey' : w.pg.deviceByKey me.userId pub = none := by
              have ht : Tables.deviceByKey w₂.pg.toTables me.userId pub =
                  Tables.deviceByKey w.pg.toTables me.userId pub := by rw [hkept.tables]
              rw [← ht]
              exact hkey
            refine ⟨hid, role, pub, fp, ?_, hfree, ?_, hfp'.2, ?_, huser', hkey'⟩
            · rcases hrole with ⟨a, ha, he⟩ | ⟨_, he⟩
              · obtain rfl := Except.ok.inj he
                exact ha
              · cases he
            · rcases hpub with ⟨a, ha, he⟩ | ⟨_, he⟩
              · obtain rfl := Except.ok.inj he
                exact ha
              · cases he
            · rcases hmatch with ⟨_, he⟩ | ⟨hn, _⟩
              · cases he
              · exact hn
          · obtain ⟨hw, _⟩ := hruns_replyIf.mp hmatch
            rw [hw] at hgone
            exact absurd hno₂ hgone
        · exact absurd (part_creates_nothing (honly_fingerprint S pub) hfp hu₂ hno₂).2 hgone
      · obtain ⟨hw, _⟩ := hruns_require.mp hpub
        rw [hw] at hgone
        exact absurd hno₂ hgone
    · have honly : HOnly (Route.healthz.CallsAs fun _ => True) (checkOwnerSlot role me.userId) := by
        unfold checkOwnerSlot
        split
        · refine HOnly.bind (honly_userHasOwner _) ?_
          rintro (e | has)
          · exact honly_throw _
          · exact honly_replyIf _ _
        · exact honly_pure ()
      exact absurd (part_creates_nothing honly hslot hu hno).2 hgone
  · obtain ⟨hw, _⟩ := hruns_require.mp hrole
    rw [hw] at hgone
    exact absurd hno hgone

/-- A rename registers at most the id that is registered already. -/
private theorem renameDevice_creates_nothing {me existing : Device} {req : RegisterReq}
    {name : String} {r : Except Reply Reply} {id : String}
    (h : HRuns S ok i (renameDevice me existing req name) w r w') (hu : Unstaged w.pg)
    (hno : w.pg.device id = none) (hex : w.pg.device existing.id ≠ none) :
    w'.pg.device id = none := by
  unfold renameDevice at h
  rcases hruns_bind.mp h with ⟨_, w₁, huser, h₁⟩ | ⟨e, huser, _⟩
  · obtain ⟨hw₁, _⟩ := hruns_replyIf.mp huser
    rw [hw₁] at h₁
    rcases hruns_bind.mp h₁ with ⟨pub, w₂, hpub, h₂⟩ | ⟨e, hpub, _⟩
    · obtain ⟨hw₂, _⟩ := hruns_require.mp hpub
      rw [hw₂] at h₂
      rcases hruns_bind.mp h₂ with ⟨_, w₃, hkey, h₃⟩ | ⟨e, hkey, _⟩
      · obtain ⟨hw₃, _⟩ := hruns_replyIf.mp hkey
        rw [hw₃] at h₃
        rcases hruns_bind.mp h₃ with ⟨_, w₄, hfp, h₄⟩ | ⟨e, hfp, _⟩
        · obtain ⟨hw₄, _⟩ := hruns_replyIf.mp hfp
          rw [hw₄] at h₄
          rcases hruns_bind.mp h₄ with ⟨stored, w₅, hst, h₅⟩ | ⟨e, hst, _⟩
          · obtain ⟨stored', _, hrun⟩ := hruns_attempt.mp hst
            have hu₅ : Unstaged w₅.pg := unstaged_runs hrun hu
            have hno₅ : w₅.pg.device id = none := by
              cases hsome : w₅.pg.device id with
              | none => rfl
              | some d =>
                  have hyes : (w₅.pg.device id).isSome = true := by
                    rw [hsome]
                    rfl
                  obtain ⟨hid, _⟩ := registerDevice_creates hrun hu hno hyes
                  have hid' : existing.id = id := hid
                  rw [hid'] at hex
                  exact absurd hno hex
            -- what follows reads the row back and answers with it
            refine (part_creates_nothing ?_ h₅ hu₅ hno₅).2
            apply HOnly.bind (honly_replyIf _ _)
            intro _
            apply HOnly.bind (honly_attempt (by exact .inl trivial))
            intro cur
            cases cur with
            | error e => exact honly_pure _
            | ok d => exact honly_pure _
          · obtain ⟨_, he, _⟩ := hruns_attempt.mp hst
            cases he
        · obtain ⟨hw, _⟩ := hruns_replyIf.mp hfp
          rw [hw]
          exact hno
      · obtain ⟨hw, _⟩ := hruns_replyIf.mp hkey
        rw [hw]
        exact hno
    · obtain ⟨hw, _⟩ := hruns_require.mp hpub
      rw [hw]
      exact hno
  · obtain ⟨hw, _⟩ := hruns_replyIf.mp huser
    rw [hw]
    exact hno

/-- When `handleDevicesRegister` writes a row, its checks have passed. -/
theorem register_creates {rid : String} {me : Device} {body : Json RegisterReq}
    {r : Except Reply Reply} {id : String}
    (h : HRuns S ok i (handleDevicesRegister S rid me body) w r w') (hu : Unstaged w.pg)
    (hno : w.pg.device id = none) (hyes : (w'.pg.device id).isSome = true) :
    ∃ req role name pub fp, body = .ok req ∧ req.deviceId = id ∧
      Registrable S w rid me req role name pub fp := by
  have hgone : w'.pg.device id ≠ none := by
    intro hn
    rw [hn] at hyes
    cases hyes
  unfold handleDevicesRegister at h
  rcases hruns_bind.mp h with ⟨_, w₁, hmark, h₁⟩ | ⟨e, hmark, _⟩
  · obtain ⟨hpg, hblank, hfree⟩ := idempotent_hruns hmark
    rcases hruns_bind.mp h₁ with ⟨req, w₂, hreq, h₂⟩ | ⟨e, hreq, _⟩
    · obtain ⟨hw₂, hbody⟩ := hruns_decode.mp hreq
      rw [hw₂] at h₂
      rcases hruns_bind.mp h₂ with ⟨_, w₃, hid, h₃⟩ | ⟨e, hid, _⟩
      · obtain ⟨hw₃, hid⟩ := hruns_replyIf.mp hid
        rw [hw₃] at h₃
        rcases hruns_bind.mp h₃ with ⟨name, w₄, hname, h₄⟩ | ⟨e, hname, _⟩
        · obtain ⟨hw₄, hname⟩ := hruns_require.mp hname
          rw [hw₄] at h₄
          rcases hruns_bind.mp h₄ with ⟨found, w₅, hfound, h₅⟩ | ⟨e, hfound, _⟩
          · obtain ⟨found', he, hrun⟩ := hruns_attempt.mp hfound
            obtain rfl := Except.ok.inj he
            obtain ⟨hkept, hrow, hnone⟩ := getDevice_runs hrun
            have hu₁ : Unstaged w₁.pg := by rw [hpg]; exact hu
            have hno₁ : w₁.pg.device id = none := by rw [hpg]; exact hno
            have hu₅ : Unstaged w₅.pg := unstaged_runs hrun hu₁
            have hno₅ : w₅.pg.device id = none := by rw [hkept.device]; exact hno₁
            have htab : w₅.pg.toTables = w.pg.toTables := by rw [hkept.tables, hpg]
            cases found with
            | ok existing =>
                -- a known device is only renamed: its own id is not new
                have hrow₁ : w₁.pg.device req.deviceId = some existing := hrow existing rfl
                have hex : w₅.pg.device existing.id ≠ none := by
                  rw [hkept.device, Tables.device_id hrow₁, hrow₁]
                  intro hnone
                  cases hnone
                exact absurd (renameDevice_creates_nothing h₅ hu₅ hno₅ hex) hgone
            | error e =>
                cases e with
                | notFound =>
                    obtain ⟨hid', role, pub, fp, hrole, hslot, hkey, hfp, hmatch, huser, hkf⟩ :=
                      addDevice_creates h₅ hu₅ hno₅ hyes
                    have hunknown : w.pg.device req.deviceId = none := by
                      rw [← hpg]
                      exact hnone rfl
                    have hname' : checkDisplayName req.displayName = some name := by
                      rcases hname with ⟨a, ha, he⟩ | ⟨_, he⟩
                      · obtain rfl := Except.ok.inj he
                        exact ha
                      · cases he
                    have hbody' : body = .ok req := by
                      rcases hbody with ⟨a, ha, he⟩ | ⟨_, _, he⟩
                      · obtain rfl := Except.ok.inj he
                        exact ha
                      · cases he
                    have hid'' : ¬(Text.trimSpace req.deviceId = "" ∨
                        maxIDLen < len req.deviceId) := by
                      rcases hid with ⟨_, he⟩ | ⟨hn, _⟩
                      · cases he
                      · exact hn
                    have hdevs : w₅.pg.devices = w.pg.devices := congrArg Tables.devices htab
                    have husers : w₅.pg.users = w.pg.users := congrArg Tables.users htab
                    have hkey₅ : Tables.deviceByKey w₅.pg.toTables me.userId pub =
                        Tables.deviceByKey w.pg.toTables me.userId pub := by rw [htab]
                    refine ⟨req, role, name, pub, fp, hbody', hid', ⟨hblank, hfree⟩, hid'',
                      hunknown, hname', hrole, ?_, hkey, hfp, hmatch, ?_, ?_⟩
                    · rw [← hdevs]
                      exact hslot
                    · rw [← husers]
                      exact huser
                    · exact hkey₅ ▸ hkf
                | _ =>
                    obtain ⟨_, hw⟩ := hruns_throw.mp h₅
                    rw [hw] at hgone
                    exact absurd hno₅ hgone
          · obtain ⟨_, he, _⟩ := hruns_attempt.mp hfound
            cases he
        · obtain ⟨hw, _⟩ := hruns_require.mp hname
          rw [hw, hpg] at hgone
          exact absurd hno hgone
      · obtain ⟨hw, _⟩ := hruns_replyIf.mp hid
        rw [hw, hpg] at hgone
        exact absurd hno hgone
    · obtain ⟨hw, _⟩ := hruns_decode.mp hreq
      rw [hw, hpg] at hgone
      exact absurd hno hgone
  · exact absurd (part_creates_nothing (honly_idempotent trivial) hmark hu hno).2 hgone

/-- A decision by a device that is no Owner writes no row. -/
private theorem decision_creates_nothing {rid : String} {me : Device} {sid : String}
    {body : Json DecisionReq} {r : Except Reply Reply} {id : String}
    (h : HRuns S ok i (handlePairingDecision S rid me sid body) w r w')
    (hrole : me.role ≠ .ownerPhone) (hu : Unstaged w.pg) (hno : w.pg.device id = none) :
    w'.pg.device id = none := by
  unfold handlePairingDecision at h
  rcases hruns_bind.mp h with ⟨_, w₁, hmark, h₁⟩ | ⟨e, hmark, _⟩
  · have hno₁ := (part_creates_nothing (honly_idempotent trivial) hmark hu hno).2
    rcases hruns_bind.mp h₁ with ⟨_, w₂, howner, _⟩ | ⟨e, howner, _⟩
    · obtain ⟨_, ⟨_, he⟩ | ⟨hn, _⟩⟩ := hruns_replyIf.mp howner
      · cases he
      · exact absurd hrole hn
    · obtain ⟨hw, _⟩ := hruns_replyIf.mp howner
      rw [hw]
      exact hno₁
  · exact (part_creates_nothing (honly_idempotent trivial) hmark hu hno).2

/-- A route that does not register creates nothing. -/
private theorem served_creates_nothing {r : Request} {rep : Reply} {id : String}
    (hok : ∃ o, ok o) (hP : ∀ d, ¬r.route.Calls (.store (.registerDevice d)))
    (h : Served S ok i r w rep w') (hu : Unstaged w.pg) (hno : w.pg.device id = none) :
    w'.pg.device id = none := by
  have hkeeps := routes_calls S r
  cases hr : routes S r with
  | plain part =>
      rw [hr] at hkeeps
      rcases (served_plain hr).mp h with hrun | hrun
      · exact (hfresh hkeeps hP hrun hu).device id hno
      · exact (hfresh hkeeps hP hrun hu).device id hno
  | authed next =>
      rw [hr] at hkeeps
      rcases (served_authed hok hr).mp h with hrun | ⟨dev, user, w₁, hrun, hbody⟩
      · exact (part_creates_nothing (honly_authenticate _) hrun hu hno).2
      · have h₁ := part_creates_nothing (honly_authenticate _) hrun hu hno
        rcases hbody with hb | hb
        · exact (hfresh (hkeeps dev user) hP hb h₁.1).device id h₁.2
        · exact (hfresh (hkeeps dev user) hP hb h₁.1).device id h₁.2

theorem caller_session {r : Request} {next : Device → String → H Reply} {device user : String}
    {dev : Device} (hr : routes S r = .authed next)
    (htok : w.rd.tokens.get w.rd.now (.access, Ws.bearerToken r.authorization) =
      some (device, user)) (hrow : w.pg.device device = some dev) :
    caller S w r = some dev := by
  unfold caller
  rw [hr]
  simp only [htok, hrow]

/-- An authenticated request that writes a row: who is behind it. -/
private theorem authed_creates {r : Request} {next : Device → String → H Reply} {rep : Reply}
    {id : String} (hok : ∃ o, ok o) (hr : routes S r = .authed next)
    (h : Served S ok i r w rep w') (hu : Unstaged w.pg) (hno : w.pg.device id = none)
    (hyes : (w'.pg.device id).isSome = true) :
    ∃ me user w₁ res, caller S w r = some me ∧ me.revoked = false ∧ Kept w w₁ ∧
      Unstaged w₁.pg ∧ HRuns S ok i (next me user) w₁ res w' := by
  rcases (served_authed hok hr).mp h with hrun | ⟨dev, user, w₁, hrun, hbody⟩
  · have hn := (part_creates_nothing (honly_authenticate _) hrun hu hno).2
    rw [hn] at hyes
    cases hyes
  · obtain ⟨hkept, hflag, device, htok, hrow⟩ := authenticate_hruns hrun
    have hcaller := caller_session hr htok hrow
    have hu₁ : Unstaged w₁.pg := unstaged_runs hrun hu
    rcases hbody with hb | hb
    · exact ⟨dev, user, w₁, _, hcaller, hflag, hkept, hu₁, hb⟩
    · exact ⟨dev, user, w₁, _, hcaller, hflag, hkept, hu₁, hb⟩

/-- The checks of a registration speak about what `authed` left alone. -/
private theorem Registrable.of_kept {w₁ : World} {rid : String} {me : Device}
    {req : RegisterReq} {asked : Role} {name fp : String} {pub : Bytes} (hk : Kept w w₁)
    (h : Registrable S w₁ rid me req asked name pub fp) :
    Registrable S w rid me req asked name pub fp := by
  have hkey : w.pg.deviceByKey me.userId pub = none := by
    show Tables.deviceByKey w.pg.toTables me.userId pub = none
    rw [← hk.tables]
    exact h.keyFree
  have hslot := h.slot
  have hdevs : w₁.pg.devices = w.pg.devices := congrArg Tables.devices hk.tables
  have husers : w₁.pg.users = w.pg.users := congrArg Tables.users hk.tables
  rw [hdevs] at hslot
  refine ⟨?_, h.deviceId, ?_, h.displayName, h.role, hslot, h.key, h.fingerprint,
    h.matching, ?_, hkey⟩
  · rw [← hk.rd]
    exact h.requestId
  · rw [← hk.device]
    exact h.unknown
  · rw [← husers]
    exact h.user

/-- Who a request that writes a row comes from: a bootstrap, an active Owner,
or a device that oversteps. -/
theorem served_creates {r : Request} {rep : Reply} {id : String} (hok : ∃ o, ok o)
    (h : Served S ok i r w rep w') (hu : Unstaged w.pg) (hno : w.pg.device id = none)
    (hyes : (w'.pg.device id).isSome = true) :
    (∃ body, r.route = .bootstrap body) ∨
      ∃ me, caller S w r = some me ∧ me.revoked = false ∧
        (me.role = .ownerPhone ∨ Oversteps S w r) := by
  have hgone : w'.pg.device id ≠ none := by
    intro hn
    rw [hn] at hyes
    cases hyes
  obtain ⟨hdr, rid, route⟩ := r
  cases route with
  | bootstrap body => exact .inl ⟨body, rfl⟩
  | devicesRegister body =>
      right
      obtain ⟨me, user, w₁, res, hcaller, hflag, hkept, hu₁, hrun⟩ :=
        authed_creates hok rfl h hu hno hyes
      refine ⟨me, hcaller, hflag, ?_⟩
      by_cases hrole : me.role = .ownerPhone
      · exact .inl hrole
      · right
        have hno₁ : w₁.pg.device id = none := by
          rw [hkept.device]
          exact hno
        obtain ⟨req, asked, name, pub, fp, rfl, _, hreg⟩ := register_creates hrun hu₁ hno₁ hyes
        exact ⟨me, req, asked, name, pub, fp, hcaller, hrole, hflag, rfl, hreg.of_kept hkept⟩
  | pairingDecision sid body =>
      right
      obtain ⟨me, user, w₁, res, hcaller, hflag, hkept, hu₁, hrun⟩ :=
        authed_creates hok rfl h hu hno hyes
      refine ⟨me, hcaller, hflag, ?_⟩
      by_cases hrole : me.role = .ownerPhone
      · exact .inl hrole
      · have hno₁ : w₁.pg.device id = none := by
          rw [hkept.device]
          exact hno
        exact absurd (decision_creates_nothing hrun hrole hu₁ hno₁) hgone
  | _ =>
      have hn := served_creates_nothing hok (by
        intro d hc
        rcases hc with hc | hc <;> exact hc) h hu hno
      exact absurd hn hgone

/-- No request stages a device row. -/
theorem served_unstaged {r : Request} {rep : Reply} (h : Served S ok i r w rep w')
    (hu : Unstaged w.pg) : Unstaged w'.pg := by
  have hrun : Prog.Runs Srv.exec ok i (serve S r) w rep w' := h
  have honly : (serve S r).Only (fun _ => True) := Prog.only_of_all (fun _ => trivial) _
  refine honly.runs (I := fun w => Unstaged w.pg) ?_ hrun hu
  intro c o w₁ w₂ res _ hx hi
  rcases Srv.exec_pg c hx with he | ⟨c', r', _, he⟩
  · show Unstaged w₂.pg
    rw [he]
    exact hi
  · exact Unstaged.exec hi he

end Runs

/-! ## Whole histories -/

/-- No history leaves a device row held back. -/
theorem Serving.unstaged {S : Server} {w₀ w : World} {turns : List Turn}
    (h : Serving S w₀ turns w) (h₀ : Unstaged w₀.pg) : Unstaged w.pg := by
  induction h with
  | start => exact h₀
  | turn _ hs ih => exact served_unstaged hs ih
  | env _ he ih =>
      obtain ⟨tm, hw⟩ := Env.step_pg he
      rw [hw]
      exact ih

/-- **Devices come from the Owner.**  Start with an empty store and serve any
requests, with any faults and any time between them, none of which oversteps.
Every device row was written by a bootstrap or by a request of an Owner that
was not revoked, and no request of a computer wrote one. -/
theorem devices_come_from_the_owner {S : Server} {turns : List Turn} {w : World}
    (h : Serving S {} turns w) (hcond : ∀ t ∈ turns, ¬Oversteps S t.before t.request) :
    (∀ id, (w.pg.device id).isSome = true → ∃ t ∈ turns, t.Created id ∧ t.Authorised S) ∧
      ∀ t ∈ turns, ∀ me, caller S t.before t.request = some me → me.role = .computer →
        ∀ id, ¬t.Created id := by
  have hempty : Unstaged ({} : World).pg := nofun
  induction h with
  | start =>
      constructor
      · intro id hyes
        have hno : ({} : World).pg.device id = none := rfl
        rw [hno] at hyes
        cases hyes
      · intro t ht
        cases ht
  | @turn turns w w' i r rep h hs ih =>
      have hu : Unstaged w.pg := h.unstaged hempty
      have hlast : ¬Oversteps S w r := hcond ⟨w, r, rep, w'⟩ (by simp)
      obtain ⟨hrows, hcomputers⟩ := ih fun t ht => hcond t (List.mem_append_left _ ht)
      have hnew : ∀ id, w.pg.device id = none → (w'.pg.device id).isSome = true →
          (∃ body, r.route = .bootstrap body) ∨ ∃ me, caller S w r = some me ∧
            me.role = .ownerPhone ∧ me.revoked = false := by
        intro id hno hyes
        rcases served_creates ⟨{}, trivial⟩ hs hu hno hyes with hb | ⟨me, hc, hf, ho | ho⟩
        · exact .inl hb
        · exact .inr ⟨me, hc, ho, hf⟩
        · exact absurd ho hlast
      constructor
      · intro id hyes
        cases hd : w.pg.device id with
        | some d =>
            obtain ⟨t, ht, hcreated⟩ := hrows id (by rw [hd]; rfl)
            exact ⟨t, List.mem_append_left _ ht, hcreated⟩
        | none =>
            exact ⟨⟨w, r, rep, w'⟩, by simp, ⟨hd, hyes⟩, hnew id hd hyes⟩
      · intro t ht me hc hrole id hcreated
        rcases List.mem_append.mp ht with ht | ht
        · exact hcomputers t ht me hc hrole id hcreated
        · rw [List.mem_singleton] at ht
          subst ht
          rcases hnew id hcreated.1 hcreated.2 with ⟨body, hroute⟩ | ⟨me', hc', hrole', _⟩
          · have hplain : caller S w r = none := by
              obtain ⟨hdr, rid, route⟩ := r
              obtain rfl : route = .bootstrap body := hroute
              rfl
            rw [hplain] at hc
            cases hc
          · have hme : me = me' := by
              rw [hc] at hc'
              exact Option.some.inj hc'
            rw [hme, hrole'] at hrole
            cases hrole
  | @env turns w w' e h he ih =>
      obtain ⟨hrows, hcomputers⟩ := ih hcond
      refine ⟨?_, hcomputers⟩
      intro id hyes
      obtain ⟨tm, hw⟩ := Env.step_pg he
      apply hrows id
      have hsame : w'.pg.device id = w.pg.device id := by
        rw [hw]
      rw [← hsame]
      exact hyes

/-! ### Histories on the sample server -/

/-- Requests that are answered are a history: its turns, in the order they were asked in. -/
theorem serving_asks {w₀ : World} (l : List (UInt8 × Request)) {turns : List Turn}
    {c : Sample.Conf} (h : Serving Sample.server w₀ turns c.world)
    (hans : Sample.answered c l = true) :
    ∃ turns', Serving Sample.server w₀ turns' (Sample.asks c l).world ∧
      ∀ t ∈ turns', t ∈ turns ∨ ∃ before n after, l = before ++ (n, t.request) :: after ∧
        t.before = (Sample.asks c before).world := by
  induction l generalizing c turns with
  | nil => exact ⟨turns, h, fun t ht => .inl ht⟩
  | cons x l ih =>
      obtain ⟨n, r⟩ := x
      simp only [Sample.answered, Bool.and_eq_true] at hans
      obtain ⟨hrep, hrest⟩ := hans
      obtain ⟨rep, hrep'⟩ := Option.isSome_iff_exists.mp hrep
      have hserved := (Sample.ask_served hrep').any
      obtain ⟨turns', h', hturns⟩ := ih (.turn h hserved) hrest
      refine ⟨turns', h', fun t ht => ?_⟩
      rcases hturns t ht with hold | ⟨before, k, after, hl, hbefore⟩
      · rcases List.mem_append.mp hold with hold | hlast
        · exact .inl hold
        · rw [List.mem_singleton.mp hlast]
          exact .inr ⟨[], n, l, rfl, rfl⟩
      · exact .inr ⟨(n, r) :: before, k, after, by rw [hl, List.cons_append], hbefore⟩

/-- The Owner registers its computer. -/
def ownerRegisters : Request := Sample.registerReq 3 "r4" "PC-1" Sample.computerKey "computer"

/-- The computer asks for a phone of its own. -/
def phoneReq : Request :=
  Sample.registerReq 6 "r7" "PH-9" Sample.otherKey "trusted_phone"

private theorem registrations_answered :
    (Sample.answered boot (Sample.ownerLogin ++ [(4, ownerRegisters)]) = true ∧
      (caller Sample.server Sample.ownerIn.world ownerRegisters).map Device.role =
        some .ownerPhone ∧
      ((Sample.asks boot (Sample.ownerLogin ++ [(4, ownerRegisters)])).world.pg.device
        "PC-1").isSome = true) ∧
    Sample.answered boot Sample.computerLogin = true ∧
    (replied (Sample.ask Sample.computerIn 7 phoneReq) 6).isSome = true ∧
    Sample.computerIn.pool.length = 6 ∧
    (caller Sample.server Sample.computerIn.world phoneReq).map Device.role = some .computer ∧
    Sample.computerIn.world.pg.device "PH-9" = none ∧
    ((Sample.ask Sample.computerIn 7 phoneReq).world.pg.device "PH-9").isSome = true := by
  decide +kernel

/-- The Owner logs in and registers a computer: the row comes from the Owner. -/
theorem devices_come_from_the_owner_sample :
    ∃ (turns : List Turn) (w : World), (w.pg.device "PC-1").isSome = true ∧
      (∀ id, (w.pg.device id).isSome = true →
        ∃ t ∈ turns, t.Created id ∧ t.Authorised Sample.server) ∧
      ∀ t ∈ turns, ∀ me, caller Sample.server t.before t.request = some me →
        me.role = .computer → ∀ id, ¬t.Created id := by
  obtain ⟨hans, hrole, hrow⟩ := registrations_answered.1
  obtain ⟨turns, h, hturns⟩ := serving_asks (Sample.ownerLogin ++ [(4, ownerRegisters)])
    (c := boot) .start hans
  refine ⟨turns, _, hrow, devices_come_from_the_owner h fun t ht => ?_⟩
  rintro ⟨me, req, asked, name, pub, fp, hme, hnot, _, hroute, _⟩
  rcases hturns t ht with hnone | ⟨before, n, after, hl, hbefore⟩
  · cases hnone
  · rcases List.eq_nil_or_concat after with rfl | ⟨after, last, rfl⟩
    · -- the registration, asked by the Owner
      obtain ⟨hstart, hlast⟩ := List.append_inj' hl rfl
      rw [← hstart] at hbefore
      rw [hbefore, ← (Prod.mk.inj (List.singleton_inj.mp hlast)).2] at hme
      change caller Sample.server Sample.ownerIn.world ownerRegisters = some me at hme
      rw [hme] at hrole
      exact hnot (Option.some.inj hrole)
    · -- the steps of the login, none of which registers a device
      rw [List.concat_eq_append, ← List.cons_append, ← List.append_assoc] at hl
      obtain ⟨hstart, -⟩ := List.append_inj' hl rfl
      have hmem : (n, t.request) ∈ Sample.ownerLogin := by
        rw [hstart]
        exact List.mem_append_right before List.mem_cons_self
      simp only [Sample.ownerLogin, List.mem_cons, List.not_mem_nil, or_false,
        Prod.mk.injEq] at hmem
      rcases hmem with ⟨-, hreq⟩ | ⟨-, hreq⟩ | ⟨-, hreq⟩
      · rw [hreq] at hroute
        cases hroute
      · rw [hreq] at hroute
        cases hroute
      · rw [hreq] at hroute
        cases hroute

/-! ### A computer that registers a phone -/

private theorem wrote_row {S : Server} {turns : List Turn} {w w' : World} {i : Nat}
    {r : Request} {rep : Reply} {me : Device} {id : String} (h : Serving S {} turns w)
    (hs : Served S (fun _ => True) i r w rep w') (hme : caller S w r = some me)
    (hrole : me.role = .computer) (hno : w.pg.device id = none)
    (hyes : (w'.pg.device id).isSome = true) :
    ∃ turns w, Serving S {} turns w ∧ ∃ t ∈ turns, ∃ me,
      caller S t.before t.request = some me ∧ me.role = .computer ∧ t.Created id :=
  ⟨_, w', .turn h hs, ⟨w, r, rep, w'⟩, List.mem_append_right _ List.mem_cons_self, me, hme,
    hrole, hno, hyes⟩

/-- A request of a computer writes a device row. -/
theorem computer_registers_a_phone :
    ∃ turns w, Serving Sample.server {} turns w ∧ ∃ t ∈ turns, ∃ me,
      caller Sample.server t.before t.request = some me ∧ me.role = .computer ∧
        t.Created "PH-9" := by
  obtain ⟨hlogin, hrep, hlen, hrole, hno, hyes⟩ := registrations_answered.2
  obtain ⟨turns, h, -⟩ : ∃ turns, Serving Sample.server {} turns Sample.computerIn.world ∧ _ :=
    serving_asks Sample.computerLogin (c := boot) .start hlogin
  obtain ⟨rep, hrep'⟩ := Option.isSome_iff_exists.mp hrep
  rw [← hlen] at hrep'
  have hserved := (Sample.ask_served hrep').any
  obtain ⟨me, hme, hrole'⟩ := Option.map_eq_some_iff.mp hrole
  exact wrote_row h hserved hme hrole' hno hyes

end Calcar.Api
