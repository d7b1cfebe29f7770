import Calcar.Verified.RequestTime
import Calcar.Verified.Revocation

/-!
# Renamed devices

A request for a device that is registered already is answered with the name it
asks for.  The row keeps the name it was inserted with: no statement writes one,
so every later list shows that.

## Main results

* `Named.served`, `Named.reach` — a row keeps its name, whatever is run.
* `register_ok`, `list_ok` — what a rename and a list reply.
* `rename_shown_iff` — when a list shows the name that was replied.
* `rename_not_shown` — a name that is replied and not shown.
-/

namespace Calcar.Api

open Lib Pg Trust

variable {S : Server} {ok : Oracle → Prop} {i : Nat} {w w' : World}

/-! ## Rows keep their names -/

/-- A device of a user has this row name. -/
def Named (id user name : String) (w : World) : Prop :=
  ∃ d, w.pg.device id = some d ∧ d.userId = user ∧ d.displayName = name

section Named

variable {id user name : String}

theorem Named.writes (h : Named id user name w)
    (ht : w'.pg.toTables = w.pg.toTables ∨
      ∃ ws, w'.pg.toTables = List.foldl Tables.apply w.pg.toTables ws) :
    Named id user name w' := by
  obtain ⟨d, hd, huser, hname⟩ := h
  unfold Named
  obtain ht | ⟨ws, ht⟩ := ht
  · rw [ht]
    exact ⟨d, hd, huser, hname⟩
  · rw [ht]
    obtain ⟨d', hd', rfl | rfl⟩ := Tables.device_writes ws hd
    · exact ⟨d', hd', huser, hname⟩
    · exact ⟨_, hd', huser, hname⟩

/-- A request does not change the name. -/
theorem Named.served {r : Request} {rep : Reply} (h : Named id user name w)
    (hs : Served S ok i r w rep w') : Named id user name w' :=
  (Prog.only_of_all (P := fun _ => True) (fun _ => trivial) (serve S r)).runs
    (I := Named id user name) (fun c _ _ _ _ _ hx hn => hn.writes (tables_after c hx)) hs h

/-- **No run of the backend changes the name**, of whatever goroutines. -/
theorem Named.reach {c c' : Sample.Conf} (h : Named id user name c.world)
    (hr : (backend S).Reach (fun _ _ => True) c c') : Named id user name c'.world :=
  System.Reach.keeps (I := Named id user name) (fun hx hn => hn.writes (tables_after _ hx))
    (fun hx hn => hn.writes (.inl (tables_env hx))) hr h

end Named

/-! ## Replies -/

theorem declining_fingerprint (pub : Bytes) : Declining S (fingerprint S pub) := by
  unfold fingerprint
  split
  · exact declining_pure _
  · exact declining_throw (declines_writeErr (by decide))

theorem declining_checkOwnerSlot (role : Role) (user : String) :
    Declining S (checkOwnerSlot role user) := by
  unfold checkOwnerSlot
  split
  · apply Declining.bind
    · apply Declining.bind declining_attempt
      rintro (e | devs)
      · exact declining_pure _
      · exact declining_pure _
    · rintro (e | has)
      · exact declining_throw (declines_writeErr (by decide))
      · exact declining_replyIf _ (declines_writeErr (by decide))
  · exact declining_pure _

theorem declining_renameDevice (me existing : Device) (req : RegisterReq) (name : String) :
    Declining S (renameDevice me existing req name) := by
  apply Declining.bind (declining_replyIf _ (declines_writeErr (by decide)))
  intro _
  apply Declining.bind (declining_require (declines_writeErr (by decide)))
  intro pub
  apply Declining.bind (declining_replyIf _ (declines_writeErr (by decide)))
  intro _
  apply Declining.bind (declining_replyIf _ (declines_writeErr (by decide)))
  intro _
  apply Declining.bind declining_attempt
  intro stored
  apply Declining.bind (declining_replyIf _ (declines_writeErr (by decide)))
  intro _
  apply Declining.bind declining_attempt
  rintro (e | cur)
  · exact declining_pure _
  · exact declining_pure _

theorem declining_addDevice (me : Device) (req : RegisterReq) (name : String) :
    Declining S (addDevice S me req name) := by
  apply Declining.bind (declining_require (declines_writeErr (by decide)))
  intro role
  apply Declining.bind (declining_checkOwnerSlot _ _)
  intro _
  apply Declining.bind (declining_require (declines_writeErr (by decide)))
  intro pub
  apply Declining.bind (declining_fingerprint pub)
  intro fp
  apply Declining.bind (declining_replyIf _ (declines_writeErr (by decide)))
  intro _
  exact Declining.bind (declining_store fun e => declines_storeErr e) fun _ => declining_pure _

theorem declining_devicesRegister (rid : String) (me : Device) (body : Json RegisterReq) :
    Declining S (handleDevicesRegister S rid me body) := by
  apply Declining.bind declining_idempotent
  intro _
  apply Declining.bind declining_decode
  intro req
  apply Declining.bind (declining_replyIf _ (declines_writeErr (by decide)))
  intro _
  apply Declining.bind (declining_require (declines_writeErr (by decide)))
  intro name
  apply Declining.bind declining_attempt
  rintro (e | existing)
  · cases e with
    | notFound => exact declining_addDevice me req name
    | _ => exact declining_throw (declines_writeErr (by decide))
  · exact declining_renameDevice me existing req name

/-- A rename replies with the name it is asked for. -/
theorem renameDevice_ok {me existing : Device} {req : RegisterReq} {name : String} {rep : Reply}
    (h : HRuns S ok i (renameDevice me existing req name) w (.ok rep) w') :
    existing.userId = me.userId ∧ ∃ view, rep = ⟨200, .device view⟩ ∧ view.displayName = name := by
  unfold renameDevice at h
  obtain ⟨_, w₁, huser, h⟩ := hruns_ok h
  obtain ⟨pub, w₂, _, h⟩ := hruns_ok h
  obtain ⟨_, w₃, _, h⟩ := hruns_ok h
  obtain ⟨_, w₄, _, h⟩ := hruns_ok h
  obtain ⟨stored, w₅, _, h⟩ := hruns_ok h
  obtain ⟨_, w₆, _, h⟩ := hruns_ok h
  obtain ⟨cur, w₇, _, h⟩ := hruns_ok h
  refine ⟨Classical.byContradiction (replyIf_ok huser).2, ?_⟩
  cases cur with
  | error e => exact ⟨_, Except.ok.inj (hruns_pure.mp h).1, rfl⟩
  | ok cur => exact ⟨_, Except.ok.inj (hruns_pure.mp h).1, rfl⟩

theorem addDevice_ok {me : Device} {req : RegisterReq} {name : String} {rep : Reply}
    (h : HRuns S ok i (addDevice S me req name) w (.ok rep) w') : rep.status = 201 := by
  unfold addDevice at h
  obtain ⟨role, w₁, _, h⟩ := hruns_ok h
  obtain ⟨_, w₂, _, h⟩ := hruns_ok h
  obtain ⟨pub, w₃, _, h⟩ := hruns_ok h
  obtain ⟨fp, w₄, _, h⟩ := hruns_ok h
  obtain ⟨_, w₅, _, h⟩ := hruns_ok h
  obtain ⟨_, w₆, _, h⟩ := hruns_ok h
  rw [Except.ok.inj (hruns_pure.mp h).1]

/-- **A registration that replies 200** has found a row of the caller's user and replies
with the name it was asked for. -/
theorem register_ok {rid : String} {me : Device} {req : RegisterReq} {view : DeviceView}
    (h : HRuns S ok i (handleDevicesRegister S rid me (.ok req)) w
      (.ok ⟨200, .device view⟩) w') :
    checkDisplayName req.displayName = some view.displayName ∧
      ∃ row, w.pg.device req.deviceId = some row ∧ row.userId = me.userId := by
  unfold handleDevicesRegister at h
  obtain ⟨_, w₁, hmark, h⟩ := hruns_ok h
  obtain ⟨req', w₂, hdecode, h⟩ := hruns_ok h
  obtain ⟨_, w₃, hid, h⟩ := hruns_ok h
  obtain ⟨name, w₄, hname, h⟩ := hruns_ok h
  obtain ⟨found, w₅, hget, h⟩ := hruns_ok h
  obtain ⟨hw₂, hreq⟩ := decode_ok hdecode
  obtain rfl := Except.ok.inj hreq
  obtain ⟨hw₄, hname⟩ := require_ok hname
  have hpg : w₄.pg = w.pg := by
    rw [hw₄, (replyIf_ok hid).1, hw₂, (idempotent_hruns hmark).1]
  obtain ⟨a, ha, hrun⟩ := hruns_attempt.mp hget
  obtain rfl := Except.ok.inj ha
  cases found with
  | error e =>
      cases e with
      | notFound => cases addDevice_ok h
      | _ =>
          obtain ⟨he, _⟩ := hruns_throw.mp h
          cases he
  | ok existing =>
      obtain ⟨huser, view', hrep, hview⟩ := renameDevice_ok h
      cases hrep
      have hrow := (getDevice_runs hrun).2.1 existing rfl
      rw [hpg] at hrow
      exact ⟨hview ▸ hname, existing, hrow, huser⟩

/-- What a reply lists. -/
def Reply.listed (rep : Reply) : List DeviceView :=
  match rep.body with
  | .devices views => views
  | .graph views => views
  | _ => []

/-- The reply lists the device under this name. -/
def Reply.Shows (rep : Reply) (id name : String) : Prop :=
  ∃ view, rep.listed.find? (fun v => v.deviceId = id) = some view ∧ view.displayName = name

/-- A device list or a trust graph. -/
def Route.Lists (route : Route) : Prop := route = .devicesList ∨ route = .trustGraph

theorem listed_row {devices : List Device} {id user : String} {d : Device}
    (h : devices.find? (fun d => d.id = id) = some d) (huser : d.userId = user) :
    ((devices.filter fun d => d.userId = user).map deviceJSON).find? (fun v => v.deviceId = id) =
      some (deviceJSON d) := by
  induction devices with
  | nil => cases h
  | cons d' devices ih =>
      by_cases hid : d'.id = id
      · have hview : (deviceJSON d').deviceId = id := hid
        rw [List.find?_cons_of_pos (by simpa using hid)] at h
        obtain rfl := Option.some.inj h
        rw [List.filter_cons_of_pos (by simpa using huser), List.map_cons,
          List.find?_cons_of_pos (by simpa using hview)]
      · have hview : (deviceJSON d').deviceId ≠ id := hid
        rw [List.find?_cons_of_neg (by simpa using hid)] at h
        by_cases hown : d'.userId = user
        · rw [List.filter_cons_of_pos (by simpa using hown), List.map_cons,
            List.find?_cons_of_neg (by simpa using hview)]
          exact ih h
        · rw [List.filter_cons_of_neg (by simpa using hown)]
          exact ih h

/-- A list that is served reads the rows of a user. -/
theorem listing_ok {rep : Reply} {user : String} {bad : Err → Reply} {f : List DeviceView → Body}
    (h : HRuns S ok i (do
      let devs ← store (.listUserDevices user) bad
      return ⟨200, f (devs.map deviceJSON)⟩) w (.ok rep) w') :
    rep = ⟨200, f ((w.pg.devices.filter fun d => d.userId = user).map deviceJSON)⟩ := by
  obtain ⟨devs, w₁, hlist, h⟩ := hruns_ok h
  have hrows := (listUserDevices_runs (store_ok hlist)).2 devs rfl
  rw [Except.ok.inj (hruns_pure.mp h).1, hrows]

theorem throwing_listing {user : String} {f : List DeviceView → Body} :
    Throwing S (fun rep => rep.status ≠ 200) (do
      let devs ← store (.listUserDevices user) fun _ =>
        writeErr 500 "STORE_ERROR" "list failed" true
      return (⟨200, f (devs.map deviceJSON)⟩ : Reply)) := by
  apply Throwing.bind (throwing_store (P := fun rep => rep.status ≠ 200) fun _ => by decide)
  intro devs
  exact throwing_pure (P := fun rep => rep.status ≠ 200) _

/-- A list that is replied is the list of the user of the token. -/
theorem list_caller {r : Request} {rep : Reply} (hlists : r.route.Lists)
    (hs : Served S (fun _ => True) i r w rep w') (hstatus : rep.status = 200) :
    ∃ me user w₁,
      HRuns S (fun _ => True) i (authenticate r.authorization) w (.ok (me, user)) w₁ ∧
      rep.listed = (w₁.pg.devices.filter fun d => d.userId = user).map deviceJSON := by
  obtain hlist | hgraph := hlists
  · have hr : routes S r = .authed fun _ user => handleDevicesList user := by
      unfold routes
      rw [hlist]
    obtain ⟨me, user, w₁, _, hauth, hbody⟩ :=
      served_open ⟨{}, trivial⟩ hr (fun _ _ => throwing_listing) hs hstatus
    refine ⟨me, user, w₁, hauth, ?_⟩
    rw [listing_ok (f := .devices) hbody]
    rfl
  · have hr : routes S r = .authed fun _ user => handleTrustGraph user := by
      unfold routes
      rw [hgraph]
    obtain ⟨me, user, w₁, _, hauth, hbody⟩ :=
      served_open ⟨{}, trivial⟩ hr (fun _ _ => throwing_listing) hs hstatus
    refine ⟨me, user, w₁, hauth, ?_⟩
    rw [listing_ok (f := .graph) hbody]
    rfl

/-- **A list** shows the row of a device of its user. -/
theorem list_ok {r : Request} {rep : Reply} {device user id name : String}
    (hlists : r.route.Lists) (hs : Served S (fun _ => True) i r w rep w')
    (hstatus : rep.status = 200)
    (htoken : w.rd.tokens.get w.rd.now (.access, Ws.bearerToken r.authorization) =
      some (device, user))
    (hrow : Named id user name w) (asked : String) : rep.Shows id asked ↔ name = asked := by
  obtain ⟨me, user', w₁, hauth, hbody⟩ := list_caller hlists hs hstatus
  obtain ⟨hkept, _, id', htoken', _⟩ := authenticate_hruns hauth
  obtain ⟨_, rfl⟩ := Prod.mk.inj (Option.some.inj (htoken.symm.trans htoken'))
  obtain ⟨d, hd, huser, rfl⟩ := hrow
  have hfind := listed_row ((hkept.device id).trans hd) huser
  unfold Reply.Shows
  rw [hbody, hfind]
  constructor
  · rintro ⟨view, hview, hname⟩
    rw [← hname, ← Option.some.inj hview]
    rfl
  · exact fun hname => ⟨_, rfl, hname⟩

/-! ## A rename and a later list -/

/-- A rename is answered with the name it asks for, for a row of the caller's user. -/
theorem rename_ok {r : Request} {req : RegisterReq} {view : DeviceView} {me : Device}
    (hroute : r.route = .devicesRegister (.ok req))
    (hs : Served S (fun _ => True) i r w ⟨200, .device view⟩ w') (hme : caller S w r = some me) :
    ∃ row, w.pg.device req.deviceId = some row ∧ row.userId = me.userId := by
  have hr : routes S r = .authed fun me _ =>
      handleDevicesRegister S r.requestId me (.ok req) := by
    unfold routes
    rw [hroute]
  obtain ⟨_, _, _, hbody, _⟩ | ⟨me', _, _, w₁, res, hme', _, hkept, _, hrun, rfl | rfl⟩ :=
    served_as ⟨{}, trivial⟩ hr hs
  · cases hbody
  · obtain rfl := Option.some.inj (hme.symm.trans hme')
    obtain ⟨_, row, hrow, huser⟩ := register_ok hrun
    exact ⟨row, (hkept.device _).symm.trans hrow, huser⟩
  · obtain ⟨_, _, _, hbody, _⟩ := declining_devicesRegister _ _ _ hrun
    cases hbody

/-- **When a rename is read back.**  After a registration that replies 200 with a
name, and whatever the backend runs then, a list or a trust graph of the user shows
that name exactly when the row had it before. -/
theorem rename_shown_iff {r r' : Request} {req : RegisterReq} {view : DeviceView} {me : Device}
    {c c' : Sample.Conf} {j : Nat} {rep' : Reply} {w'' : World} {device : String}
    (hroute : r.route = .devicesRegister (.ok req))
    (hs : Served S (fun _ => True) i r w ⟨200, .device view⟩ c.world)
    (hme : caller S w r = some me) (hrun : (backend S).Reach (fun _ _ => True) c c')
    (hlists : r'.route.Lists) (hs' : Served S (fun _ => True) j r' c'.world rep' w'')
    (hstatus : rep'.status = 200)
    (htoken : c'.world.rd.tokens.get c'.world.rd.now
      (.access, Ws.bearerToken r'.authorization) = some (device, me.userId)) :
    ∃ row, w.pg.device req.deviceId = some row ∧
      (rep'.Shows req.deviceId view.displayName ↔ row.displayName = view.displayName) := by
  obtain ⟨row, hrow, huser⟩ := rename_ok hroute hs hme
  have hnamed : Named req.deviceId me.userId row.displayName w := ⟨row, hrow, huser, rfl⟩
  exact ⟨row, hrow, list_ok hlists hs' hstatus htoken ((hnamed.served hs).reach hrun) _⟩

/-- The Owner asks for another name of its phone. -/
def renameReq : Request := Sample.registerReq 3 "r4" "PH-1" Sample.ownerKey ""

def listReq : Request where
  authorization := Sample.bearer 3
  route := .devicesList

/-- The backend after the rename. -/
def renamed : Sample.Conf := Sample.ask Sample.ownerIn 4 renameReq

/-- The device view of a reply. -/
def Reply.deviceView (rep : Reply) : Option DeviceView :=
  match rep with
  | ⟨200, .device view⟩ => some view
  | _ => none

private theorem reply_of_view {rep : Reply} {view : DeviceView} (h : rep.deviceView = some view) :
    rep = ⟨200, .device view⟩ := by
  unfold Reply.deviceView at h
  split at h
  · rw [Option.some.inj h]
  · cases h

private theorem rename_replied :
    ((replied renamed 3).bind Reply.deviceView).map DeviceView.displayName = some "Desk" ∧
    Sample.ownerIn.pool.length = 3 ∧ renamed.pool.length = 4 ∧
    (Sample.ownerIn.world.pg.device "PH-1").map Device.displayName = some "Phone" ∧
    (caller Sample.server Sample.ownerIn.world renameReq).map Device.userId =
      (renamed.world.rd.tokens.get renamed.world.rd.now
        (.access, Ws.bearerToken listReq.authorization)).map Prod.snd ∧
    (caller Sample.server Sample.ownerIn.world renameReq).isSome = true ∧
    (replied (Sample.ask renamed 5 listReq) 4).map Reply.status = some 200 := by
  decide +kernel

private theorem rename_listed :
    ∃ view me device rep,
      Served Sample.server (fun _ => True) 3 renameReq Sample.ownerIn.world
        ⟨200, .device view⟩ renamed.world ∧
      caller Sample.server Sample.ownerIn.world renameReq = some me ∧
      Served Sample.server (fun _ => True) 4 listReq renamed.world rep
        (Sample.ask renamed 5 listReq).world ∧
      rep.status = 200 ∧
      renamed.world.rd.tokens.get renamed.world.rd.now
        (.access, Ws.bearerToken listReq.authorization) = some (device, me.userId) ∧
      view.displayName = "Desk" ∧
      ∃ row, Sample.ownerIn.world.pg.device "PH-1" = some row ∧ row.displayName = "Phone" := by
  obtain ⟨hview, hlen, hlen', hrow, hsame, hcaller, hlist⟩ := rename_replied
  obtain ⟨view, hview, hname⟩ := Option.map_eq_some_iff.mp hview
  obtain ⟨rep, hrep, hview⟩ := Option.bind_eq_some_iff.mp hview
  obtain ⟨rep', hrep', hstatus⟩ := Option.map_eq_some_iff.mp hlist
  obtain ⟨me, hme⟩ := Option.isSome_iff_exists.mp hcaller
  rw [hme] at hsame
  obtain ⟨⟨device, user⟩, htoken, huser⟩ := Option.map_eq_some_iff.mp hsame.symm
  obtain rfl := reply_of_view hview
  refine ⟨view, me, device, rep', ?_, hme, ?_, hstatus, ?_, hname, Option.map_eq_some_iff.mp hrow⟩
  · rw [← hlen] at hrep ⊢
    exact (Sample.ask_served hrep).any
  · rw [← hlen'] at hrep' ⊢
    exact (Sample.ask_served hrep').any
  · rw [htoken, ← show user = me.userId from huser]

/-- The list that follows the rename. -/
theorem rename_shown_iff_desk :
    ∃ rep row, Served Sample.server (fun _ => True) 4 listReq renamed.world rep
        (Sample.ask renamed 5 listReq).world ∧
      Sample.ownerIn.world.pg.device "PH-1" = some row ∧
      (rep.Shows "PH-1" "Desk" ↔ row.displayName = "Desk") := by
  obtain ⟨view, me, device, rep, hs, hme, hs', hstatus, htoken, hname, _⟩ := rename_listed
  obtain ⟨row, hrow, hiff⟩ :=
    rename_shown_iff rfl hs hme .refl (.inl rfl) hs' hstatus htoken
  rw [hname] at hiff
  exact ⟨rep, row, hs', hrow, hiff⟩

/-- **A name that is replied and not shown**: the phone's row is kept as "Phone". -/
theorem rename_not_shown :
    ∃ view me device rep,
      (backend Sample.server).Reach (fun _ _ => True) boot Sample.ownerIn ∧
      Served Sample.server (fun _ => True) 3 renameReq Sample.ownerIn.world
        ⟨200, .device view⟩ renamed.world ∧
      caller Sample.server Sample.ownerIn.world renameReq = some me ∧
      Served Sample.server (fun _ => True) 4 listReq renamed.world rep
        (Sample.ask renamed 5 listReq).world ∧
      rep.status = 200 ∧
      renamed.world.rd.tokens.get renamed.world.rd.now
        (.access, Ws.bearerToken listReq.authorization) = some (device, me.userId) ∧
      ¬rep.Shows "PH-1" view.displayName := by
  obtain ⟨view, me, device, rep, hs, hme, hs', hstatus, htoken, hname, row, hrow, hphone⟩ :=
    rename_listed
  refine ⟨view, me, device, rep, Sample.ownerIn_reach, hs, hme, hs', hstatus, htoken, ?_⟩
  obtain ⟨row', hrow', huser⟩ := rename_ok rfl hs hme
  obtain rfl := Option.some.inj (hrow.symm.trans hrow')
  have hnamed : Named "PH-1" me.userId row.displayName Sample.ownerIn.world :=
    ⟨row, hrow, huser, rfl⟩
  intro hshows
  have hsame := (list_ok (.inl rfl) hs' hstatus htoken (hnamed.served hs) _).mp hshows
  rw [hphone, hname] at hsame
  exact absurd hsame (by decide)

end Calcar.Api
