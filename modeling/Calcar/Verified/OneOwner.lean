import Calcar.Lib.Aligned
import Calcar.Lib.Paths
import Calcar.Verified.Stores

/-!
# One active Owner

Whoever registers an Owner looks at the user's devices first and inserts only if
there is no unrevoked Owner among them.  The look and the `INSERT` are two
statements and nothing in the schema stands between them, so two registrations
that both look first both insert.  A thread is *ready* from a look that found no
Owner to its insert.  As long as a thread that inserts an Owner is the only ready
one, every user has at most one.

## Main results

* `task_watched` — every goroutine looks before it inserts an Owner.
* `Sole.step` — one step.
* `one_active_owner` — the invariant, over every run without two ready threads.
* `replayAlone_reach` — a run that can be replayed with what its threads have seen.
* `two_owners` — two registrations side by side.
-/

namespace Calcar

open Lib Pg

/-! ## Tables -/

/-- An unrevoked Owner device of the user. -/
def Device.isOwnerOf (d : Device) (user : String) : Bool :=
  d.userId = user ∧ d.role = .ownerPhone ∧ d.revoked = false

/-- The unrevoked Owner devices of a user. -/
def Pg.Tables.owners (t : Tables) (user : String) : List Device :=
  t.devices.filter fun d => d.isOwnerOf user

theorem owners_revoke (devices : List Device) (id user : String) :
    ((devices.map fun d => if d.id = id then { d with revoked := true } else d).filter
      fun d => d.isOwnerOf user).length ≤ (devices.filter fun d => d.isOwnerOf user).length := by
  induction devices with
  | nil => exact Nat.le_refl _
  | cons d devices ih =>
      rw [List.map_cons, List.filter_cons, List.filter_cons]
      by_cases hid : d.id = id
      · have hout : ({ d with revoked := true } : Device).isOwnerOf user = false := by
          simp [Device.isOwnerOf]
        rw [if_pos hid, hout]
        cases d.isOwnerOf user with
        | true => exact Nat.le_succ_of_le ih
        | false => exact ih
      · rw [if_neg hid]
        cases d.isOwnerOf user with
        | true => exact Nat.succ_le_succ ih
        | false => exact ih

/-- Only the insert of an Owner row adds an Owner. -/
theorem owners_apply (t : Tables) (w : Write) {user : String}
    (hw : ∀ d, w = .addDevice d → d.isOwnerOf user = false) :
    ((t.apply w).owners user).length ≤ (t.owners user).length := by
  cases w with
  | addDevice d =>
      show ((t.devices ++ [d]).filter fun d => d.isOwnerOf user).length ≤ _
      rw [List.filter_append, List.filter_cons, hw d rfl]
      simp [Tables.owners]
  | revokeDevice id => exact owners_revoke t.devices id user
  | putConn conn device seen =>
      have hdevices : (t.apply (.putConn conn device seen)).devices = t.devices := by
        simp only [Tables.apply]
        split <;> rfl
      rw [Tables.owners, hdevices]
      exact Nat.le_refl _
  | _ => exact Nat.le_refl _

theorem owners_writes (t : Tables) (ws : List Write) {user : String}
    (hws : ∀ d, .addDevice d ∈ ws → d.isOwnerOf user = false) :
    ((ws.foldl Tables.apply t).owners user).length ≤ (t.owners user).length := by
  induction ws generalizing t with
  | nil => exact Nat.le_refl _
  | cons w ws ih =>
      refine Nat.le_trans (ih (t.apply w) fun d hd => hws d (List.mem_cons_of_mem _ hd)) ?_
      exact owners_apply t w fun d hd => hws d (hd ▸ List.mem_cons_self)

/-- A statement that is no insert of an Owner adds none. -/
theorem owners_exec {p p' : PgState} {i : Nat} {c : PgCmd} {f : Fault}
    {r : Except PgErr c.Ret} {user : String} (h : Unstaged p)
    (hnot : ∀ d, c = .insertDevice d → d.isOwnerOf user = false ∨ (p.device d.id).isSome = true)
    (hx : c.exec i f p = some (p', r)) :
    (p'.owners user).length ≤ (p.owners user).length := by
  have hwrites : ∀ ws : List Write, (∀ d, .addDevice d ∈ ws → d.isOwnerOf user = false) →
      p'.toTables = ws.foldl Tables.apply p.toTables →
        (p'.owners user).length ≤ (p.owners user).length := by
    intro ws hws ht
    rw [ht]
    exact owners_writes _ ws hws
  obtain ⟨ht, -⟩ | ⟨ws, hlogged, ht, -⟩ := PgCmd.exec_tables hx
  · exact hwrites [] (fun _ hm => absurd hm List.not_mem_nil) ht
  · cases hlogged with
    | now hcom =>
        cases hcom with
        | @device d hu hid hkey =>
            obtain hother | hthere := hnot d rfl
            · refine hwrites _ (fun d' hm => ?_) ht
              cases List.mem_singleton.mp hm
              exact hother
            · rw [hid] at hthere
              cases hthere
        | _ => exact hwrites _ (by simp) ht
    | @tx tx hc htx hlive hws =>
        refine hwrites ws (fun d hm => ?_) ht
        rw [hws] at hm
        exact absurd hm (h i tx d htx)

/-- One row is added by an insert. -/
theorem owners_insert {p p' : PgState} {i : Nat} {d : Device} {f : Fault}
    {r : Except PgErr (PgCmd.insertDevice d).Ret} {user : String}
    (hx : (PgCmd.insertDevice d).exec i f p = some (p', r)) :
    (p'.owners user).length ≤ (p.owners user).length + 1 := by
  obtain ⟨ht, -⟩ | ⟨ws, hlogged, ht, -⟩ := PgCmd.exec_tables hx
  · rw [ht]
    exact Nat.le_succ _
  · cases hlogged with
    | now hcom =>
        cases hcom with
        | device hu hid hkey =>
            rw [ht]
            show ((p.devices ++ [d]).filter fun d => d.isOwnerOf user).length ≤ _
            rw [List.filter_append, List.length_append]
            have hone : ([d].filter fun d => d.isOwnerOf user).length ≤ 1 :=
              List.length_filter_le _ _
            exact Nat.add_le_add_left hone _
    | @tx tx hc htx hlive hws => cases hc

namespace Api

variable {S : Server} {user : String}

/-! ## The automaton -/

/-- What a goroutine has seen of a user: that no unrevoked Owner is there, and
devices whose rows are. -/
structure Watch where
  clear : Bool := false
  seen : List String := []

/-- Watching one command and its answer. -/
def Watch.next (user : String) (s : Watch) : (c : Srv) → c.Ans → Watch
  | .core (.pg (.selectUserDevices u)), r =>
      if u = user then
        { s with clear := match r with
          | .ok devices => ¬devices.any fun d => d.isOwnerOf user
          | .error _ => false }
      else s
  | .core (.pg (.selectDevice _)), .ok (some d) => { s with seen := d.id :: s.seen }
  | .core (.pg (.insertDevice d)), _ =>
      if d.isOwnerOf user then { s with clear := false } else s
  | _, _ => s

/-- An Owner is inserted after a look that found none, or where there is a row. -/
def Watch.Ok (user : String) (s : Watch) (c : Srv) : Prop :=
  ∀ d, c = .core (.pg (.insertDevice d)) → d.isOwnerOf user = true →
    s.clear = true ∨ d.id ∈ s.seen

/-- A program that looks before it inserts. -/
abbrev Watched (user : String) {α : Type} (s : Watch) (p : Srv.M α) (Q : α → Watch → Prop) :
    Prop := p.Leads (Watch.next user) (Watch.Ok user) s Q

/-- A part of a handler; the parts after it run if it returns. -/
def HWatched (S : Server) (user : String) {α : Type} (s : Watch) (h : H α)
    (Q : α → Watch → Prop) : Prop :=
  Watched user s (toSrv S h.run) fun r s' => ∀ a, r = .ok a → Q a s'

/-- The command inserts no Owner of the user. -/
def NoOwner (user : String) (c : Srv) : Prop :=
  ∀ d, c = .core (.pg (.insertDevice d)) → d.isOwnerOf user = false

theorem watched_only {α : Type} {s : Watch} {p : Srv.M α} (hp : p.Only (NoOwner user)) :
    Watched user s p fun _ _ => True :=
  Prog.Leads.only (I := fun _ => True) hp
    (fun s c _ hc d hd howner => absurd howner (by rw [hc d hd]; decide)) (fun _ _ _ _ _ => trivial)
    trivial

theorem HWatched.bind {α β : Type} {s : Watch} {x : H α} {f : α → H β} {B : α → Watch → Prop}
    {Q : β → Watch → Prop} (hx : HWatched S user s x B)
    (hf : ∀ a s, B a s → HWatched S user s (f a) Q) : HWatched S user s (x >>= f) Q := by
  have hrun : toSrv S (x >>= f).run =
      (toSrv S x.run >>= fun r => toSrv S (ExceptT.bindCont f r)) := toSrv_bind _ _ _
  unfold HWatched
  rw [hrun]
  refine Prog.Leads.bind hx fun r s' hr => ?_
  cases r with
  | ok a => exact hf a s' (hr a rfl)
  | error e => exact nofun

/-! ### Parts that insert no Owner -/

/-- The call registers no Owner of the user. -/
def Call.Plain (user : String) : Call → Prop
  | .store (.registerDevice d) => ¬(d.userId = user ∧ d.role = .ownerPhone)
  | _ => True

theorem call_noOwner {C : Crypto} {c : Call} (hc : c.Plain user) :
    (Core.toSrv (c.run C)).Only (NoOwner user) := by
  have hcore : (c.run C).Only fun cmd =>
      ∀ d, cmd = .pg (.insertDevice d) → d.isOwnerOf user = false := by
    cases c with
    | store s =>
        refine (combined_issues C s).mono fun cmd hissued d hcmd => ?_
        subst hcmd
        obtain hreads | hwrites := hissued
        · exact hreads.elim
        · cases s with
          | registerDevice d' =>
              obtain ⟨rfl, -⟩ := hwrites
              by_cases howner : ({ d' with revoked := false } : Device).isOwnerOf user = true
              · have hparts := of_decide_eq_true howner
                exact absurd ⟨hparts.1, hparts.2.1⟩ hc
              · simpa using howner
          | issueAccessToken _ _ _ => exact hwrites.elim
          | issueRefreshToken _ _ _ => exact hwrites.elim
          | _ => exact hwrites.elim
    | now => exact Prog.only_perform nofun
    | rand n => exact Prog.only_perform nofun
    | notify ev => exact Prog.only_perform nofun
  refine (only_toSrv hcore).mono fun cmd hcmd d hd => ?_
  obtain ⟨c', rfl, hno⟩ := hcmd
  exact hno d (Srv.core.inj hd)

theorem noOwner_yields : Yields S (Call.Plain user) (NoOwner user) := fun _ hc => call_noOwner hc

theorem noOwner_outer (c : Srv) (hc : Outer c) : NoOwner user c :=
  fun _ hd => absurd hd (hc _)

section Parts

variable {α : Type} {s : Watch}

theorem HWatched.plain {x : H α} (hx : HOnly (Call.Plain user) x) :
    HWatched S user s x fun _ _ => True :=
  (watched_only (noOwner_yields.program hx.run)).mono fun _ _ _ _ _ => trivial

/-- A part without calls sees nothing. -/
theorem HWatched.still {x : H α} (hx : HOnly (fun _ => False) x) :
    HWatched S user s x fun _ s' => s' = s := by
  have honly : (toSrv S x.run).Only fun _ => False := by
    rw [toSrv_eq]
    exact hx.run.expand fun _ hc => hc.elim
  exact (Prog.Leads.only (I := fun s' => s' = s) honly (fun _ _ _ hc => hc.elim)
    (fun _ _ _ _ hc => hc.elim) rfl).mono fun _ _ hs _ _ => hs

theorem HWatched.replyIf {c : Prop} [Decidable c] {r : Reply} :
    HWatched S user s (replyIf c r) fun _ s' => s' = s ∧ ¬c := by
  unfold Api.replyIf
  by_cases hc : c
  · rw [if_pos hc]
    exact nofun
  · rw [if_neg hc]
    exact fun _ _ => ⟨rfl, hc⟩

theorem HWatched.mono {x : H α} {B Q : α → Watch → Prop} (hx : HWatched S user s x B)
    (h : ∀ a s, B a s → Q a s) : HWatched S user s x Q :=
  Prog.Leads.mono hx fun _ _ hr a ha => h a _ (hr a ha)

theorem HWatched.pure {a : α} {Q : α → Watch → Prop} (h : Q a s) :
    HWatched S user s (pure a) Q := by
  intro b hb
  cases hb
  exact h

theorem HWatched.throw {r : Reply} {Q : α → Watch → Prop} :
    HWatched S user s (throw r : H α) Q := nofun

/-- The look. -/
theorem HWatched.look (u : String) : HWatched S user s (userHasOwner u) fun r s' =>
    u = user → r.toOption = some false → s'.clear = true := by
  refine ⟨nofun, fun r => ?_⟩
  cases r with
  | error e =>
      intro a ha hu hr
      cases ha
      cases hr
  | ok devices =>
      intro a ha hu hr
      subst hu
      cases ha
      have hnone : (devices.any fun d => d.role = .ownerPhone ∧ d.revoked = false) = false :=
        Option.some.inj hr
      show (if u = u then _ else _ : Watch).clear = true
      rw [if_pos rfl]
      show decide (¬(devices.any fun d => d.isOwnerOf u) = true) = true
      rw [decide_eq_true_eq, List.any_eq_true]
      rintro ⟨d, hd, howner⟩
      rw [List.any_eq_false] at hnone
      exact hnone d hd (by simpa using (of_decide_eq_true howner).2)

/-- A device that was read has a row. -/
theorem HWatched.read (id : String) : HWatched S user s (attempt (.store (.getDevice id)))
    fun r s' => ∀ d, r = .ok d → d.id ∈ s'.seen := by
  refine ⟨nofun, fun r => ?_⟩
  cases r with
  | error e =>
      intro a ha d hd
      cases ha
      cases hd
  | ok row =>
      cases row with
      | none =>
          intro a ha d hd
          cases ha
          cases hd
      | some d' =>
          intro a ha d hd
          cases ha
          cases hd
          exact List.mem_cons_self

/-- An insert that is allowed. -/
theorem HWatched.register {d : Device}
    (hok : d.userId = user → d.role = .ownerPhone → s.clear = true ∨ d.id ∈ s.seen) :
    HWatched S user s (attempt (.store (.registerDevice d))) fun _ _ => True := by
  unfold HWatched
  have hrun : toSrv S (attempt (.store (.registerDevice d))).run =
      (Core.toSrv (Postgres.registerDevice d) >>= fun r => .ret (.ok r)) :=
    toSrv_call S (.store (.registerDevice d)) _
  rw [hrun]
  unfold Postgres.registerDevice
  split
  · exact fun _ _ => trivial
  · refine ⟨fun d' hd howner => ?_, fun r => ?_⟩
    · cases hd
      have hparts := of_decide_eq_true howner
      exact hok hparts.1 hparts.2.1
    · cases r with
      | error e => exact fun _ _ => trivial
      | ok u => exact fun _ _ => trivial

/-- The part as a program. -/
theorem HWatched.run {x : H α} {Q : α → Watch → Prop} (hx : HWatched S user s x Q) :
    Watched user s (toSrv S x.run) fun r s' => ∀ a, r = .ok a → Q a s' := hx

-- used through its rules; unfolding it would run the handler
attribute [irreducible] HWatched

theorem HWatched.store_register {d : Device} {bad : Err → Reply}
    (hok : d.userId = user → d.role = .ownerPhone → s.clear = true ∨ d.id ∈ s.seen) :
    HWatched S user s (store (.registerDevice d) bad) fun _ _ => True := by
  refine (HWatched.register hok).bind fun r s' _ => ?_
  cases r with
  | error e => exact HWatched.throw
  | ok u => exact HWatched.pure trivial

end Parts

/-! ### The handlers -/

/-- The calls all handlers may make. -/
theorem plain_of_callsAs {route : Route} {ids : String → Prop} {c : Call}
    (hroute : ∀ d, route.Writes (.registerDevice d) → ¬(d.userId = user ∧ d.role = .ownerPhone))
    (hc : route.CallsAs ids c) : c.Plain user := by
  cases c with
  | store s =>
      cases s with
      | registerDevice d =>
          obtain hlooks | hwrites := hc
          · exact hlooks.elim
          · exact hroute d hwrites
      | _ => trivial
  | _ => trivial

theorem idempotent_plain (rid : String) : HOnly (Call.Plain user) (idempotent rid) := by
  have h : HOnly (Route.healthz.CallsAs fun _ => True) (idempotent rid) :=
    honly_idempotent trivial
  exact h.mono fun _ hc => plain_of_callsAs (fun _ hw => absurd hw id) hc

/-- A bootstrap looks at the user it has just created. -/
theorem bootstrap_watched (s : Watch) (rid : String) (body : Json BootstrapReq) :
    HWatched S user s (handleBootstrap S rid body) fun _ _ => True := by
  unfold handleBootstrap
  refine (HWatched.plain (idempotent_plain rid)).bind fun _ _ _ => ?_
  refine (HWatched.plain (honly_decode body)).bind fun req _ _ => ?_
  refine (HWatched.plain (honly_require _ _)).bind fun name _ _ => ?_
  refine (HWatched.plain (honly_require _ _)).bind fun pub _ _ => ?_
  refine (HWatched.plain (honly_fingerprint S pub)).bind fun fp _ _ => ?_
  refine (HWatched.plain (honly_store (show Call.Plain user (.store .createUser) from trivial))).bind
    fun userId _ _ => ?_
  have hid : HOnly (Call.Plain user) (bootstrapId req.deviceId) := by
    unfold bootstrapId
    split
    · exact HOnly.bind (honly_attempt trivial) fun _ => honly_pure _
    · exact honly_pure _
  refine (HWatched.plain hid).bind fun device _ _ => ?_
  refine HWatched.replyIf.bind fun _ _ _ => ?_
  refine (HWatched.look userId).bind fun has s₁ hlook => ?_
  refine HWatched.replyIf.bind fun _ s₂ hfree => ?_
  obtain ⟨rfl, hfree⟩ := hfree
  refine (HWatched.store_register fun hu _ => .inl ?_).bind fun _ _ _ =>
    HWatched.pure trivial
  exact hlook hu (Classical.not_not.mp hfree)

/-- A registration of an Owner looks at the caller's user. -/
theorem checkOwnerSlot_watched (s : Watch) (role : Role) (u : String) :
    HWatched S user s (checkOwnerSlot role u) fun _ s' =>
      u = user → role = .ownerPhone → s'.clear = true := by
  unfold checkOwnerSlot
  by_cases hrole : role = .ownerPhone
  · rw [if_pos hrole]
    refine (HWatched.look u).bind fun has s₁ hlook => ?_
    cases has with
    | error e => exact HWatched.throw
    | ok has =>
        refine HWatched.replyIf.mono fun _ s₂ hs₂ hu _ => ?_
        obtain ⟨rfl, hfree⟩ := hs₂
        cases has with
        | true => exact absurd rfl hfree
        | false => exact hlook hu rfl
  · rw [if_neg hrole]
    exact HWatched.pure fun _ h => absurd h hrole

theorem addDevice_watched (s : Watch) (me : Device) (req : RegisterReq) (name : String) :
    HWatched S user s (addDevice S me req name) fun _ _ => True := by
  unfold addDevice
  refine (HWatched.plain (honly_require _ _)).bind fun role _ _ => ?_
  refine (checkOwnerSlot_watched _ role me.userId).bind fun _ s₁ hslot => ?_
  refine (HWatched.still (honly_require _ _)).bind fun pub s₂ hs₂ => ?_
  refine (HWatched.still (honly_fingerprint S pub)).bind fun fp s₃ hs₃ => ?_
  refine HWatched.replyIf.bind fun _ s₄ hs₄ => ?_
  refine (HWatched.store_register fun hu hrole => .inl ?_).bind fun _ _ _ =>
    HWatched.pure trivial
  rw [hs₄.1, hs₃, hs₂]
  exact hslot hu hrole

/-- A device that is only renamed has its row already. -/
theorem renameDevice_watched {s : Watch} {existing : Device} (hseen : existing.id ∈ s.seen)
    (me : Device) (req : RegisterReq) (name : String) :
    HWatched S user s (renameDevice me existing req name) fun _ _ => True := by
  unfold renameDevice
  refine HWatched.replyIf.bind fun _ s₁ hs₁ => ?_
  refine (HWatched.still (honly_require _ _)).bind fun pub s₂ hs₂ => ?_
  refine HWatched.replyIf.bind fun _ s₃ hs₃ => ?_
  refine HWatched.replyIf.bind fun _ s₄ hs₄ => ?_
  refine (HWatched.register fun _ _ => .inr ?_).bind fun stored s₅ _ => ?_
  · rw [hs₄.1, hs₃.1, hs₂, hs₁.1]
    exact hseen
  · refine HWatched.replyIf.bind fun _ _ _ => ?_
    refine (HWatched.plain (honly_attempt
      (show Call.Plain user (.store (.getDevice req.deviceId)) from trivial))).bind fun r _ _ => ?_
    cases r with
    | error e => exact HWatched.pure trivial
    | ok cur => exact HWatched.pure trivial

theorem devicesRegister_watched (s : Watch) (rid : String) (me : Device)
    (body : Json RegisterReq) :
    HWatched S user s (handleDevicesRegister S rid me body) fun _ _ => True := by
  unfold handleDevicesRegister
  refine (HWatched.plain (idempotent_plain rid)).bind fun _ _ _ => ?_
  refine (HWatched.plain (honly_decode body)).bind fun req _ _ => ?_
  refine HWatched.replyIf.bind fun _ _ _ => ?_
  refine (HWatched.plain (honly_require _ _)).bind fun name _ _ => ?_
  refine (HWatched.read req.deviceId).bind fun r s₁ hread => ?_
  cases r with
  | ok existing => exact renameDevice_watched (hread existing rfl) me req name
  | error e =>
      cases e with
      | notFound => exact addDevice_watched s₁ me req name
      | _ => exact HWatched.throw

/-! ### Tasks -/

theorem reply_watched {s : Watch} {h : H Reply} (hh : HWatched S user s h fun _ _ => True) :
    Watched user s (toSrv S h.reply) fun _ _ => True := by
  unfold H.reply
  rw [toSrv_bind]
  refine Prog.Leads.bind hh.run fun r _ _ => ?_
  cases r with
  | error rep => trivial
  | ok rep => trivial

/-- The handler looks before it inserts, whatever was seen before it. -/
def Handler.Watches (S : Server) (user : String) : Handler → Prop
  | .plain h => ∀ s, HWatched S user s h fun _ _ => True
  | .authed next => ∀ me u s, HWatched S user s (next me u) fun _ _ => True

theorem watches_plain {r : Request} (hroute : ∀ d, r.route.Writes (.registerDevice d) →
    ¬(d.userId = user ∧ d.role = .ownerPhone)) : (routes S r).Watches S user := by
  have hkeeps : (routes S r).Keeps (Call.Plain user) :=
    (routes_callsAs S r).mono fun _ hc => plain_of_callsAs hroute hc
  cases hr : routes S r with
  | plain h =>
      rw [hr] at hkeeps
      exact fun s => HWatched.plain hkeeps
  | authed next =>
      rw [hr] at hkeeps
      exact fun me u s => HWatched.plain (hkeeps me u)

theorem routes_watched (r : Request) : (routes S r).Watches S user := by
  obtain ⟨hdr, rid, route⟩ := r
  cases route with
  | bootstrap body => exact fun s => bootstrap_watched s rid body
  | devicesRegister body => exact fun me _ s => devicesRegister_watched s rid me body
  | pairingDecision id body =>
      refine watches_plain fun d hd howner => ?_
      have hcomputer : d.role = .computer := hd
      rw [hcomputer] at howner
      cases howner.2
  | _ => exact watches_plain fun _ hw => absurd hw id

theorem serve_watched (s : Watch) (r : Request) :
    Watched user s (serve S r) fun _ _ => True := by
  have hroutes : (routes S r).Watches S user := routes_watched r
  unfold serve
  cases hroute : routes S r with
  | plain h =>
      rw [hroute] at hroutes
      exact reply_watched (hroutes s)
  | authed next =>
      rw [hroute] at hroutes
      have hauth : HOnly (Route.healthz.CallsAs fun _ => True) (authenticate r.authorization) :=
        honly_authenticate _
      have hplain : HWatched S user s (authenticate r.authorization) fun _ _ => True :=
        HWatched.plain (hauth.mono fun _ hc => plain_of_callsAs (fun _ hw => absurd hw id) hc)
      refine Prog.Leads.bind hplain.run fun who s' _ => ?_
      cases who with
      | error rep => trivial
      | ok who => exact ⟨nofun, fun _ => reply_watched (hroutes who.1 who.2 _)⟩

/-- **Every goroutine looks before it inserts an Owner.** -/
theorem task_watched (s : Watch) (t : Task) :
    Watched user s (t.code S) fun _ _ => True := by
  cases t with
  | request r => exact Prog.Leads.bind (serve_watched s r) fun _ _ _ => trivial
  | upgrade u =>
      refine watched_only (noOwner_yields.upgrade noOwner_outer nofun nofun (fun _ => trivial)
        (fun c hc => ?_) u)
      exact plain_of_callsAs (fun _ hw => absurd hw id) hc
  | catchup => exact watched_only (noOwner_yields.catchup noOwner_outer fun _ _ => trivial)

/-! ## Runs -/

/-- What the thread has seen is so. -/
structure Watch.Holds (user : String) (p : PgState) (s : Watch) : Prop where
  clear : s.clear = true → p.owners user = []
  seen : ∀ id ∈ s.seen, (p.device id).isSome = true

/-- The thread looks at the user's devices again before it inserts an Owner in a
row that is free. -/
def Unready (user : String) (p : PgState) (q : Srv.M Outcome) : Prop :=
  ∃ s : Watch, s.clear = false ∧ (∀ id ∈ s.seen, (p.device id).isSome = true) ∧
    Watched user s q fun _ _ => True

/-- Where a thread inserts an Owner of the user, no other thread is between its
look and its insert. -/
def AloneReady (user : String) (c : Config Task World Srv Srv.Ans Outcome) :
    Label Task Oracle Env → Prop
  | .act i _ => ∀ t d k, c.pool[i]? = some (t, .call (.core (.pg (.insertDevice d))) k) →
      d.isOwnerOf user = true → c.world.pg.device d.id = none →
        ∀ j x, c.pool[j]? = some x → j ≠ i → Unready user c.world.pg x.2
  | _ => True

/-- At most one Owner, and what the threads have seen is so. -/
structure Sole (user : String) (c : Config Task World Srv Srv.Ans Outcome) : Prop where
  unstaged : Unstaged c.world.pg
  one : (c.world.pg.owners user).length ≤ 1
  threads : ∀ x ∈ c.pool, ∃ s, Watched user s x.2 (fun _ _ => True) ∧ s.Holds user c.world.pg

variable {c c' : Config Task World Srv Srv.Ans Outcome}

theorem Sole.start : Sole user boot where
  unstaged := nofun
  one := Nat.zero_le _
  threads _ hin := absurd hin List.not_mem_nil

theorem Sole.spawn (h : Sole user c) (t : Task) :
    Sole user { c with pool := c.pool ++ [(t, t.code S)] } where
  unstaged := h.unstaged
  one := h.one
  threads x hin := by
    obtain hold | hnew := List.mem_append.mp hin
    · exact h.threads x hold
    · cases List.mem_singleton.mp hnew
      exact ⟨{}, task_watched {} t, nofun, fun _ hm => absurd hm List.not_mem_nil⟩

theorem Sole.env (h : Sole user c) {e : Env} {w : World} (hstep : e.step c.world = some w) :
    Sole user { c with world := w } := by
  obtain ⟨tm, hpg⟩ := Env.step_pg hstep
  refine ⟨?_, ?_, fun x hin => ?_⟩
  · rw [hpg]
    exact h.unstaged
  · rw [hpg]
    exact h.one
  · obtain ⟨s, hwatched, hclear, hseen⟩ := h.threads x hin
    rw [hpg]
    exact ⟨s, hwatched, hclear, hseen⟩

/-- Rows stay. -/
theorem row_kept {p p' : PgState} {i : Nat} {c : PgCmd} {f : Fault} {r : Except PgErr c.Ret}
    (hx : c.exec i f p = some (p', r)) {id : String} (h : (p.device id).isSome = true) :
    (p'.device id).isSome = true := by
  obtain ⟨ht, -⟩ | ⟨ws, -, ht, -⟩ := PgCmd.exec_tables hx
  · rw [ht]
    exact h
  · rw [ht]
    exact Tables.device_isSome_writes ws h

section Act

variable {i : Nat} {o : Oracle} {cmd : Srv} {w w' : World} {r : cmd.Ans}

theorem exec_row (hx : cmd.exec i o w = some (w', r)) {id : String}
    (h : (w.pg.device id).isSome = true) : (w'.pg.device id).isSome = true := by
  obtain hsame | ⟨c, r', -, hc⟩ := Srv.exec_pg cmd hx
  · rw [hsame]
    exact h
  · exact row_kept hc h

/-- The command inserts an Owner of the user in a row that is free. -/
def Crowns (user : String) (p : PgState) (c : Srv) : Prop :=
  ∃ d, c = .core (.pg (.insertDevice d)) ∧ d.isOwnerOf user = true ∧ p.device d.id = none

theorem exec_owners (hun : Unstaged w.pg) (hx : cmd.exec i o w = some (w', r))
    (hnot : ¬Crowns user w.pg cmd) :
    (w'.pg.owners user).length ≤ (w.pg.owners user).length := by
  obtain hsame | ⟨c, r', rfl, hc⟩ := Srv.exec_pg cmd hx
  · exact Nat.le_of_eq (by rw [hsame])
  · refine owners_exec hun (fun d hd => ?_) hc
    subst hd
    cases howner : d.isOwnerOf user with
    | false => exact .inl rfl
    | true =>
        refine .inr (Option.isSome_iff_ne_none.mpr fun hfree => hnot ⟨d, rfl, howner, hfree⟩)

/-- What was seen stays so, where no Owner is inserted. -/
theorem Watch.Holds.kept {s : Watch} (h : s.Holds user w.pg) (hun : Unstaged w.pg)
    (hx : cmd.exec i o w = some (w', r)) (hnot : ¬Crowns user w.pg cmd) :
    s.Holds user w'.pg where
  clear hclear := by
    have hle := exec_owners hun hx hnot
    rw [h.clear hclear] at hle
    exact List.eq_nil_of_length_eq_zero (Nat.le_zero.mp hle)
  seen id hid := exec_row hx (h.seen id hid)

/-- A statement that succeeded. -/
theorem exec_succeeds {c : PgCmd} {a : c.Ret}
    (hx : Srv.exec i (.core (.pg c)) o w = some (w', .ok a)) :
    c.step i w.pg = some (w'.pg, .ok a) := by
  simp only [Srv.exec, Core.exec] at hx
  cases hc : c.exec i o.fault w.pg with
  | none =>
      rw [hc] at hx
      cases hx
  | some x =>
      obtain ⟨p', r⟩ := x
      rw [hc] at hx
      cases hx
      exact PgCmd.exec_ok hc

theorem Watch.Holds.look {s : Watch} (h : s.Holds user w'.pg) {u : String}
    {r : (Srv.core (.pg (.selectUserDevices u))).Ans}
    (hx : (Srv.core (.pg (.selectUserDevices u))).exec i o w = some (w', r)) :
    (s.next user (.core (.pg (.selectUserDevices u))) r).Holds user w'.pg := by
  by_cases hu : u = user
  · subst hu
    cases r with
    | error e =>
        show (if u = u then _ else s : Watch).Holds u w'.pg
        rw [if_pos rfl]
        exact ⟨nofun, h.seen⟩
    | ok devices =>
        show (if u = u then _ else s : Watch).Holds u w'.pg
        rw [if_pos rfl]
        refine ⟨fun hclear => ?_, h.seen⟩
        have hread := exec_succeeds hx
        simp only [PgCmd.step, Option.some.injEq, Prod.mk.injEq] at hread
        obtain ⟨hpg, hdevices⟩ := hread
        cases hdevices
        rw [← hpg]
        refine List.filter_eq_nil_iff.mpr fun d hd howner => ?_
        have hnone := of_decide_eq_true hclear
        refine hnone (List.any_eq_true.mpr ⟨d, ?_, howner⟩)
        exact List.mem_filter.mpr ⟨hd, decide_eq_true (of_decide_eq_true howner).1⟩
  · show (if u = user then _ else s : Watch).Holds user w'.pg
    rw [if_neg hu]
    exact h

theorem Watch.Holds.read {s : Watch} (h : s.Holds user w'.pg) {id : String}
    {r : (Srv.core (.pg (.selectDevice id))).Ans}
    (hx : (Srv.core (.pg (.selectDevice id))).exec i o w = some (w', r)) :
    (s.next user (.core (.pg (.selectDevice id))) r).Holds user w'.pg := by
  cases r with
  | error e => exact h
  | ok row =>
      cases row with
      | none => exact h
      | some d =>
          refine ⟨h.clear, fun id' hid => ?_⟩
          have hread := exec_succeeds hx
          simp only [PgCmd.step, Option.some.injEq, Prod.mk.injEq] at hread
          obtain ⟨hpg, hrow⟩ := hread
          obtain rfl | hold := List.mem_cons.mp hid
          · have hd : w.pg.device id = some d := Except.ok.inj hrow
            rw [← hpg, Tables.device_id hd, hd]
            rfl
          · exact h.seen id' hold

/-- A look sees what is so. -/
theorem Watch.Holds.next {s : Watch} (h : s.Holds user w'.pg)
    (hx : cmd.exec i o w = some (w', r)) : (s.next user cmd r).Holds user w'.pg := by
  cases cmd with
  | core c =>
      cases c with
      | pg c =>
          cases c with
          | selectUserDevices u => exact h.look hx
          | selectDevice id => exact h.read hx
          | insertDevice d =>
              show (if d.isOwnerOf user = true then _ else s : Watch).Holds user w'.pg
              by_cases howner : d.isOwnerOf user = true
              · rw [if_pos howner]
                exact ⟨nofun, h.seen⟩
              · rw [if_neg howner]
                exact h
          | _ => exact h
      | _ => exact h
  | _ => exact h

/-- One command of a thread. -/
theorem Sole.act (h : Sole user c) {t : Task} {k : cmd.Ans → Srv.M Outcome}
    (hi : c.pool[i]? = some (t, .call cmd k)) (hx : cmd.exec i o c.world = some (w, r))
    (halone : Crowns user c.world.pg cmd →
      ∀ j x, c.pool[j]? = some x → j ≠ i → Unready user c.world.pg x.2) :
    Sole user ⟨w, c.pool.set i (t, k r)⟩ := by
  have hun : Unstaged w.pg := by
    obtain hsame | ⟨cmd', r', -, hc⟩ := Srv.exec_pg cmd hx
    · rw [hsame]
      exact h.unstaged
    · exact h.unstaged.exec hc
  obtain ⟨s, hwatched, hholds⟩ := h.threads _ (List.mem_of_getElem? hi)
  obtain ⟨hok, hrest⟩ : s.Ok user cmd ∧
    ∀ a, Watched user (s.next user cmd a) (k a) fun _ _ => True := hwatched
  by_cases hcrowns : Crowns user c.world.pg cmd
  · have hothers := halone hcrowns
    obtain ⟨d, rfl, howner, hfree⟩ := hcrowns
    have hclear : s.clear = true := by
      obtain hclear | hseen := hok d rfl howner
      · exact hclear
      · have hrow := hholds.seen d.id hseen
        rw [hfree] at hrow
        cases hrow
    refine ⟨hun, ?_, fun x hin => ?_⟩
    · obtain hsame | ⟨cmd', r', heq, hc⟩ := Srv.exec_pg _ hx
      · rw [hsame]
        exact h.one
      · cases heq
        have hle : (w.pg.owners user).length ≤ (c.world.pg.owners user).length + 1 :=
          owners_insert hc
        rw [hholds.clear hclear] at hle
        exact hle
    · obtain ⟨j, hj⟩ := List.getElem?_of_mem hin
      by_cases hij : i = j
      · subst hij
        rw [List.getElem?_set_self (List.getElem?_eq_some_iff.mp hi).1] at hj
        cases hj
        refine ⟨_, hrest r, ?_⟩
        have hnext : s.next user (.core (.pg (.insertDevice d))) r = { s with clear := false } := by
          show (if d.isOwnerOf user = true then _ else _ : Watch) = _
          rw [if_pos howner]
        rw [hnext]
        exact ⟨nofun, fun id hid => exec_row hx (hholds.seen id hid)⟩
      · rw [List.getElem?_set_ne hij] at hj
        obtain ⟨s', hclear', hseen', hwatched'⟩ := hothers j x hj (Ne.symm hij)
        refine ⟨s', hwatched', fun h' => ?_, fun id hid => exec_row hx (hseen' id hid)⟩
        rw [hclear'] at h'
        cases h'
  · refine ⟨hun, Nat.le_trans (exec_owners h.unstaged hx hcrowns) h.one, fun x hin => ?_⟩
    obtain hold | hnew := List.mem_or_eq_of_mem_set hin
    · obtain ⟨s', hwatched', hholds'⟩ := h.threads x hold
      exact ⟨s', hwatched', hholds'.kept h.unstaged hx hcrowns⟩
    · subst hnew
      exact ⟨_, hrest r, (hholds.kept h.unstaged hx hcrowns).next hx⟩

end Act

theorem Sole.step (h : Sole user c) {l : Label Task Oracle Env} (halone : AloneReady user c l)
    (hs : (backend S).next c l = some c') : Sole user c' := by
  cases l with
  | spawn t =>
      cases hs
      exact h.spawn t
  | env e =>
      obtain ⟨w, hstep, rfl⟩ := System.next_env hs
      exact h.env hstep
  | act i o =>
      obtain ⟨t, cmd, k, w, r, hi, hx, rfl⟩ := System.next_act hs
      refine h.act hi hx ?_
      rintro ⟨d, rfl, howner, hfree⟩
      exact halone t d k hi howner hfree

/-- **One active Owner.**  In every run of any number of requests in which nobody
else is between a look at the user's devices and an insert when an Owner is
inserted, every user has at most one unrevoked Owner. -/
theorem one_active_owner (hrun : (backend S).Reach (AloneReady user) boot c) :
    (c.world.pg.owners user).length ≤ 1 := by
  have hsole : Sole user c := by
    induction hrun with
    | refl => exact Sole.start
    | step _ halone hs ih => exact ih.step halone hs
  exact hsole.one

/-! ## Runs that keep to the condition -/

/-- What the threads have seen after a step. -/
def watchesAfter (user : String) (c : Config Task World Srv Srv.Ans Outcome) (ws : List Watch) :
    Label Task Oracle Env → List Watch
  | .spawn _ => ws ++ [{}]
  | .env _ => ws
  | .act i o =>
      match c.pool[i]?, ws[i]? with
      | some (_, .call cmd _), some s =>
          match cmd.exec i o c.world with
          | some (_, r) => ws.set i (s.next user cmd r)
          | none => ws
      | _, _ => ws

/-- The thread is over, or what it has seen leaves it to look again. -/
def unreadyNow (p : PgState) (q : Srv.M Outcome) (s : Watch) : Bool :=
  match q with
  | .ret _ => true
  | .call _ _ => !s.clear && s.seen.all fun id => (p.device id).isSome

/-- No other thread is ready where an Owner is inserted. -/
def aloneNow (user : String) (c : Config Task World Srv Srv.Ans Outcome) (ws : List Watch) :
    Label Task Oracle Env → Bool
  | .act i _ =>
      match c.pool[i]? with
      | some (_, .call (.core (.pg (.insertDevice d))) _) =>
          !d.isOwnerOf user || (c.world.pg.device d.id).isSome ||
            (List.range c.pool.length).all fun j => j = i ||
              match c.pool[j]?, ws[j]? with
              | some (_, q), some s => unreadyNow c.world.pg q s
              | _, _ => false
      | _ => true
  | _ => true

variable (S user) in
/-- The configuration after the labels that are enabled, if no Owner is inserted beside a
thread that is ready. -/
def replayAlone : Config Task World Srv Srv.Ans Outcome → List Watch →
    List (Label Task Oracle Env) → Option (Config Task World Srv Srv.Ans Outcome)
  | c, _, [] => some c
  | c, ws, l :: ls =>
      match (backend S).next c l with
      | none => replayAlone c ws ls
      | some c' =>
          if aloneNow user c ws l = true then replayAlone c' (watchesAfter user c ws l) ls
          else none

/-- The watches are those of the threads. -/
def AllWatched (user : String) (c : Config Task World Srv Srv.Ans Outcome) (ws : List Watch) :
    Prop :=
  List.Forall₂ (fun (x : Task × Srv.M Outcome) s => Watched user s x.2 fun _ _ => True) c.pool ws

theorem AllWatched.step {ws : List Watch} {l : Label Task Oracle Env} (h : AllWatched user c ws)
    (hs : (backend S).next c l = some c') : AllWatched user c' (watchesAfter user c ws l) := by
  cases l with
  | spawn t =>
      cases hs
      exact Aligned.concat h (task_watched {} t)
  | env e =>
      obtain ⟨w, -, rfl⟩ := System.next_env hs
      exact h
  | act i o =>
      obtain ⟨t, cmd, k, w, r, hi, hx, rfl⟩ := System.next_act hs
      obtain ⟨s, hsi, hwatched⟩ := Aligned.beside h hi
      have hafter : watchesAfter user c ws (.act i o) = ws.set i (s.next user cmd r) := by
        have hx' : cmd.exec i o c.world = some (w, r) := hx
        simp only [watchesAfter, hi, hsi, hx']
      rw [hafter]
      exact Aligned.set h (hwatched.2 r)

theorem unready_of_now {p : PgState} {q : Srv.M Outcome} {s : Watch}
    (hwatched : Watched user s q fun _ _ => True) (h : unreadyNow p q s = true) :
    Unready user p q := by
  cases q with
  | ret out => exact ⟨{}, rfl, fun _ hid => absurd hid List.not_mem_nil, trivial⟩
  | call cmd k =>
      simp only [unreadyNow, Bool.and_eq_true, Bool.not_eq_true', List.all_eq_true] at h
      exact ⟨s, h.1, h.2, hwatched⟩

theorem alone_of_now {ws : List Watch} {l : Label Task Oracle Env} (hall : AllWatched user c ws)
    (h : aloneNow user c ws l = true) : AloneReady user c l := by
  cases l with
  | spawn t => trivial
  | env e => trivial
  | act i o =>
      intro t d k hi howner hfree j x hj hne
      simp only [aloneNow, hi, howner, hfree, Bool.not_true, Option.isSome_none, Bool.false_or,
        List.all_eq_true, List.mem_range] at h
      obtain ⟨s, hsj, hwatched⟩ := Aligned.beside hall hj
      have hjlt := (List.getElem?_eq_some_iff.mp hj).1
      have hnow := h j hjlt
      simp only [hne, decide_false, Bool.false_or, hj, hsj] at hnow
      exact unready_of_now hwatched hnow

/-- **What is replayed alone** is a run that keeps to the condition. -/
theorem replayAlone_reach {ws : List Watch} {ls : List (Label Task Oracle Env)}
    (hall : AllWatched user c ws) (h : replayAlone S user c ws ls = some c') :
    (backend S).Reach (AloneReady user) c c' := by
  induction ls generalizing c ws with
  | nil =>
      cases h
      exact .refl
  | cons l ls ih =>
      rw [replayAlone] at h
      cases hn : (backend S).next c l with
      | none =>
          rw [hn] at h
          exact ih hall h
      | some c₁ =>
          rw [hn] at h
          obtain ⟨hnow, h⟩ := Option.ite_none_right_eq_some.mp h
          exact System.Reach.trans (.step .refl (alone_of_now hall hnow) hn)
            (ih (hall.step hn) h)

/-- The user that a bootstrap with the byte 1 creates. -/
def firstUser : String := Text.hexEncode (List.replicate 16 1)

/-- The Owner registers an Owner, with a computer's key. -/
def firstClaim : Request :=
  Sample.registerReq 3 "claim-1" "PH-8" Sample.computerKey "owner_phone"

/-- And another one. -/
def secondClaim : Request :=
  Sample.registerReq 3 "claim-2" "PH-9" Sample.otherKey "owner_phone"

/-- Both requests are authenticated. -/
def bothClaim : Sample.Conf :=
  (backend Sample.server).serve
    ((backend Sample.server).serve Sample.ownerIn (.request firstClaim) ((Sample.seed 7).take 4))
    (.request secondClaim) ((Sample.seed 8).take 4)

/-- Then the Owner revokes itself. -/
def vacated : Sample.Conf := Sample.ask bothClaim 9 (Sample.revokeReq 3 "leave" "PH-1")

/-- The first request looks, the second looks and inserts, and the first inserts. -/
def bothCrowned : Sample.Conf :=
  (backend Sample.server).drive
    ((backend Sample.server).drive
      ((backend Sample.server).drive vacated 3 ((Sample.seed 7).take 3))
      4 (Sample.seed 8))
    3 (Sample.seed 7)

theorem bothCrowned_reach :
    (backend Sample.server).Reach (fun _ _ => True) boot bothCrowned := by
  have hclaims : (backend Sample.server).Reach (fun _ _ => True) boot bothClaim :=
    (Sample.ownerIn_reach.trans (System.serve_reach _ _ _)).trans (System.serve_reach _ _ _)
  have hvacated : (backend Sample.server).Reach (fun _ _ => True) boot vacated :=
    Sample.ask_reach hclaims 9 _
  exact ((hvacated.trans (System.drive_reach _ _ _)).trans (System.drive_reach _ _ _)).trans
    (System.drive_reach _ _ _)

/-- The steps of thread `i`, which draws the byte `n`. -/
def going (i : Nat) (n : UInt8) (steps : Nat) : List (Label Task Oracle Env) :=
  ((Sample.seed n).take steps).map fun o => .act i o

/-- A request served on its own, as thread `i`. -/
def asking (i : Nat) (x : UInt8 × Request) : List (Label Task Oracle Env) :=
  .spawn (.request x.2) :: going i x.1 16

/-- The two claims side by side: the first looks and inserts while the second, which is
authenticated, has yet to look. -/
def inTurn : List (Label Task Oracle Env) :=
  (Sample.ownerLogin.zipIdx.flatMap fun x => asking x.2 x.1) ++
    .spawn (.request firstClaim) :: going 3 7 4 ++
    .spawn (.request secondClaim) :: going 4 8 4 ++
    asking 5 (9, Sample.revokeReq 3 "leave" "PH-1") ++
    going 3 7 16 ++ going 4 8 16

/-- The two runs, replayed. -/
private theorem claims_run :
    (replayAlone Sample.server firstUser boot [] inTurn).any (fun c =>
        (replied c 3).map Reply.status = some 201 ∧
          (replied c 4).map Reply.status = some 403) = true ∧
      (bothCrowned.world.pg.owners firstUser).length = 2 := by
  decide +kernel

/-- One of two claims in flight is granted. -/
theorem one_active_owner_sample : ∃ c : Sample.Conf,
    ((replied c 3).map Reply.status = some 201 ∧ (replied c 4).map Reply.status = some 403) ∧
      (c.world.pg.owners firstUser).length ≤ 1 := by
  obtain ⟨c, hc, hstatus⟩ := Option.any_eq_true .. |>.mp claims_run.1
  exact ⟨c, of_decide_eq_true hstatus, one_active_owner (replayAlone_reach .nil hc)⟩

/-- Two registrations look before either inserts: the user has two Owners. -/
theorem two_owners :
    ¬∀ (S : Server) (user : String) (c : Config Task World Srv Srv.Ans Outcome),
      (backend S).Reach (fun _ _ => True) boot c → (c.world.pg.owners user).length ≤ 1 := by
  intro h
  have hle := h Sample.server firstUser bothCrowned bothCrowned_reach
  rw [claims_run.2] at hle
  exact absurd hle (by decide)

end Api

end Calcar
