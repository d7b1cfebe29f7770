import Calcar.Verified.DeviceRoutes
import Calcar.Verified.RequestIds

/-!
# Revocations that are taken for replays

The phone's device screen sends every revoke of a device under one request id,
made of the device id, and the server marks request ids for all callers alike.
Any request that has used that id within its 24 hours, whoever sent it and
whatever it came to, has the Owner's revoke answered as a replay.  And the revoke
of an id that makes no path or no header does not get as far as its handler.

## Main results

* `revokeDevice_working` — `RevokeDevice` on a registered device, with a
  working Postgres, sets the flag.
* `handleDeviceRevoke_working` — what the handler leaves.
* `revoke_lands_iff` — the device ends up revoked exactly when it was already,
  or the revoke can be sent and its request id bears no mark.
-/

namespace Calcar

open Lib Pg

variable {i : Nat} {w w' : World}

/-! ## Store methods that work -/

/-- A working statement whose error is mapped, and what follows it. -/
theorem runs_query_bind {α : Type} {c : PgCmd} {f : Except Err c.Ret → Core.M α} {a : α} :
    Prog.Runs Core.exec Working i (Postgres.query c >>= f) w a w' ↔
      ∃ p' r, c.exec i .none w.pg = some (p', r) ∧
        Prog.Runs Core.exec Working i (f (Postgres.reported r)) (w.setPg p') a w' := by
  rw [Prog.runs_bind]
  constructor
  · intro h
    obtain ⟨r, w₁, hq, hf⟩ := h
    obtain ⟨r', hpg, hr⟩ := runs_query.mp hq
    obtain ⟨p', hstep, hw⟩ := runs_pg_working.mp hpg
    rw [hr, hw] at hf
    exact ⟨p', r', hstep, hf⟩
  · intro h
    obtain ⟨p', r, hstep, hf⟩ := h
    exact ⟨_, _, runs_query.mpr ⟨r, runs_pg_working.mpr ⟨p', hstep, rfl⟩, rfl⟩, hf⟩

/-- A working statement with one text, which a column takes. -/
theorem exec_text {c : PgCmd} {text : String} {p : PgState} (hc : c.texts = [text])
    (htext : '\x00' ∉ text.toList) : c.exec i .none p = c.step i p := by
  refine PgCmd.exec_none (PgCmd.refused_false ?_)
  rw [hc]
  exact List.forall_mem_singleton.mpr htext

/-- `GetDevice` of a registered device. -/
theorem getDevice_working {id : String} {d : Device} {r : Except Err Device}
    (h : Prog.Runs Core.exec Working i (Postgres.getDevice id) w r w')
    (hid : '\x00' ∉ id.toList) (hd : w.pg.device id = some d) : r = .ok d ∧ w' = w := by
  obtain ⟨p', r', hstep, hk⟩ := runs_query_bind.mp h
  have hread : (PgCmd.selectDevice id).step i w.pg = some (w.pg, .ok (some d)) := by
    show some (w.pg, Except.ok (w.pg.device id)) = _
    rw [hd]
  rw [exec_text rfl hid, hread] at hstep
  cases hstep
  exact Prog.runs_ret.mp hk

/-- `IsRevoked`. -/
theorem isRevoked_working {id : String} {r : Except Err Bool}
    (h : Prog.Runs Core.exec Working i (Postgres.isRevoked id) w r w')
    (hid : '\x00' ∉ id.toList) : r = .ok (w.pg.isRevoked id) ∧ w' = w := by
  obtain ⟨r', hpg, hr⟩ := runs_query.mp h
  obtain ⟨p', hstep, hw⟩ := runs_pg_working.mp hpg
  rw [exec_text rfl hid] at hstep
  cases hstep
  exact ⟨hr, hw⟩

/-- Inside a live transaction a statement runs. -/
theorem inTx_live {α : Type} {p : PgState} {tx : Tx} (htx : p.txs i = some tx)
    (hlive : tx.aborted = false) (k : Tx → Option (PgState × Except PgErr α)) :
    PgCmd.inTx i p k = k tx := by
  unfold PgCmd.inTx
  rw [htx]
  exact if_neg (by rw [hlive]; decide)

/-- `COMMIT` of a live transaction. -/
theorem commit_live {p : PgState} {tx : Tx} (htx : p.txs i = some tx)
    (hlive : tx.aborted = false) :
    PgCmd.commit.step i p = some (closeTx (commitWrites p i tx.writes) i, .ok ()) := by
  rw [PgCmd.step, htx]
  exact if_neg (by rw [hlive]; decide)

/-- **`RevokeDevice`** sets the flag of a registered device. -/
theorem revokeDevice_working {id by' why : String} {r : Except Err Unit}
    (h : Prog.Runs Core.exec Working i (Postgres.revokeDevice id by' why) w r w')
    (hid : '\x00' ∉ id.toList) (hby : '\x00' ∉ by'.toList) (hwhy : '\x00' ∉ why.toList)
    (hd : (w.pg.device id).isSome = true) : r = .ok () ∧ w'.pg.Revoked id := by
  -- `BEGIN`: the transaction is the thread's own, and empty
  obtain ⟨p₁, r₁, hbegin, h⟩ := runs_pg_bind.mp h
  rw [PgCmd.exec_none rfl] at hbegin
  cases hbegin
  have htx₁ : (setTx w.pg i (some {})).txs i = some {} := setTx_self _ _ _
  obtain ⟨rb, w₁, hbody, hroll⟩ := Prog.runs_bind.mp h
  -- the device exists
  obtain ⟨p₂, r₂, hexists, hbody⟩ := runs_pg_bind.mp hbody
  have hlooked : (PgCmd.txDeviceExists id).step i (setTx w.pg i (some {})) =
      some (setTx w.pg i (some {}), .ok true) := by
    show PgCmd.inTx i _ _ = _
    rw [inTx_live htx₁ rfl]
    show some (_, Except.ok (w.pg.device id).isSome) = _
    rw [hd]
  rw [World.setPg_pg, exec_text rfl hid, hlooked] at hexists
  cases hexists
  -- the record and the flag wait in the transaction
  obtain ⟨p₃, r₃, hrecord, hbody⟩ := runs_query_bind.mp hbody
  have hrecorded : (PgCmd.txAddRevocation ⟨id, by', why⟩).step i (setTx w.pg i (some {})) =
      some (stage (setTx w.pg i (some {})) i {} (.addRevocation ⟨id, by', why⟩), .ok ()) := by
    show PgCmd.inTx i _ _ = _
    rw [inTx_live htx₁ rfl]
  have htaken : (PgCmd.txAddRevocation ⟨id, by', why⟩).refused = false :=
    PgCmd.refused_false (by simp [PgCmd.texts, hid, hby, hwhy])
  simp only [World.setPg_pg, World.setPg_setPg] at hrecord
  rw [PgCmd.exec_none htaken, hrecorded] at hrecord
  cases hrecord
  generalize hp₃ :
    stage (setTx w.pg i (some {})) i {} (.addRevocation ⟨id, by', why⟩) = p₃ at hbody
  have htx₃ : p₃.txs i = some { writes := [.addRevocation ⟨id, by', why⟩] } := by
    rw [← hp₃]
    exact setTx_self _ _ _
  have hrow₃ : (p₃.device id).isSome = true := by
    rw [← hp₃]
    exact hd
  obtain ⟨p₄, r₄, hflag, hbody⟩ := runs_query_bind.mp hbody
  have hset : (PgCmd.txRevokeDevice id).step i p₃ =
      if lockable p₃ i (.device id) = true then
        some (lock (stage p₃ i { writes := [.addRevocation ⟨id, by', why⟩] }
          (.revokeDevice id)) i (.device id), .ok ())
      else none := by
    show PgCmd.inTx i _ _ = _
    rw [inTx_live htx₃ rfl]
  rw [World.setPg_pg, exec_text rfl hid, hset] at hflag
  by_cases hlock : lockable p₃ i (.device id) = true
  · rw [if_pos hlock] at hflag
    cases hflag
    -- `COMMIT` writes both, and the deferred rollback finds nothing to undo
    obtain ⟨p₅, r₅, hcommit, hbody⟩ := runs_pg_bind.mp hbody
    have htx₅ : (lock (stage p₃ i { writes := [.addRevocation ⟨id, by', why⟩] }
        (.revokeDevice id)) i (.device id)).txs i =
          some { writes := [.addRevocation ⟨id, by', why⟩, .revokeDevice id] } := by
      rw [lock_txs]
      exact setTx_self _ _ _
    rw [World.setPg_pg, PgCmd.exec_none rfl, commit_live htx₅ rfl] at hcommit
    cases hcommit
    obtain ⟨hrb, hw₁⟩ := Prog.runs_ret.mp hbody
    obtain ⟨p₆, r₆, hrollback, hret⟩ := runs_pg_bind.mp hroll
    rw [PgCmd.exec_none rfl] at hrollback
    cases hrollback
    obtain ⟨hr, hw'⟩ := Prog.runs_ret.mp hret
    refine ⟨hr.trans hrb, ?_⟩
    rw [hw', hw₁]
    exact Tables.revoked_of_mem (List.mem_cons_of_mem _ List.mem_cons_self) hrow₃
  · rw [if_neg hlock] at hflag
    cases hflag

/-- A program without statements leaves Postgres as it is. -/
theorem off_pg_keeps {α : Type} {p : Core.M α} {ok : Oracle → Prop} {a : α}
    (hp : p.Only fun c => ∀ s, c ≠ .pg s) (h : Prog.Runs Core.exec ok i p w a w') :
    w'.pg = w.pg := by
  refine hp.runs (I := fun w₁ => w₁.pg = w.pg) (fun c o w₁ w₂ r hc hx hk => ?_) h rfl
  cases c with
  | pg s => exact absurd rfl (hc s)
  | rand n =>
      simp only [Core.exec] at hx
      split at hx
      · cases hx
        exact hk
      · cases hx
  | _ =>
      cases hx
      exact hk

namespace Api

open Trust

variable {S : Server}

/-! ## The handler -/

/-- The id of a request is marked, unless it is already. -/
theorem idempotent_working {hdr : String} {r : Except Reply Unit}
    (h : HRuns S Working i (idempotent hdr) w r w') (hblank : Text.trimSpace hdr ≠ "") :
    w'.pg = w.pg ∧ (r = .ok () ↔ w.rd.replay.get w.rd.now (Text.trimSpace hdr) = none) := by
  unfold idempotent at h
  obtain ⟨_, w₁, hif, hmark⟩ | ⟨e, hif, _⟩ := hruns_bind.mp h
  · obtain ⟨hw₁, _⟩ := hruns_replyIf.mp hif
    rw [hw₁] at hmark
    have hargs : ¬(Text.trimSpace hdr = "" ∨ requestIDTTL ≤ 0) := by
      intro hor
      obtain hb | ht := hor
      · exact hblank hb
      · exact absurd ht (by decide)
    have hcall : ∀ {a : Except Err Unit},
        Prog.Runs Core.exec Working i
          (Redis.checkAndMarkRequest (Text.trimSpace hdr) requestIDTTL) w a w' →
        w'.pg = w.pg ∧
          (a = .ok () ↔ w.rd.replay.get w.rd.now (Text.trimSpace hdr) = none) := by
      intro a hrun
      unfold Redis.checkAndMarkRequest at hrun
      rw [if_neg hargs] at hrun
      have hrest := runs_rd_bind.mp hrun
      cases hget : w.rd.replay.get w.rd.now (Text.trimSpace hdr) with
      | none =>
          have hstep : ((RdCmd.setnxReplay (Text.trimSpace hdr) requestIDTTL).step i w.rd).2 =
              true := by
            rw [RdCmd.step, hget]
            rfl
          rw [hstep] at hrest
          obtain ⟨ha, hw⟩ := Prog.runs_ret.mp hrest
          rw [hw]
          exact ⟨rfl, fun _ => rfl, fun _ => ha⟩
      | some u =>
          have hstep : ((RdCmd.setnxReplay (Text.trimSpace hdr) requestIDTTL).step i w.rd).2 =
              false := by
            rw [RdCmd.step, hget]
            rfl
          rw [hstep] at hrest
          obtain ⟨ha, hw⟩ := Prog.runs_ret.mp hrest
          rw [hw, ha]
          exact ⟨rfl, fun hok => (by cases hok), fun hnone => (by cases hnone)⟩
    unfold markRequest at hmark
    obtain ⟨a, hr, hrun⟩ | ⟨e, hr, hrun⟩ := hruns_store.mp hmark
    · obtain ⟨hpg, hiff⟩ := hcall hrun
      refine ⟨hpg, fun _ => hiff.mp rfl, fun _ => hr⟩
    · obtain ⟨hpg, hiff⟩ := hcall hrun
      refine ⟨hpg, fun hok => ?_, fun hfree => ?_⟩
      · rw [hr] at hok
        cases hok
      · have herr := hiff.mpr hfree
        cases herr
  · obtain ⟨_, ⟨hb, _⟩ | ⟨_, he⟩⟩ := hruns_replyIf.mp hif
    · exact absurd hb hblank
    · cases he

/-- A part that cannot end the handler goes on to the rest. -/
theorem hruns_past {β γ : Type} {x : H β} {f : β → H γ} {r : Except Reply γ}
    (h : HRuns S Working i (x >>= f) w r w')
    (hx : ∀ e w₁, ¬HRuns S Working i x w (.error e) w₁) :
    ∃ a w₁, HRuns S Working i x w (.ok a) w₁ ∧ HRuns S Working i (f a) w₁ r w' := by
  obtain hrest | ⟨e, hend, _⟩ := hruns_bind.mp h
  · exact hrest
  · exact absurd hend (hx e w')

/-- A check that does not apply is passed. -/
theorem hruns_unless {γ : Type} {c : Prop} [Decidable c] {rep : Reply} {f : Unit → H γ}
    {r : Except Reply γ} (h : HRuns S Working i (replyIf c rep >>= f) w r w') (hc : ¬c) :
    HRuns S Working i (f ()) w r w' := by
  obtain ⟨_, w₁, hif, hrest⟩ := hruns_past h fun e w₁ hend => by
    obtain ⟨_, ⟨ht, _⟩ | ⟨_, he⟩⟩ := hruns_replyIf.mp hend
    · exact hc ht
    · cases he
  rw [(hruns_replyIf.mp hif).1] at hrest
  exact hrest

/-- A registered device of the caller's user is a target. -/
theorem ownTarget_working {me dev : Device} {id : String} {r : Except Reply Unit}
    (h : HRuns S Working i (ownTarget me id) w r w') (hid : '\x00' ∉ id.toList)
    (hdev : w.pg.device id = some dev) (huser : dev.userId = me.userId) :
    r = .ok () ∧ w' = w := by
  unfold ownTarget at h
  obtain ⟨d, w₁, hget, hrest⟩ := hruns_past h fun e w₁ hend => by
    obtain ⟨a, he, _⟩ | ⟨e, _, hrun⟩ := hruns_store.mp hend
    · cases he
    · cases (getDevice_working hrun hid hdev).1
  obtain ⟨a, ha, hrun⟩ | ⟨e, he, _⟩ := hruns_store.mp hget
  · obtain ⟨hd, hw₁⟩ := getDevice_working hrun hid hdev
    cases ha
    cases hd
    rw [hw₁] at hrest
    obtain ⟨hw', ⟨hother, _⟩ | ⟨_, hr⟩⟩ := hruns_replyIf.mp hrest
    · exact absurd huser hother
    · exact ⟨hr, hw'⟩
  · cases he

/-- What comes after the transaction leaves Postgres alone. -/
theorem afterRevoke_keeps {id : String} {bad : Err → Reply} {ev : Ws.Event}
    {rep : Reply} {r : Except Reply Reply}
    (h : HRuns S Working i (do
      store (.revokeDeviceTokens id) bad
      attempt (.notify ev)
      return rep) w r w') : w'.pg = w.pg := by
  have htokens : ∀ {a : Except Err Unit} {w₁ : World},
      Prog.Runs Core.exec Working i (Redis.revokeDeviceTokens id) w a w₁ → w₁.pg = w.pg :=
    fun hrun => off_pg_keeps (Redis.only_revokeDeviceTokens (fun _ _ h => by cases h)
      (fun _ _ _ h => by cases h) fun _ _ h => by cases h) hrun
  obtain ⟨_, w₁, hstore, hrest⟩ | ⟨e, hstore, _⟩ := hruns_bind.mp h
  · have hpg₁ : w₁.pg = w.pg := by
      obtain ⟨_, _, hrun⟩ | ⟨_, he, _⟩ := hruns_store.mp hstore
      · exact htokens hrun
      · cases he
    obtain ⟨_, w₂, htold, hret⟩ | ⟨e, htold, _⟩ := hruns_bind.mp hrest
    · obtain ⟨_, _, hrun⟩ := hruns_attempt.mp htold
      have hpg₂ : w₂.pg = w₁.pg :=
        off_pg_keeps (Prog.only_perform fun _ h => by cases h) hrun
      rw [(hruns_pure.mp hret).2, hpg₂, hpg₁]
    · obtain ⟨_, he, _⟩ := hruns_attempt.mp htold
      cases he
  · obtain ⟨_, he, _⟩ | ⟨_, _, hrun⟩ := hruns_store.mp hstore
    · cases he
    · exact htokens hrun

/-- The durable check lets an unrevoked device through. -/
theorem refuseRevoked_working {id : String} {bad : Reply} {r : Except Reply Unit}
    (h : HRuns S Working i (refuseRevoked id bad) w r w') (hid : '\x00' ∉ id.toList)
    (hactive : w.pg.isRevoked id = false) : r = .ok () ∧ w' = w := by
  unfold refuseRevoked at h
  obtain ⟨b, w₁, hask, hrest⟩ | ⟨e, hask, _⟩ := hruns_bind.mp h
  · obtain ⟨a, ha, hrun⟩ := hruns_attempt.mp hask
    obtain ⟨hb, hw₁⟩ := isRevoked_working hrun hid
    cases ha
    rw [hactive] at hb
    rw [hb, hw₁] at hrest
    exact hruns_pure.mp hrest
  · obtain ⟨_, he, _⟩ := hruns_attempt.mp hask
    cases he

/-- An unrevoked device passes the checks of `authed` with a token of its own. -/
theorem authenticate_working {hdr user : String} {me : Device}
    {r : Except Reply (Device × String)} (h : HRuns S Working i (authenticate hdr) w r w')
    (htoken : Ws.bearerToken hdr ≠ "") (hid : '\x00' ∉ me.id.toList)
    (hsession : w.rd.tokens.get w.rd.now (.access, Ws.bearerToken hdr) = some (me.id, user))
    (hrow : w.pg.device me.id = some me) (hactive : w.pg.isRevoked me.id = false) :
    r = .ok (me, user) ∧ w' = w := by
  unfold authenticate at h
  have h₁ := hruns_unless h htoken
  have hresolved : ∀ {a : Except Err (String × String)} {w₁ : World},
      Prog.Runs Core.exec Working i (Redis.resolveAccessToken (Ws.bearerToken hdr)) w a w₁ →
      a = .ok (me.id, user) ∧ w₁ = w := by
    intro a w₁ hrun
    have hrest := runs_rd_bind.mp hrun
    have hread : ((RdCmd.hgetallToken .access (Ws.bearerToken hdr)).step i w.rd).2 =
        some (me.id, user) := hsession
    rw [hread] at hrest
    exact Prog.runs_ret.mp hrest
  obtain ⟨who, w₁, hstore, h₂⟩ := hruns_past h₁ fun e w₁ hend => by
    obtain ⟨_, he, _⟩ | ⟨_, _, hrun⟩ := hruns_store.mp hend
    · cases he
    · cases (hresolved hrun).1
  have hwho : who = (me.id, user) ∧ w₁ = w := by
    obtain ⟨_, ha, hrun⟩ | ⟨_, he, _⟩ := hruns_store.mp hstore
    · cases ha
      exact ⟨Except.ok.inj (hresolved hrun).1, (hresolved hrun).2⟩
    · cases he
  rw [hwho.1, hwho.2] at h₂
  obtain ⟨dev, w₂, hget, h₃⟩ := hruns_past h₂ fun e w₁ hend => by
    obtain ⟨_, he, _⟩ | ⟨_, _, hrun⟩ := hruns_store.mp hend
    · cases he
    · cases (getDevice_working hrun hid hrow).1
  have hdev : dev = me ∧ w₂ = w := by
    obtain ⟨_, ha, hrun⟩ | ⟨_, he, _⟩ := hruns_store.mp hget
    · cases ha
      exact ⟨Except.ok.inj (getDevice_working hrun hid hrow).1,
        (getDevice_working hrun hid hrow).2⟩
    · cases he
  rw [hdev.1, hdev.2] at h₃
  have hflag : ¬me.revoked = true := by
    intro hrev
    have hbad := Tables.Revoked.isRevoked (t := w.pg.toTables) ⟨me, hrow, hrev⟩
    rw [hactive] at hbad
    cases hbad
  have h₄ := hruns_unless h₃ hflag
  obtain ⟨_, w₃, hrefuse, h₅⟩ | ⟨e, hrefuse, hr⟩ := hruns_bind.mp h₄
  · obtain ⟨hr, hw'⟩ := hruns_pure.mp h₅
    exact ⟨hr, hw'.trans (refuseRevoked_working hrefuse hid hactive).2⟩
  · cases (refuseRevoked_working hrefuse hid hactive).1

/-- **The revoke of an Owner**, once the request id is marked, sets the flag;
taken for a replay it changes nothing. -/
theorem handleDeviceRevoke_working {rid id : String} {me dev : Device} {r : Except Reply Reply}
    (h : HRuns S Working i
      (handleDeviceRevoke rid me id (some (.ok (Phone.buildRevokeBody "")))) w r w')
    (hblank : Text.trimSpace rid ≠ "") (hid : '\x00' ∉ id.toList)
    (hme : '\x00' ∉ me.id.toList) (howner : me.role = .ownerPhone)
    (hdev : w.pg.device id = some dev) (huser : dev.userId = me.userId) :
    w'.pg.Revoked id ↔
      dev.revoked = true ∨ w.rd.replay.get w.rd.now (Text.trimSpace rid) = none := by
  unfold handleDeviceRevoke at h
  obtain ⟨_, w₁, hmark, h⟩ | ⟨e, hmark, _⟩ := hruns_bind.mp h
  · obtain ⟨hpg, hfree⟩ := idempotent_working hmark hblank
    refine ⟨fun _ => .inr (hfree.mp rfl), fun _ => ?_⟩
    have h₁ := hruns_unless h (fun hrole => hrole howner)
    obtain ⟨req, w₂, hdecode, h₂⟩ := hruns_past h₁ fun e w₁ hend => by
      obtain ⟨_, ⟨_, _, he⟩ | ⟨_, hbad, _⟩⟩ := hruns_decode.mp hend
      · cases he
      · cases hbad
    have hdecoded : w₂ = w₁ ∧ req = Phone.buildRevokeBody "" := by
      obtain ⟨hw₂, ⟨a, ha, he⟩ | ⟨_, hbad, _⟩⟩ := hruns_decode.mp hdecode
      · cases ha
        exact ⟨hw₂, Except.ok.inj he⟩
      · cases hbad
    rw [hdecoded.1, hdecoded.2] at h₂
    have h₃ := hruns_unless h₂ (by decide)
    have hdev₁ : w₁.pg.device id = some dev := by
      rw [hpg]
      exact hdev
    obtain ⟨_, w₃, htarget, h₄⟩ := hruns_past h₃ fun e w₁ hend => by
      cases (ownTarget_working hend hid hdev₁ huser).1
    rw [(ownTarget_working htarget hid hdev₁ huser).2] at h₄
    have hsome : (w₁.pg.device id).isSome = true := by
      rw [hdev₁]
      rfl
    have hreason : '\x00' ∉ (Text.trimSpace (Phone.buildRevokeBody "").reason).toList := by decide
    obtain ⟨_, w₄, hrevoke, h₅⟩ := hruns_past h₄ fun e w₁ hend => by
      obtain ⟨_, he, _⟩ | ⟨_, _, hrun⟩ := hruns_store.mp hend
      · cases he
      · cases (revokeDevice_working hrun hid hme hreason hsome).1
    have hset : w₄.pg.Revoked id := by
      obtain ⟨_, _, hrun⟩ | ⟨_, he, _⟩ := hruns_store.mp hrevoke
      · exact (revokeDevice_working hrun hid hme hreason hsome).2
      · cases he
    rw [afterRevoke_keeps h₅]
    exact hset
  · obtain ⟨hpg, hfree⟩ := idempotent_working hmark hblank
    have hsame : w'.pg.Revoked id ↔ dev.revoked = true := by
      unfold Tables.Revoked
      rw [hpg, hdev]
      constructor
      · intro hrev
        obtain ⟨d, hd, hflag⟩ := hrev
        cases hd
        exact hflag
      · intro hflag
        exact ⟨dev, rfl, hflag⟩
    rw [hsame]
    refine ⟨.inl, fun hor => ?_⟩
    obtain hflag | hnone := hor
    · exact hflag
    · have hok := hfree.mpr hnone
      cases hok

/-! ## The revoke of the device screen -/

/-- The client holds a token of `me`, an active Owner. -/
structure OwnerAsks (w : World) (token : Option String) (me : Device) : Prop where
  held : Ws.bearerToken (Phone.authorizationOf token) ≠ ""
  session : ∃ user, w.rd.tokens.get w.rd.now
    (.access, Ws.bearerToken (Phone.authorizationOf token)) = some (me.id, user)
  row : w.pg.device me.id = some me
  role : me.role = .ownerPhone
  active : w.pg.isRevoked me.id = false

/-- What the phone's revoke comes to with working stores: it is served if it arrives, and
no store hears of it otherwise. -/
def RevokeSent (S : Server) (i : Nat) (token : Option String) (id : String) (w w' : World) :
    Prop :=
  match (Phone.revoke token id).bind Posted.revocation with
  | some r => ∃ rep, Served S Working i r w rep w'
  | none => w' = w

/-- The phone's request id is not blank. -/
theorem revokeIdempotencyKey_ne_empty (id : String) :
    Text.trimSpace (Phone.revokeIdempotencyKey id) ≠ "" := by
  refine Text.trimSpace_ne_empty (c := 'r') ?_ (by decide)
  unfold Phone.revokeIdempotencyKey
  rw [String.toList_append]
  exact List.mem_append_left _ (by decide)

/-- A text of a header is one that a column takes. -/
theorem headerText_taken {text : String} (h : Phone.HeaderText text) : '\x00' ∉ text.toList := by
  intro hnul
  obtain hc | ⟨hc, -⟩ := h _ hnul
  · exact absurd hc (by decide)
  · exact absurd hc (by decide)

/-- The phone's revoke, served. -/
theorem revoke_served {token : Option String} {id : String} {me dev : Device} {rep : Reply}
    (h : Served S Working i (Phone.revokeRequest token id) w rep w') (hid : '\x00' ∉ id.toList)
    (hme : '\x00' ∉ me.id.toList) (howner : OwnerAsks w token me)
    (hdev : w.pg.device id = some dev) (huser : dev.userId = me.userId) :
    w'.pg.Revoked id ↔ dev.revoked = true ∨
      w.rd.replay.get w.rd.now (Text.trimSpace (Phone.revokeIdempotencyKey id)) = none := by
  obtain ⟨user, hsession⟩ := howner.session
  have hroute : routes S (Phone.revokeRequest token id) = .authed fun me _ =>
      handleDeviceRevoke (Phone.revokeIdempotencyKey id) me id
        (some (.ok (Phone.buildRevokeBody ""))) := rfl
  have hok : ∃ o, Working o := ⟨{}, rfl⟩
  obtain hauth | ⟨dev', user', w₁, hauth, hbody⟩ := (served_authed hok hroute).mp h
  · cases (authenticate_working hauth howner.held hme hsession howner.row howner.active).1
  · obtain ⟨hwho, hw₁⟩ :=
      authenticate_working hauth howner.held hme hsession howner.row howner.active
    cases hwho
    rw [hw₁] at hbody
    obtain hdone | hend := hbody
    · exact handleDeviceRevoke_working hdone (revokeIdempotencyKey_ne_empty id) hid hme
        howner.role hdev huser
    · exact handleDeviceRevoke_working hend (revokeIdempotencyKey_ne_empty id) hid hme
        howner.role hdev huser

/-- The request id of the revoke bears no mark that is still live. -/
def RevokeUnmarked (w : World) (id : String) : Prop :=
  w.rd.replay.get w.rd.now (Text.trimSpace (Phone.revokeIdempotencyKey id)) = none

/-- No request of the run gives the request id of the revoke. -/
def RevokeUngiven (c : Config Task World Srv Srv.Ans Outcome) (id : String) : Prop :=
  ∀ (t : Task) p, (t, p) ∈ c.pool →
    ¬t.Gives (Text.trimSpace (Phone.revokeIdempotencyKey id))

/-- An id that no request gives is not marked. -/
theorem unmarked_of_ungiven {c : Config Task World Srv Srv.Ans Outcome} {id : String}
    (h : (backend S).Reach (fun _ _ => True) boot c) (hno : RevokeUngiven c id) :
    RevokeUnmarked c.world id := by
  have hnone : c.world.rd.replay (Text.trimSpace (Phone.revokeIdempotencyKey id)) = none := by
    refine Classical.byContradiction fun hmark => ?_
    obtain ⟨i, t, p, hi, hgives⟩ := (marked_given h).given _ hmark
    exact hno t p (List.mem_of_getElem? hi) hgives
  unfold RevokeUnmarked TtlMap.get TtlMap.entry
  rw [hnone]
  rfl

/-- The phone's revoke, however far it comes. -/
theorem revoke_sent {token : Option String} {id : String} {me dev : Device}
    (h : RevokeSent S i token id w w') (hme : '\x00' ∉ me.id.toList)
    (howner : OwnerAsks w token me) (hdev : w.pg.device id = some dev)
    (huser : dev.userId = me.userId) :
    w'.pg.Revoked id ↔
      dev.revoked = true ∨ Phone.Sendable token id ∧ RevokeUnmarked w id := by
  have hsame : w.pg.Revoked id ↔ dev.revoked = true := by
    unfold Tables.Revoked
    rw [hdev]
    exact ⟨fun ⟨d, hd, hflag⟩ => Option.some.inj hd ▸ hflag, fun hflag => ⟨dev, rfl, hflag⟩⟩
  unfold RevokeSent at h
  cases harrived : (Phone.revoke token id).bind Posted.revocation with
  | none =>
      rw [harrived] at h
      have hnot : ¬Phone.Sendable token id := fun hsend => by
        rw [(Phone.revocation_revoke token id _).mpr ⟨hsend, rfl⟩] at harrived
        cases harrived
      rw [show w' = w from h, hsame]
      exact (or_iff_left fun hand => hnot hand.1).symm
  | some r =>
      rw [harrived] at h
      obtain ⟨rep, hserved⟩ := h
      obtain ⟨hsend, rfl⟩ := (Phone.revocation_revoke token id r).mp harrived
      rw [and_iff_right hsend]
      exact revoke_served hserved (headerText_taken hsend.id) hme howner hdev huser

/-- **After any run**, the revoke an active Owner sends from the device screen
leaves the device of its user revoked exactly when the device was revoked
before, or the revoke can be sent and its request id is not marked.  In
particular a revoke that can be sent lands where no request of the run has given
that id. -/
theorem revoke_lands_iff (S : Server) :
    ∀ c, (backend S).Reach (fun _ _ => True) boot c →
      ∀ (token : Option String) (id : String) (me dev : Device) (w' : World),
        OwnerAsks c.world token me → c.world.pg.device id = some dev →
        dev.userId = me.userId → RevokeSent S c.pool.length token id c.world w' →
        (w'.pg.Revoked id ↔
            dev.revoked = true ∨ Phone.Sendable token id ∧ RevokeUnmarked c.world id) ∧
          (Phone.Sendable token id → RevokeUngiven c id → w'.pg.Revoked id) := by
  intro c hreach token id me dev w' howner hdev huser hsent
  have hme : '\x00' ∉ me.id.toList :=
    (textIds_reach hreach).device me (List.mem_of_find?_eq_some howner.row)
  have hiff := revoke_sent hsent hme howner hdev huser
  refine ⟨hiff, fun hsend hno => ?_⟩
  exact hiff.mpr (.inr ⟨hsend, unmarked_of_ungiven hreach hno⟩)

end Api

namespace Sample

open Api

/-- The rows of the Owner's phone and of the computer. -/
def owner : Device where
  id := "PH-1"
  userId := "01010101010101010101010101010101"
  role := .ownerPhone
  displayName := "Phone"
  pubKey := ownerKey
  fingerprint := "10BA 682C 8AD1 3513 971E 8B56 881A AB8B D702 BB80 7796 ECA8 1932 C735 A94D 6E6D"

def computer : Device where
  id := "PC-1"
  userId := "01010101010101010101010101010101"
  role := .computer
  displayName := "Desk"
  pubKey := computerKey
  fingerprint := computerFp
  authorizedBy := "PH-1"

/-- A refresh without a body that makes sense, under the request id of the
computer's revoke; nobody has to log in for it. -/
def squat : Request where
  requestId := Phone.revokeIdempotencyKey "PC-1"
  route := .refresh (.ok {})

/-- The Owner logs in, registers the computer, and the refresh comes in. -/
def squatted : Conf :=
  asks boot (ownerLogin ++ [(4, registerReq 3 "r4" "PC-1" computerKey "computer"), (5, squat)])

/-- The revoke of the computer by the Owner's phone, as it arrives. -/
def removal : Request := Phone.revokeRequest (some (drawn 3)) "PC-1"

theorem squatted_reach : (backend server).Reach (fun _ _ => True) boot squatted :=
  asks_reach _ .refl

/-- What the run leads to, and the revoke after it. -/
theorem removal_facts :
    Ws.bearerToken (Phone.authorizationOf (some (drawn 3))) ≠ "" ∧
      squatted.world.rd.tokens.get squatted.world.rd.now
        (.access, Ws.bearerToken (Phone.authorizationOf (some (drawn 3)))) =
          some ("PH-1", owner.userId) ∧
      squatted.world.pg.device "PH-1" = some owner ∧
      squatted.world.pg.isRevoked "PH-1" = false ∧
      squatted.world.pg.device "PC-1" = some computer ∧
      replied (ask squatted 6 removal) squatted.pool.length =
        some ⟨409, .err "REPLAYED_ID" "request id already used" false⟩ ∧
      (ask squatted 6 removal).world.pg.device "PC-1" = some computer := by
  decide +kernel

theorem removal_owner : OwnerAsks squatted.world (some (drawn 3)) owner where
  held := removal_facts.1
  session := ⟨owner.userId, removal_facts.2.1⟩
  row := removal_facts.2.2.1
  role := rfl
  active := removal_facts.2.2.2.1

theorem removal_row : squatted.world.pg.device "PC-1" = some computer :=
  removal_facts.2.2.2.2.1

theorem removal_arrives :
    (Phone.revoke (some (drawn 3)) "PC-1").bind Posted.revocation = some removal := by
  refine (Phone.revocation_revoke _ _ _).mpr ⟨⟨by decide, ?_, ?_⟩, rfl⟩
  · exact (Phone.headerText_iff _).mp (by decide)
  · exact (Phone.headerText_iff _).mp (by decide)

theorem removal_sent : RevokeSent server squatted.pool.length (some (drawn 3)) "PC-1"
    squatted.world (ask squatted 6 removal).world := by
  unfold RevokeSent
  rw [removal_arrives]
  exact ⟨_, ask_served removal_facts.2.2.2.2.2.1⟩

theorem removal_kept : (ask squatted 6 removal).world.pg.device "PC-1" = some computer :=
  removal_facts.2.2.2.2.2.2

end Sample

namespace Api

/-- The run with the refresh, and the revoke that follows it. -/
theorem revoke_lands_iff_squatted :
    ((Sample.ask Sample.squatted 6 Sample.removal).world.pg.Revoked "PC-1" ↔
        Sample.computer.revoked = true ∨
          Phone.Sendable (some (Sample.drawn 3)) "PC-1" ∧
            RevokeUnmarked Sample.squatted.world "PC-1") ∧
      (Phone.Sendable (some (Sample.drawn 3)) "PC-1" → RevokeUngiven Sample.squatted "PC-1" →
        (Sample.ask Sample.squatted 6 Sample.removal).world.pg.Revoked "PC-1") :=
  revoke_lands_iff Sample.server Sample.squatted Sample.squatted_reach (some (Sample.drawn 3))
    "PC-1" Sample.owner Sample.computer _ Sample.removal_owner Sample.removal_row rfl
    Sample.removal_sent

/-- **A revocation that is blocked.**  One refused refresh, under the request
id the Owner's phone is going to use, and the Owner's revoke is a replay: the
computer stays unrevoked. -/
theorem refresh_blocks_revoke :
    ¬∀ (S : Server) (c : Config Task World Srv Srv.Ans Outcome),
      (backend S).Reach (fun _ _ => True) boot c →
      ∀ (token : Option String) (id : String) (me dev : Device) (w' : World),
        OwnerAsks c.world token me → c.world.pg.device id = some dev →
        dev.userId = me.userId → RevokeSent S c.pool.length token id c.world w' →
        w'.pg.Revoked id := by
  intro hall
  have hrevoked := hall Sample.server Sample.squatted Sample.squatted_reach
    (some (Sample.drawn 3)) "PC-1" Sample.owner Sample.computer _ Sample.removal_owner
    Sample.removal_row rfl Sample.removal_sent
  obtain ⟨d, hd, hflag⟩ := hrevoked
  rw [Sample.removal_kept] at hd
  cases hd
  cases hflag

end Api

end Calcar
