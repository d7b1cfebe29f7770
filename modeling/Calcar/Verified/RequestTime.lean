import Calcar.Phone.Pairing
import Calcar.Verified.Expiry
import Calcar.Verified.Signing

/-!
# The request time of a pairing session

Nobody stores when a join was asked for: phone and backend take the expiry of
the session minus its ten minutes.  The creation reply and the Postgres row
carry that to the millisecond, the Redis hash to the second, so what a join
event, a later `GET` or a decision derives depends on which store answers, unless
the session was created within the first millisecond of a second.

## Main results

* `found_requestedAt` — what `GetPairingSession` answers is one of the two.
* `hash_requestedAt_iff` — the instants at which the two are one.
* `request_time_agrees` — in every history, a session created at such an instant
  has one request time, and no honest approval is refused as a bad signature.
-/

namespace Calcar.Api

open Lib Pg Trust

variable {S : Server} {ok : Oracle → Prop} {i : Nat} {w w' : World}

/-! ## Reading a session -/

/-- The session `GetPairingSession` finds: the live entry, or the row when there
is none. -/
def Found (w : World) (id : String) (s : PairingSession) : Prop :=
  (∃ m, w.rd.pairing.get w.rd.now id = some m ∧ s = Redis.decoded id m) ∨
    ∃ row st, w.rd.pairing.get w.rd.now id = none ∧ w.pg.session id = some row ∧
      s = { Postgres.scanned row with status := st }

private theorem live_runs {id : String} {r : Except Err PairingSession}
    (h : Prog.Runs Core.exec ok i (Redis.getPairingSession id) w r w') :
    Kept w w' ∧
      (∀ s, r = .ok s → ∃ m, w.rd.pairing.get w.rd.now id = some m ∧ s = Redis.decoded id m) ∧
      (r = .error .notFound → w.rd.pairing.get w.rd.now id = none) := by
  refine ⟨reads_kept (Redis.only_getPairingSession (by trivial) (by trivial)) h, ?_⟩
  obtain ⟨a, w₁, hread, hk⟩ := Prog.runs_bind.mp h
  obtain ⟨b, w₂, hget, hdecode⟩ := Prog.runs_bind.mp hread
  have hread : (∀ s, a = .ok s → ∃ m, w.rd.pairing.get w.rd.now id = some m ∧
      s = Redis.decoded id m) ∧ (a = .error .notFound → w.rd.pairing.get w.rd.now id = none) := by
    cases b with
    | error e =>
        obtain ⟨rfl, _⟩ := Prog.runs_ret.mp hdecode
        refine ⟨nofun, fun he => ?_⟩
        obtain ⟨o, _, hr, _⟩ := runs_rd.mp hget
        cases hf : o.fault with
        | none => rw [hf] at hr; cases hr
        | lost => rw [hf] at hr; rw [Except.error.inj he] at hr; cases hr
        | unacked => rw [hf] at hr; rw [Except.error.inj he] at hr; cases hr
    | ok m =>
        obtain ⟨hm, _⟩ := runs_rd_ok hget
        cases m with
        | none =>
            obtain ⟨rfl, _⟩ := Prog.runs_ret.mp hdecode
            exact ⟨nofun, fun _ => hm.symm⟩
        | some m =>
            obtain ⟨rfl, _⟩ := Prog.runs_ret.mp hdecode
            refine ⟨fun s he => ⟨m, hm.symm, (Except.ok.inj he).symm⟩, nofun⟩
  cases a with
  | error e =>
      obtain ⟨rfl, _⟩ := Prog.runs_ret.mp hk
      exact hread
  | ok s =>
      have hsame : ∀ s', r = .ok s' → s' = s := by
        intro s' hr
        subst hr
        change Prog.Runs Core.exec ok i (ite _ _ _ : Core.M _) w₁ _ w' at hk
        split at hk
        · obtain ⟨t, w₃, _, hk⟩ := Prog.runs_bind.mp hk
          change Prog.Runs Core.exec ok i (ite _ _ _ : Core.M _) w₃ _ w' at hk
          split at hk
          · obtain ⟨he, _⟩ := Prog.runs_ret.mp hk
            cases he
          · obtain ⟨he, _⟩ := Prog.runs_ret.mp hk
            exact Except.ok.inj he
        · obtain ⟨he, _⟩ := Prog.runs_ret.mp hk
          exact Except.ok.inj he
      refine ⟨fun s' hr => hread.1 s' (hsame s' hr ▸ rfl), ?_⟩
      rintro rfl
      change Prog.Runs Core.exec ok i (ite _ _ _ : Core.M _) w₁ _ w' at hk
      split at hk
      · obtain ⟨t, w₃, _, hk⟩ := Prog.runs_bind.mp hk
        change Prog.Runs Core.exec ok i (ite _ _ _ : Core.M _) w₃ _ w' at hk
        split at hk
        · obtain ⟨he, _⟩ := Prog.runs_ret.mp hk
          cases he
        · obtain ⟨he, _⟩ := Prog.runs_ret.mp hk
          cases he
      · obtain ⟨he, _⟩ := Prog.runs_ret.mp hk
        cases he

private theorem row_runs {id : String} {s : PairingSession}
    (h : Prog.Runs Core.exec ok i (Postgres.getPairingSession id) w (.ok s) w') :
    ∃ row st, w.pg.session id = some row ∧ s = { Postgres.scanned row with status := st } := by
  obtain ⟨a, w₁, hq, hk⟩ := Prog.runs_bind.mp h
  cases a with
  | error e =>
      obtain ⟨he, _⟩ := Prog.runs_ret.mp hk
      cases he
  | ok row =>
      obtain ⟨p', hstep, rfl⟩ := runs_query_ok hq
      simp only [PgCmd.step, Option.some.injEq, Prod.mk.injEq, Except.ok.injEq] at hstep
      obtain ⟨_, hrow⟩ := hstep
      cases row with
      | none =>
          obtain ⟨he, _⟩ := Prog.runs_ret.mp hk
          cases he
      | some row =>
          refine ⟨row, ?_⟩
          have hplain : ∀ w₂ w₃, Prog.Runs Core.exec ok i
              (.ret (.ok (Postgres.scanned row)) : Core.M (Except Err PairingSession)) w₂
                (.ok s) w₃ →
              ∃ st, w.pg.session id = some row ∧
                s = { Postgres.scanned row with status := st } := by
            intro w₂ w₃ hret
            obtain ⟨he, _⟩ := Prog.runs_ret.mp hret
            exact ⟨some row.status, hrow, Except.ok.inj he⟩
          change Prog.Runs Core.exec ok i (ite _ _ _ : Core.M _) _ _ w' at hk
          split at hk
          · obtain ⟨t, w₂, _, hk⟩ := Prog.runs_bind.mp hk
            change Prog.Runs Core.exec ok i (ite _ _ _ : Core.M _) w₂ _ w' at hk
            split at hk
            · exact hplain _ _ hk
            · obtain ⟨b, w₃, _, hk⟩ := Prog.runs_bind.mp hk
              cases b with
              | error e =>
                  obtain ⟨he, _⟩ := Prog.runs_ret.mp hk
                  cases he
              | ok a =>
                  obtain ⟨he, _⟩ := Prog.runs_ret.mp hk
                  exact ⟨some .expired, hrow, Except.ok.inj he⟩
          · exact hplain _ _ hk

/-- **`GetPairingSession` answers what it finds.** -/
theorem getPairingSession_found {C : Crypto} {id : String} {s : PairingSession}
    (h : Prog.Runs Core.exec ok i (combined C (.getPairingSession id)) w (.ok s) w') :
    Found w id s := by
  obtain ⟨a, w₁, hlive, hk⟩ := Prog.runs_bind.mp h
  obtain ⟨hkept, hhit, hmiss⟩ := live_runs hlive
  cases a with
  | ok s' =>
      obtain ⟨he, _⟩ := Prog.runs_ret.mp hk
      exact .inl (hhit s (he ▸ rfl))
  | error e =>
      change Prog.Runs Core.exec ok i (ite _ _ _ : Core.M _) w₁ _ w' at hk
      split at hk
      · obtain ⟨he, _⟩ := Prog.runs_ret.mp hk
        cases he
      · rename_i hne
        have hnot : e = .notFound := Classical.byContradiction hne
        obtain ⟨row, st, hrow, hs⟩ := row_runs hk
        refine .inr ⟨row, st, hmiss (by rw [hnot]), ?_, hs⟩
        show Tables.session w.pg.toTables id = some row
        rw [← hkept.tables]
        exact hrow

/-! ## The two request times -/

/-- **What is found carries the expiry of the row**, or the whole seconds of it,
unless it is a mark that nobody owns. -/
theorem found_requestedAt {id : String} {s : PairingSession} (hd : Dated w) (h : Found w id s)
    (howned : s.userId ≠ "" ∨ s.createdBy ≠ "" ∨ s.qrNonce ≠ "") :
    ∃ e, w.pg.expiry id = some e ∧
      (s.expiresAt = e ∨ s.expiresAt = Time.unix e * Time.second) := by
  rcases h with ⟨m, hm, rfl⟩ | ⟨row, st, _, hrow, rfl⟩
  · obtain ⟨entry, hentry, hval⟩ := TtlMap.get_eq_some.mp hm
    have hfit := hd.live id entry (TtlMap.entry_eq_some.mp hentry).1
    rw [hval] at hfit
    unfold Carries at hfit
    cases hexp : m.expiresAt with
    | none =>
        rw [hexp] at hfit
        obtain ⟨huser, hcreator, hnonce⟩ := hfit
        simp [Redis.decoded, huser, hcreator, hnonce] at howned
    | some u =>
        rw [hexp] at hfit
        obtain ⟨e, he, hu⟩ := hfit
        refine ⟨e, he, .inr ?_⟩
        simp [Redis.decoded, hexp, hu]
  · exact ⟨row.expiresAt, congrArg (Option.map SessionRow.expiresAt) hrow, .inl rfl⟩

/-- The instant lies within the first millisecond of a second. -/
def OnTheSecond (t : Time) : Prop := t % Time.second < 1000000

/-- The session minted at `t`, read from either store. -/
theorem row_requestedAt (t : Time) :
    Time.unixMilli (Time.micros (t + pairingTTL) - pairingTTL) = Time.unixMilli t := by
  have httl : pairingTTL = (600000000000 : Int) := by decide
  unfold Time.unixMilli Time.micros
  rw [httl]
  omega

theorem hash_requestedAt_iff (t : Time) :
    Time.unixMilli (Time.unix (Time.micros (t + pairingTTL)) * Time.second - pairingTTL) =
      Time.unixMilli t ↔ OnTheSecond t := by
  have hround : ∀ n : Int, ((n + 600000000000) / 1000 * 1000 / 1000000000 * 1000000000 -
      600000000000) / 1000000 = n / 1000000 ↔ n % 1000000000 < 1000000 := by
    intro n
    constructor
    · intro h
      omega
    · intro h
      omega
  exact hround t

/-- One of the two request times of a session. -/
def Timed (w : World) (id : String) (v : Int) : Prop :=
  ∃ e, w.pg.expiry id = some e ∧
    (v = Time.unixMilli (e - pairingTTL) ∨
      v = Time.unixMilli (Time.unix e * Time.second - pairingTTL))

theorem found_timed {id : String} {s : PairingSession} (hd : Dated w) (h : Found w id s)
    (howned : s.userId ≠ "" ∨ s.createdBy ≠ "" ∨ s.qrNonce ≠ "") :
    Timed w id (requestedAtProxy s) := by
  obtain ⟨e, he, hs⟩ := found_requestedAt hd h howned
  refine ⟨e, he, ?_⟩
  unfold requestedAtProxy
  rcases hs with hs | hs
  · exact .inl (by rw [hs])
  · exact .inr (by rw [hs])

theorem Timed.runs {β : Type} {h : H β} {r : Except Reply β} {id : String} {v : Int}
    (hr : HRuns S ok i h w r w') (ht : Timed w id v) : Timed w' id v := by
  obtain ⟨e, he, hv⟩ := ht
  exact ⟨e, expiry_runs hr he, hv⟩

/-- At an instant on the second the two are one. -/
theorem Timed.agree {id : String} {v : Int} {t : Time} (h : Timed w id v)
    (he : w.pg.expiry id = some (Time.micros (t + pairingTTL))) (ht : OnTheSecond t) :
    v = Time.unixMilli t := by
  obtain ⟨e, he', hv⟩ := h
  have hsame : e = Time.micros (t + pairingTTL) := Option.some.inj (he'.symm.trans he)
  rw [hsame] at hv
  rcases hv with hv | hv
  · rw [hv, row_requestedAt]
  · rw [hv, (hash_requestedAt_iff t).mpr ht]

/-! ## Parts of handlers -/

/-- A part that is passed was passed with a value. -/
theorem hruns_ok {β γ : Type} {x : H β} {f : β → H γ} {c : γ}
    (h : HRuns S ok i (x >>= f) w (.ok c) w') :
    ∃ a w₁, HRuns S ok i x w (.ok a) w₁ ∧ HRuns S ok i (f a) w₁ (.ok c) w' := by
  rcases hruns_bind.mp h with hrest | ⟨e, _, he⟩
  · exact hrest
  · cases he

theorem replyIf_ok {c : Prop} [Decidable c] {rep : Reply}
    (h : HRuns S ok i (replyIf c rep) w (.ok ()) w') : w' = w ∧ ¬c := by
  obtain ⟨hw, ⟨_, he⟩ | ⟨hc, _⟩⟩ := hruns_replyIf.mp h
  · cases he
  · exact ⟨hw, hc⟩

theorem require_ok {β : Type} {x : Option β} {bad : Reply} {a : β}
    (h : HRuns S ok i (require x bad) w (.ok a) w') : w' = w ∧ x = some a := by
  obtain ⟨hw, ⟨b, hb, he⟩ | ⟨_, he⟩⟩ := hruns_require.mp h
  · rw [Except.ok.inj he]
    exact ⟨hw, hb⟩
  · cases he

theorem decode_ok {β : Type} {body : Json β} {a : β}
    (h : HRuns S ok i (decode body) w (.ok a) w') : w' = w ∧ body = .ok a := by
  obtain ⟨hw, ⟨b, hb, he⟩ | ⟨_, _, he⟩⟩ := hruns_decode.mp h
  · rw [Except.ok.inj he]
    exact ⟨hw, hb⟩
  · cases he

theorem store_ok {c : Seam} {bad : Err → Reply} {a : c.Ret}
    (h : HRuns S ok i (store c bad) w (.ok a) w') :
    Prog.Runs Core.exec ok i (combined S.crypto c) w (.ok a) w' := by
  rcases hruns_store.mp h with ⟨b, he, hrun⟩ | ⟨e, he, _⟩
  · rw [Except.ok.inj he]
    exact hrun
  · cases he

/-- No part of a handler moves the clock. -/
theorem hruns_clock {β : Type} {h : H β} {r : Except Reply β} (hr : HRuns S ok i h w r w') :
    w'.clock = w.clock := by
  have hcore : ∀ {i : Nat} {c : Core} {o : Oracle} {w₁ w₂ : World} {r : c.Ans},
      Core.exec i c o w₁ = some (w₂, r) → w₁.clock = w.clock → w₂.clock = w.clock := by
    intro i c o w₁ w₂ r hx hi
    cases c with
    | pg c =>
        simp only [Core.exec] at hx
        split at hx
        · cases hx
        · simp only [Option.some.injEq, Prod.mk.injEq] at hx
          rw [← hx.1]
          exact hi
    | rand n =>
        simp only [Core.exec] at hx
        split at hx
        · simp only [Option.some.injEq, Prod.mk.injEq] at hx
          rw [← hx.1]
          exact hi
        · cases hx
    | _ =>
        simp only [Core.exec, Option.some.injEq, Prod.mk.injEq] at hx
        rw [← hx.1]
        exact hi
  refine hruns_keep (I := fun w₁ => w₁.clock = w.clock) ?_ (fun _ hx hi => hcore hx hi) hr rfl
  intro i c r w₁ w₂ hrun hi
  exact (Prog.only_of_all (P := fun _ => True) (fun _ => trivial) _).runs
    (I := fun w₁ => w₁.clock = w.clock) (fun _ _ _ _ _ _ hx hi => hcore hx hi) hrun hi

/-- The mark of a request id leaves sessions, clock and queue alone. -/
theorem idempotent_found {hdr : String} {r : Except Reply Unit} {id : String}
    {s : PairingSession} (h : HRuns S ok i (idempotent hdr) w r w') (hs : Found w' id s) :
    Found w id s := by
  have hsame : w'.pg = w.pg ∧ w'.rd.pairing = w.rd.pairing ∧ w'.rd.now = w.rd.now := by
    have hmark : ∀ {w₁ : World} {r : Except Reply Unit},
        HRuns S ok i (markRequest (Text.trimSpace hdr)) w r w₁ →
        w₁.pg = w.pg ∧ w₁.rd.pairing = w.rd.pairing ∧ w₁.rd.now = w.rd.now := by
      intro w₁ r hrun
      have hcall : ∃ a, Prog.Runs Core.exec ok i
          (Redis.checkAndMarkRequest (Text.trimSpace hdr) requestIDTTL) w a w₁ := by
        rcases hruns_store.mp hrun with ⟨a, _, hc⟩ | ⟨e, _, hc⟩
        · exact ⟨_, hc⟩
        · exact ⟨_, hc⟩
      obtain ⟨a, hcall⟩ := hcall
      refine (Redis.only_checkAndMarkRequest
        (P := fun c => c = .rd (.setnxReplay (Text.trimSpace hdr) requestIDTTL)) rfl).runs
        (I := fun w₁ => w₁.pg = w.pg ∧ w₁.rd.pairing = w.rd.pairing ∧ w₁.rd.now = w.rd.now)
        ?_ hcall ⟨rfl, rfl, rfl⟩
      rintro _ o w₂ w₃ res rfl hx hi
      simp only [Core.exec, Option.some.injEq, Prod.mk.injEq] at hx
      rw [← hx.1]
      have hstep : (RdCmd.step i (.setnxReplay (Text.trimSpace hdr) requestIDTTL)
          w₂.rd).1.pairing = w₂.rd.pairing ∧ (RdCmd.step i (.setnxReplay (Text.trimSpace hdr)
            requestIDTTL) w₂.rd).1.now = w₂.rd.now := by
        simp only [RdCmd.step]
        split
        · exact ⟨rfl, rfl⟩
        · exact ⟨rfl, rfl⟩
      unfold RdCmd.exec
      cases o.fault with
      | none => exact ⟨hi.1, hstep.1.trans hi.2.1, hstep.2.trans hi.2.2⟩
      | lost => exact hi
      | unacked => exact ⟨hi.1, hstep.1.trans hi.2.1, hstep.2.trans hi.2.2⟩
    unfold idempotent at h
    rcases hruns_bind.mp h with ⟨a, w₁, hblank, hrest⟩ | ⟨e, hblank, _⟩
    · obtain ⟨rfl, _⟩ := hruns_replyIf.mp hblank
      exact hmark hrest
    · obtain ⟨rfl, _⟩ := hruns_replyIf.mp hblank
      exact ⟨rfl, rfl, rfl⟩
  obtain ⟨hpg, hpairing, hnow⟩ := hsame
  unfold Found at hs ⊢
  rw [hpg, hpairing, hnow] at hs
  exact hs

theorem kept_found {id : String} {s : PairingSession} (h : Kept w w') (hs : Found w' id s) :
    Found w id s := by
  unfold Found at hs ⊢
  rw [h.rd] at hs
  have hrow : w'.pg.session id = w.pg.session id := by
    show Tables.session w'.pg.toTables id = Tables.session w.pg.toTables id
    rw [h.tables]
  rw [hrow] at hs
  exact hs

/-! ## What is shown of a session -/

/-- The turn created this session. -/
def Turn.Creates (t : Turn) (id : String) : Prop :=
  t.request.route = .pairingCreate ∧
    ∃ j : SessionView, t.reply = ⟨201, .session j⟩ ∧ j.sessionId = id

/-- A request time of the session that somebody is given: the phone by the
creation reply, by a `GET` or by the event of a join, the backend by the session
a decision finds. -/
inductive Shows (S : Server) (id : String) (t : Turn) : Int → Prop where
  | create {j : SessionView} (hroute : t.request.route = .pairingCreate)
      (hrep : t.reply = ⟨201, .session j⟩) (hid : j.sessionId = id) :
      Shows S id t (Phone.PairingSession.fromJson j).requestedAtMillis
  | get {j : SessionView} (hroute : t.request.route = .pairingGet id)
      (hrep : t.reply = ⟨200, .session j⟩) :
      Shows S id t (Phone.PairingSession.fromJson j).requestedAtMillis
  | join {body : Json JoinReq} {ev : Ws.Event} {name fp rid key : String} {v : Int}
      (hroute : t.request.route = .pairingJoin id body) (hnew : ev ∈ t.after.hub.queue)
      (hold : ev ∉ t.before.hub.queue)
      (hpayload : ev.payload = .joinRequested id name fp rid key v) : Shows S id t v
  | decision {body : Json DecisionReq} {me : Device} {s : PairingSession}
      (hroute : t.request.route = .pairingDecision id body)
      (hme : caller S t.before t.request = some me) (hs : Found t.before id s)
      (huser : s.userId = me.userId) : Shows S id t (requestedAtProxy s)

/-! ## Replies that are no complaint about a signature -/

/-- An error that does not say `BAD_SIGNATURE`. -/
def Reply.Declines (r : Reply) : Prop :=
  ∃ code msg retryable, r.body = .err code msg retryable ∧ code ≠ Code.badSignature.text

theorem declines_writeErr {status : Nat} {code msg : String} {retryable : Bool}
    (h : code ≠ Code.badSignature.text) : (writeErr status code msg retryable).Declines :=
  ⟨code, msg, retryable, rfl, h⟩

theorem declines_storeErr (e : Err) : (storeErr e .pairingExpired .pairingConsumed).Declines := by
  cases e <;> exact declines_writeErr (by decide)

/-- However a part of a handler ends early, its reply has `P`. -/
def Throwing (S : Server) (P : Reply → Prop) {β : Type} (h : H β) : Prop :=
  ∀ {ok : Oracle → Prop} {i : Nat} {w w' : World} {e : Reply},
    HRuns S ok i h w (.error e) w' → P e

section Throwing

variable {β γ : Type} {P : Reply → Prop}

theorem Throwing.bind {x : H β} {f : β → H γ} (hx : Throwing S P x)
    (hf : ∀ a, Throwing S P (f a)) : Throwing S P (x >>= f) := by
  intro ok i w w' e h
  rcases hruns_bind.mp h with ⟨a, w₁, _, hrest⟩ | ⟨e', hfirst, he⟩
  · exact hf a hrest
  · rw [Except.error.inj he]
    exact hx hfirst

/-- What ends early behind a part has the part's `P`, or has passed it. -/
theorem Throwing.pass {x : H β} {f : β → H γ} {e : Reply} (hx : Throwing S P x)
    (h : HRuns S ok i (x >>= f) w (.error e) w') :
    P e ∨ ∃ a w₁, HRuns S ok i x w (.ok a) w₁ ∧ HRuns S ok i (f a) w₁ (.error e) w' := by
  rcases hruns_bind.mp h with hrest | ⟨e', hfirst, he⟩
  · exact .inr hrest
  · rw [Except.error.inj he]
    exact .inl (hx hfirst)

theorem throwing_pure (a : β) : Throwing S P (pure a : H β) := by
  intro ok i w w' e h
  obtain ⟨he, _⟩ := hruns_pure.mp h
  cases he

theorem throwing_throw {r : Reply} (hr : P r) : Throwing S P (throw r : H β) := by
  intro ok i w w' e h
  obtain ⟨he, _⟩ := hruns_throw.mp h
  rw [Except.error.inj he]
  exact hr

theorem throwing_replyIf (c : Prop) [Decidable c] {r : Reply} (hr : P r) :
    Throwing S P (replyIf c r) := by
  intro ok i w w' e h
  obtain ⟨_, ⟨_, he⟩ | ⟨_, he⟩⟩ := hruns_replyIf.mp h
  · rw [Except.error.inj he]
    exact hr
  · cases he

theorem throwing_require {x : Option β} {r : Reply} (hr : P r) :
    Throwing S P (require x r) := by
  intro ok i w w' e h
  obtain ⟨_, ⟨_, _, he⟩ | ⟨_, he⟩⟩ := hruns_require.mp h
  · cases he
  · rw [Except.error.inj he]
    exact hr

theorem throwing_decode {body : Json β}
    (hr : ∀ detail, P (writeErr 400 Trust.Code.invalidInput.text detail false)) :
    Throwing S P (decode body) := by
  intro ok i w w' e h
  obtain ⟨_, ⟨_, _, he⟩ | ⟨_, _, he⟩⟩ := hruns_decode.mp h
  · cases he
  · rw [Except.error.inj he]
    exact hr _

theorem throwing_attempt {c : Call} : Throwing S P (attempt c) := by
  intro ok i w w' e h
  obtain ⟨_, he, _⟩ := hruns_attempt.mp h
  cases he

theorem throwing_store {c : Seam} {bad : Err → Reply} (hb : ∀ e, P (bad e)) :
    Throwing S P (store c bad) := by
  intro ok i w w' e h
  rcases hruns_store.mp h with ⟨_, he, _⟩ | ⟨e', he, _⟩
  · cases he
  · rw [Except.error.inj he]
    exact hb e'

/-- A refusal at the door is an error of another status than 200. -/
theorem throwing_authenticate {hdr : String}
    (hP : ∀ {status : Nat} {code msg : String} {retryable : Bool}, status ≠ 200 →
      code ≠ Code.badSignature.text → P (writeErr status code msg retryable)) :
    Throwing S P (authenticate hdr) := by
  apply Throwing.bind (throwing_replyIf _ (hP (by decide) (by decide)))
  intro _
  apply Throwing.bind (throwing_store fun _ => hP (by decide) (by decide))
  rintro ⟨device, user⟩
  apply Throwing.bind (throwing_store fun _ => hP (by decide) (by decide))
  intro dev
  apply Throwing.bind (throwing_replyIf _ (hP (by decide) (by decide)))
  intro _
  apply Throwing.bind
  · apply Throwing.bind throwing_attempt
    rintro (e | _ | _)
    · exact throwing_pure _
    · exact throwing_pure _
    · exact throwing_throw (hP (by decide) (by decide))
  · exact fun _ => throwing_pure _

end Throwing

/-- However a part of a handler ends early, it declines. -/
def Declining (S : Server) {β : Type} (h : H β) : Prop :=
  ∀ {ok : Oracle → Prop} {i : Nat} {w w' : World} {e : Reply},
    HRuns S ok i h w (.error e) w' → e.Declines

section Declining

variable {β γ : Type}

theorem Declining.bind {x : H β} {f : β → H γ} (hx : Declining S x)
    (hf : ∀ a, Declining S (f a)) : Declining S (x >>= f) :=
  Throwing.bind (P := Reply.Declines) hx hf

theorem Declining.pass {x : H β} {f : β → H γ} {e : Reply} (hx : Declining S x)
    (h : HRuns S ok i (x >>= f) w (.error e) w') :
    e.Declines ∨ ∃ a w₁, HRuns S ok i x w (.ok a) w₁ ∧ HRuns S ok i (f a) w₁ (.error e) w' :=
  Throwing.pass (P := Reply.Declines) hx h

theorem declining_pure (a : β) : Declining S (pure a : H β) := throwing_pure a

theorem declining_throw {r : Reply} (hr : r.Declines) : Declining S (throw r : H β) :=
  throwing_throw (P := Reply.Declines) hr

theorem declining_replyIf (c : Prop) [Decidable c] {r : Reply} (hr : r.Declines) :
    Declining S (replyIf c r) := throwing_replyIf c hr

theorem declining_require {x : Option β} {r : Reply} (hr : r.Declines) :
    Declining S (require x r) := throwing_require hr

theorem declining_decode {body : Json β} : Declining S (decode body) :=
  throwing_decode (P := Reply.Declines) fun _ => declines_writeErr (by decide)

theorem declining_attempt {c : Call} : Declining S (attempt c) := throwing_attempt

theorem declining_store {c : Seam} {bad : Err → Reply} (hb : ∀ e, (bad e).Declines) :
    Declining S (store c bad) := throwing_store hb

theorem declining_idempotent {hdr : String} : Declining S (idempotent hdr) := by
  apply Declining.bind (declining_replyIf _ (declines_writeErr (by decide)))
  intro _
  apply declining_store
  intro e
  split
  · exact declines_writeErr (by decide)
  · exact declines_writeErr (by decide)

theorem declining_authenticate {hdr : String} : Declining S (authenticate hdr) :=
  throwing_authenticate (P := Reply.Declines) fun _ hcode => declines_writeErr hcode

end Declining

/-- An authenticated request: declined at the door, or served as its caller. -/
theorem served_as {r : Request} {next : Device → String → H Reply} {rep : Reply}
    (hok : ∃ o, ok o) (hr : routes S r = .authed next) (h : Served S ok i r w rep w') :
    rep.Declines ∨ ∃ me user id w₁ res, caller S w r = some me ∧ w.pg.device id = some me ∧
      Kept w w₁ ∧ HRuns S ok i (authenticate r.authorization) w (.ok (me, user)) w₁ ∧
      HRuns S ok i (next me user) w₁ res w' ∧ (res = .ok rep ∨ res = .error rep) := by
  rcases (served_authed hok hr).mp h with hrun | ⟨dev, user, w₁, hrun, hbody⟩
  · exact .inl (declining_authenticate hrun)
  · obtain ⟨hkept, _, device, htok, hrow⟩ := authenticate_hruns hrun
    have hcaller := caller_session hr htok hrow
    rcases hbody with hb | hb
    · exact .inr ⟨dev, user, device, w₁, _, hcaller, hrow, hkept, hrun, hb, .inl rfl⟩
    · exact .inr ⟨dev, user, device, w₁, _, hcaller, hrow, hkept, hrun, hb, .inr rfl⟩

/-- A request that is answered with 200 has passed the door and its handler. -/
theorem served_open {r : Request} {next : Device → String → H Reply} {rep : Reply}
    (hok : ∃ o, ok o) (hr : routes S r = .authed next)
    (hthrow : ∀ me user, Throwing S (fun rep => rep.status ≠ 200) (next me user))
    (hs : Served S ok i r w rep w') (h200 : rep.status = 200) :
    ∃ me user w₁, caller S w r = some me ∧
      HRuns S ok i (authenticate r.authorization) w (.ok (me, user)) w₁ ∧
      HRuns S ok i (next me user) w₁ (.ok rep) w' := by
  obtain hrefused | ⟨me, user, w₁, hauth, hbody⟩ := (served_authed hok hr).mp hs
  · have hother := throwing_authenticate (P := fun rep => rep.status ≠ 200) (fun h _ => h) hrefused
    exact absurd h200 hother
  · obtain ⟨_, _, device, htok, hrow⟩ := authenticate_hruns hauth
    obtain hran | hthrown := hbody
    · exact ⟨me, user, w₁, caller_session hr htok hrow, hauth, hran⟩
    · exact absurd h200 (hthrow me user hthrown)

/-! ## The four places -/

/-- A creation replies with the session whose row it has written. -/
theorem create_hruns {rid : String} {me : Device} {rep : Reply} (hok : ∃ o, ok o)
    (h : HRuns S ok i (handlePairingCreate rid me) w (.ok rep) w') :
    ∃ s, rep = ⟨201, .session (sessionJSON s)⟩ ∧ s.expiresAt = w.clock + pairingTTL ∧
      w'.pg.expiry s.id = some (Time.micros s.expiresAt) := by
  unfold handlePairingCreate at h
  obtain ⟨_, w₁, hmark, h⟩ := hruns_ok h
  obtain ⟨_, w₂, hrole, h⟩ := hruns_ok h
  obtain ⟨t, w₃, hnow, h⟩ := hruns_ok h
  obtain ⟨idBytes, w₄, hid, h⟩ := hruns_ok h
  obtain ⟨nonceBytes, w₅, hnonce, h⟩ := hruns_ok h
  obtain ⟨_, w₆, hcreate, h⟩ := hruns_ok h
  obtain ⟨hrep, rfl⟩ := hruns_pure.mp h
  have ht : t = w.clock := by
    have hread := ((hruns_now hok).mp hnow).1
    rw [Except.ok.inj hread, hruns_clock hrole, hruns_clock hmark]
  refine ⟨_, Except.ok.inj hrep, congrArg (· + pairingTTL) ht, ?_⟩
  obtain ⟨a, w₇, hpg, hrd⟩ := Prog.runs_bind.mp (store_ok hcreate)
  cases a with
  | error e =>
      obtain ⟨he, _⟩ := Prog.runs_ret.mp hrd
      cases he
  | ok a => exact expiry_runs hrd (insertSession_expiry hpg)

/-- A `GET` replies with the session it finds, to its creator. -/
theorem get_hruns {me : Device} {id : String} {rep : Reply}
    (h : HRuns S ok i (handlePairingGet me id) w (.ok rep) w') :
    ∃ s, rep = ⟨200, .session (sessionJSON s)⟩ ∧ Found w id s ∧ s.createdBy = me.id := by
  unfold handlePairingGet at h
  obtain ⟨s, w₁, hget, h⟩ := hruns_ok h
  obtain ⟨_, w₂, howner, h⟩ := hruns_ok h
  obtain ⟨hrep, _⟩ := hruns_pure.mp h
  have hmine : s.createdBy = me.id := Classical.byContradiction (replyIf_ok howner).2
  exact ⟨s, Except.ok.inj hrep, getPairingSession_found (store_ok hget), hmine⟩

/-- A part that notifies nobody. -/
def Undated (S : Server) {β : Type} (h : H β) : Prop :=
  ∀ {ok : Oracle → Prop} {i : Nat} {w w' : World} {r : Except Reply β},
    HRuns S ok i h w r w' → w'.hub = w.hub

theorem silent_replyIf (c : Prop) [Decidable c] (r : Reply) : Undated S (replyIf c r) := by
  intro ok i w w' res h
  rw [(hruns_replyIf.mp h).1]

theorem silent_require {β : Type} (x : Option β) (r : Reply) : Undated S (require x r) := by
  intro ok i w w' res h
  rw [(hruns_require.mp h).1]

theorem silent_decode {β : Type} (body : Json β) : Undated S (decode body) := by
  intro ok i w w' res h
  rw [(hruns_decode.mp h).1]

theorem silent_fingerprint (pub : Bytes) : Undated S (fingerprint S pub) := by
  intro ok i w w' res h
  unfold fingerprint at h
  split at h
  · rw [(hruns_pure.mp h).2]
  · rw [(hruns_throw.mp h).2]

theorem silent_now : Undated S now := by
  intro ok i w w' res h
  obtain ⟨_, _, hx⟩ := hruns_attempt.mp h
  obtain ⟨o, _, hx⟩ := Prog.runs_perform.mp hx
  simp only [Core.exec, Option.some.injEq, Prod.mk.injEq] at hx
  rw [← hx.1]

theorem silent_store {c : Seam} {bad : Err → Reply} : Undated S (store c bad) := by
  intro ok i w w' res h
  have hcall : ∃ a, Prog.Runs Core.exec ok i (combined S.crypto c) w a w' := by
    rcases hruns_store.mp h with ⟨a, _, hc⟩ | ⟨e, _, hc⟩
    · exact ⟨_, hc⟩
    · exact ⟨_, hc⟩
  obtain ⟨a, hcall⟩ := hcall
  refine (combined_issues S.crypto c).runs (I := fun w₁ => w₁.hub = w.hub) ?_ hcall rfl
  intro cmd o w₁ w₂ r hcmd hx hi
  cases cmd with
  | pg cmd =>
      simp only [Core.exec] at hx
      split at hx
      · cases hx
      · simp only [Option.some.injEq, Prod.mk.injEq] at hx
        rw [← hx.1]
        exact hi
  | rand n =>
      simp only [Core.exec] at hx
      split at hx
      · simp only [Option.some.injEq, Prod.mk.injEq] at hx
        rw [← hx.1]
        exact hi
      · cases hx
  | notify ev =>
      rcases hcmd with hr | hw
      · exact hr.elim
      · cases c <;> exact hw.elim
  | _ =>
      simp only [Core.exec, Option.some.injEq, Prod.mk.injEq] at hx
      rw [← hx.1]
      exact hi

/-- An event that a handler has queued was not queued by a silent part of it. -/
theorem Undated.skip {β γ : Type} {x : H β} {f : β → H γ} {r : Except Reply γ} {ev : Ws.Event}
    (hx : Undated S x) (hnew : ev ∈ w'.hub.queue) (hold : ev ∉ w.hub.queue)
    (h : HRuns S ok i (x >>= f) w r w') :
    ∃ a w₁, HRuns S ok i x w (.ok a) w₁ ∧ HRuns S ok i (f a) w₁ r w' ∧
      ev ∉ w₁.hub.queue := by
  rcases hruns_bind.mp h with ⟨a, w₁, hfirst, hrest⟩ | ⟨e, hfirst, _⟩
  · refine ⟨a, w₁, hfirst, hrest, ?_⟩
    rw [hx hfirst]
    exact hold
  · rw [hx hfirst] at hnew
    exact absurd hnew hold

/-- **A join event carries the request time of the session it found.** -/
theorem join_hruns {id : String} {body : Json JoinReq} {r : Except Reply Reply}
    {ev : Ws.Event} {name fp rid key : String} {v : Int} (hd : Dated w)
    (h : HRuns S ok i (handlePairingJoin S id body) w r w') (hnew : ev ∈ w'.hub.queue)
    (hold : ev ∉ w.hub.queue) (hpayload : ev.payload = .joinRequested id name fp rid key v) :
    Timed w' id v := by
  unfold handlePairingJoin at h
  obtain ⟨req, w₁, h₁, h, hold⟩ := Undated.skip (silent_decode _) hnew hold h
  obtain ⟨_, w₂, h₂, h, hold⟩ := Undated.skip (silent_replyIf _ _) hnew hold h
  obtain ⟨pub, w₃, h₃, h, hold⟩ := Undated.skip (silent_require _ _) hnew hold h
  obtain ⟨fp', w₄, h₄, h, hold⟩ := Undated.skip (silent_fingerprint _) hnew hold h
  obtain ⟨_, w₅, h₅, h, hold⟩ := Undated.skip (silent_replyIf _ _) hnew hold h
  obtain ⟨name', w₆, h₆, h, hold⟩ := Undated.skip (silent_require _ _) hnew hold h
  obtain ⟨s, w₇, hget, h, hold⟩ := Undated.skip silent_store hnew hold h
  obtain ⟨t, w₈, h₈, h, hold⟩ := Undated.skip silent_now hnew hold h
  obtain ⟨_, w₉, h₉, h, hold⟩ := Undated.skip (silent_replyIf _ _) hnew hold h
  obtain ⟨_, w₁₀, hblank, h, hold⟩ := Undated.skip (silent_replyIf _ _) hnew hold h
  obtain ⟨_, w₁₁, hnonce, h, hold⟩ := Undated.skip (silent_replyIf _ _) hnew hold h
  have hd₆ : Dated w₆ := hruns_dated h₆ (hruns_dated h₅ (hruns_dated h₄ (hruns_dated h₃
    (hruns_dated h₂ (hruns_dated h₁ hd)))))
  have hqr : s.qrNonce ≠ "" := by
    have hgiven : Text.trimSpace req.qrNonce ≠ "" := (replyIf_ok hblank).2
    have hmatch : req.qrNonce = s.qrNonce := Classical.byContradiction (replyIf_ok hnonce).2
    intro hempty
    apply hgiven
    rw [hmatch, hempty]
    decide
  have htimed : Timed w₆ id (requestedAtProxy s) :=
    found_timed hd₆ (getPairingSession_found (store_ok hget)) (.inr (.inr hqr))
  have htimed₁₁ : Timed w₁₁ id (requestedAtProxy s) :=
    ((((htimed.runs hget).runs h₈).runs h₉).runs hblank).runs hnonce
  obtain ⟨_, w₁₂, hmark, h, hold⟩ := Undated.skip silent_store hnew hold h
  obtain ⟨_, w₁₃, hsubmit, h, hold⟩ := Undated.skip silent_store hnew hold h
  rcases hruns_bind.mp h with ⟨_, w₁₄, hnotify, hend⟩ | ⟨e, hnotify, _⟩
  · obtain ⟨_, rfl⟩ := hruns_pure.mp hend
    have hfinal : Timed w' id (requestedAtProxy s) :=
      ((htimed₁₁.runs hmark).runs hsubmit).runs hnotify
    obtain ⟨_, _, hx⟩ := hruns_attempt.mp hnotify
    obtain ⟨o, _, hx⟩ := Prog.runs_perform.mp hx
    simp only [Core.exec, Option.some.injEq, Prod.mk.injEq] at hx
    rw [← hx.1] at hnew
    have hqueued : ev.payload = .joinRequested id name' fp' req.requestId
        (String.ofList (Text.base64Encode pub)) (requestedAtProxy s) := by
      simp only [Ws.Hub.notify] at hnew
      split at hnew
      · rcases List.mem_append.mp hnew with hin | hin
        · exact absurd hin hold
        · rw [List.mem_singleton.mp hin]
      · exact absurd hnew hold
    rw [hpayload] at hqueued
    injection hqueued with _ _ _ _ _ hv
    rw [hv]
    exact hfinal
  · obtain ⟨_, he, _⟩ := hruns_attempt.mp hnotify
    cases he

/-- A caller is registered. -/
theorem caller_registered {r : Request} {me : Device} (h : caller S w r = some me) :
    ∃ id, w.pg.device id = some me := by
  unfold caller at h
  split at h
  · cases h
  · split at h
    · exact ⟨_, h⟩
    · cases h

/-! ## Decisions -/

/-- Both sides hash the same bytes. -/
theorem pairingContextHash_eq (C : Crypto) (name fp subject id : String) (v : Int) :
    Phone.pairingContextHash C name fp subject id v = contextHash C name fp subject id v := by
  simp [Phone.pairingContextHash, Phone.joinFields, contextHash, contextPreimage]

/-- An approval as an honest Owner's phone sends it: `record` is what the signer
made of the join on the card, `bytes` its encoding. -/
structure Approval where
  me : Device
  req : DecisionReq
  pub : Bytes
  sig : Bytes
  nonce : Bytes
  join : Phone.PairingJoin
  record : Phone.RecordFields
  bytes : Bytes

/-- The turn decides the session by this approval: the caller is the Owner who
signed, the card shows the join that the session has and the request time `v`,
and the signature is one of the encoded record. -/
structure Honest (S : Server) (id : String) (v : Int) (t : Turn) (a : Approval) : Prop where
  caller : caller S t.before t.request = some a.me
  route : t.request.route = .pairingDecision id (.ok a.req)
  key : decodePubKey a.req.subjectPubKeyB64 = some a.pub
  signature : decodeFirst (Text.trimSpace a.req.signatureB64) [(false, true), (true, true)] =
    some a.sig
  size : a.sig.length = signatureSize
  nonce : decodeFirst (Text.trimSpace a.req.nonceB64) [(false, true), (true, true)] =
    some a.nonce
  card : ∀ s, Found t.before id s →
    s.joinName = a.join.displayName ∧ s.joinFingerprint = a.join.fingerprint
  session : a.join.sessionId = id
  owner : a.join.ownerDeviceId = a.me.id
  time : a.join.requestedAtMillis = v
  signed : Phone.signedRecord S.crypto a.join a.pub a.req.authorizationId
    a.req.decidedAtMillis a.nonce = some a.record
  carried : Verified.Carried a.record
  encoded : Phone.encodeAuthorizationRecord a.record = .ok a.bytes
  valid : S.crypto.ed25519Verify a.me.pubKey a.bytes a.sig = true

/-- **The backend rebuilds what an honest phone signed**, once both have the same
request time. -/
theorem Honest.payload {id : String} {v : Int} {t : Turn} {a : Approval}
    (h : Honest S id v t a) {s : PairingSession} {subject : String}
    (hs : Found t.before id s) (hv : requestedAtProxy s = v)
    (hsubject : deviceIDForComputer S.crypto a.pub = .ok subject) :
    signingPayload (authorizationRecord S a.me s a.req id subject a.pub a.sig a.nonce) =
      a.bytes := by
  have hsigned := h.signed
  unfold Phone.signedRecord at hsigned
  split at hsigned
  · cases hsigned
  · obtain ⟨subject', hid, hrecord⟩ := Option.map_eq_some_iff.mp hsigned
    have hsame : subject' = subject := by
      unfold Phone.deviceIDForComputer at hid
      unfold deviceIDForComputer at hsubject
      split at hid
      · cases hid
      · rename_i hlen
        have hsize : ¬a.pub.length ≠ publicKeySize := hlen
        rw [if_neg hsize] at hsubject
        rw [← Option.some.inj hid]
        exact Except.ok.inj hsubject
    subst hsame
    obtain ⟨hname, hfp⟩ := h.card s hs
    have hrebuilt : Verified.Rebuilt S a.me s a.req a.record := by
      rw [← hrecord]
      refine ⟨rfl, h.owner.symm, rfl, ?_⟩
      show contextHash S.crypto s.joinName s.joinFingerprint subject' a.join.sessionId
        (requestedAtProxy s) = Phone.pairingContextHash _ _ _ _ _ _
      rw [pairingContextHash_eq, hname, hfp, hv, h.time]
    have hencoded := h.encoded
    rw [Verified.encode_fields h.carried] at hencoded
    split at hencoded
    · cases hencoded
    · rename_i hauth
      have hbytes := Verified.signingPayload_fields h.carried hauth hrebuilt a.sig
      rw [← Except.ok.inj hencoded, ← hbytes, ← hrecord]
      unfold Verified.rebuiltRecord
      rw [h.session]

/-- A valid signature of the right size is not what `VerifyAuthorization`
complains about. -/
theorem verify_complaint {C : Crypto} {r : AuthorizationRecord} {pub : Bytes} {id : String}
    {key hash : Bytes} {now ttl : Int} {e : TrustError}
    (hsize : r.ownerSignature.length = signatureSize)
    (hvalid : C.ed25519Verify pub (signingPayload r) r.ownerSignature = true)
    (h : verifyAuthorization C r pub id key hash now ttl = .error e) :
    e.code ≠ .badSignature := by
  unfold verifyAuthorization at h
  rw [hvalid] at h
  simp only [hsize, ne_eq, not_true_eq_false, if_false, Bool.not_true, Bool.false_eq_true] at h
  intro hcode
  repeat' split at h
  all_goals first
    | (rw [← Except.error.inj h] at hcode; cases hcode)
    | cases h

theorem declines_writeTrustErr {e : TrustError} (h : e.code ≠ .badSignature) :
    (writeTrustErr e).Declines := by
  unfold writeTrustErr
  split
  · exact declines_writeErr (by decide)
  · exact declines_writeErr (by decide)
  · exact declines_writeErr (by decide)
  · exact declines_writeErr (by decide)
  · rename_i hcode
    exact absurd hcode h
  · exact declines_writeErr (by decide)

/-- The checks before a decision, passed: the session found is the caller's. -/
theorem decidable_hruns {me : Device} {id : String} {req : DecisionReq} {s : PairingSession}
    {pub : Bytes} {subject : String}
    (h : HRuns S ok i (decidable S me id req) w (.ok (s, pub, subject)) w') :
    decodePubKey req.subjectPubKeyB64 = some pub ∧ Found w id s ∧ s.userId = me.userId ∧
      deviceIDForComputer S.crypto pub = .ok subject := by
  unfold decidable at h
  obtain ⟨pub', w₁, hkey, h⟩ := hruns_ok h
  obtain ⟨s', w₂, hget, h⟩ := hruns_ok h
  obtain ⟨_, w₃, huser, h⟩ := hruns_ok h
  obtain ⟨t, w₄, _, h⟩ := hruns_ok h
  obtain ⟨_, w₅, _, h⟩ := hruns_ok h
  obtain ⟨_, w₆, _, h⟩ := hruns_ok h
  obtain ⟨_, w₇, _, h⟩ := hruns_ok h
  obtain ⟨_, w₈, _, h⟩ := hruns_ok h
  obtain ⟨hw₁, hdecoded⟩ := require_ok hkey
  rw [hw₁] at hget
  cases hid : deviceIDForComputer S.crypto pub' with
  | error e =>
      rw [hid] at h
      obtain ⟨x, w₉, hthrow, _⟩ := hruns_ok h
      obtain ⟨he, _⟩ := hruns_throw.mp hthrow
      cases he
  | ok y =>
      rw [hid] at h
      obtain ⟨x, w₉, hderived, hpure⟩ := hruns_ok h
      obtain ⟨hx, _⟩ := hruns_pure.mp hderived
      obtain ⟨he, _⟩ := hruns_pure.mp hpure
      have hxy : x = y := Except.ok.inj hx
      have hall : s = s' ∧ pub = pub' ∧ subject = x := by simpa using Except.ok.inj he
      obtain ⟨rfl, rfl, rfl⟩ := hall
      refine ⟨hdecoded, getPairingSession_found (store_ok hget), ?_, ?_⟩
      · exact Classical.byContradiction (replyIf_ok huser).2
      · rw [hid, hxy]

theorem declining_decidable {me : Device} {id : String} {req : DecisionReq} :
    Declining S (decidable S me id req) := by
  unfold decidable
  apply Declining.bind (declining_require (declines_writeErr (by decide)))
  intro pub
  apply Declining.bind (declining_store declines_storeErr)
  intro s
  apply Declining.bind (declining_replyIf _ (declines_writeErr (by decide)))
  intro _
  apply Declining.bind declining_attempt
  intro t
  apply Declining.bind (declining_replyIf _ (declines_writeErr (by decide)))
  intro _
  apply Declining.bind (declining_replyIf _ (declines_writeErr (by decide)))
  intro _
  apply Declining.bind (declining_replyIf _ (declines_writeErr (by decide)))
  intro _
  apply Declining.bind (declining_replyIf _ (declines_writeErr (by decide)))
  intro _
  cases deviceIDForComputer S.crypto pub with
  | error e =>
      exact Declining.bind (declining_throw (declines_writeErr (by decide)))
        fun _ => declining_pure _
  | ok x => exact Declining.bind (declining_pure x) fun _ => declining_pure _

theorem declining_approve {me : Device} {id subject : String} {req : DecisionReq}
    {s : PairingSession} {pub : Bytes}
    (h : Declining S (verifiedRecord S me id req s pub subject)) :
    Declining S (approve S me id req s pub subject) := by
  unfold approve
  apply Declining.bind h
  intro rec'
  apply Declining.bind declining_attempt
  intro registered
  apply Declining.bind (declining_replyIf _ (declines_writeErr (by decide)))
  intro _
  apply Declining.bind (declining_store declines_storeErr)
  intro _
  apply Declining.bind declining_attempt
  exact fun _ => declining_pure _

theorem declining_reject {me : Device} {id : String} {s : PairingSession} :
    Declining S (reject me id s) := by
  unfold reject
  apply Declining.bind (declining_store declines_storeErr)
  intro _
  apply Declining.bind declining_attempt
  exact fun _ => declining_pure _

/-- **An honest approval is not refused for its signature** while the session is
found with the request time it was signed for. -/
theorem Honest.verified {id : String} {v : Int} {t : Turn} {a : Approval}
    (h : Honest S id v t a) {s : PairingSession} {subject : String} {e : Reply}
    (hs : Found t.before id s) (hv : requestedAtProxy s = v)
    (hsubject : deviceIDForComputer S.crypto a.pub = .ok subject)
    (hr : HRuns S ok i (verifiedRecord S a.me id a.req s a.pub subject) w (.error e) w') :
    e.Declines := by
  unfold verifiedRecord at hr
  rw [h.signature, h.nonce] at hr
  rcases hruns_bind.mp hr with ⟨sig, w₁, hsig, hr⟩ | ⟨e', hsig, _⟩
  · have hsame : sig = a.sig :=
      (Option.some.inj (Option.filter_eq_some_iff.mp (require_ok hsig).2).1).symm
    subst hsame
    rcases Declining.pass (declining_replyIf _ (declines_writeErr (by decide))) hr with
      hd | ⟨_, w₂, _, hr⟩
    · exact hd
    rcases Declining.pass (declining_require (declines_writeErr (by decide))) hr with
      hd | ⟨nonce, w₃, hnonce, hr⟩
    · exact hd
    have hsame : nonce = a.nonce :=
      (Option.some.inj (Option.filter_eq_some_iff.mp (require_ok hnonce).2).1).symm
    subst hsame
    rcases Declining.pass (declining_replyIf _ (declines_writeErr (by decide))) hr with
      hd | ⟨_, w₄, _, hr⟩
    · exact hd
    rcases Declining.pass (declining_attempt (c := .now)) hr with hd | ⟨tm, w₅, _, hr⟩
    · exact hd
    dsimp only at hr
    split at hr
    · obtain ⟨he, _⟩ := hruns_pure.mp hr
      cases he
    · rename_i e' hverify
      obtain ⟨he, _⟩ := hruns_throw.mp hr
      rw [Except.error.inj he]
      apply declines_writeTrustErr
      refine verify_complaint h.size ?_ hverify
      rw [h.payload hs hv hsubject]
      exact h.valid
  · -- the signature decodes and has its size
    obtain ⟨_, ⟨_, _, he⟩ | ⟨hnone, _⟩⟩ := hruns_require.mp hsig
    · cases he
    · rw [Option.filter_eq_none_iff] at hnone
      exact absurd (by simpa using h.size) (hnone a.sig rfl)

/-- The reply of a decision that went through. -/
theorem decision_ok {rid : String} {me : Device} {id : String} {body : Json DecisionReq}
    {rep : Reply} (h : HRuns S ok i (handlePairingDecision S rid me id body) w (.ok rep) w') :
    ∃ st subject, rep = ⟨200, .decided id st subject⟩ := by
  unfold handlePairingDecision at h
  obtain ⟨_, w₁, _, h⟩ := hruns_ok h
  obtain ⟨_, w₂, _, h⟩ := hruns_ok h
  obtain ⟨req, w₃, _, h⟩ := hruns_ok h
  obtain ⟨⟨s, pub, subject⟩, w₄, _, h⟩ := hruns_ok h
  change HRuns S ok i (if _ then _ else _) w₄ _ w' at h
  split at h
  · unfold approve at h
    obtain ⟨rec', w₅, _, h⟩ := hruns_ok h
    obtain ⟨registered, w₆, _, h⟩ := hruns_ok h
    obtain ⟨_, w₇, _, h⟩ := hruns_ok h
    obtain ⟨_, w₈, _, h⟩ := hruns_ok h
    obtain ⟨_, w₉, _, h⟩ := hruns_ok h
    obtain ⟨he, _⟩ := hruns_pure.mp h
    exact ⟨_, _, Except.ok.inj he⟩
  · unfold reject at h
    obtain ⟨_, w₅, _, h⟩ := hruns_ok h
    obtain ⟨_, w₆, _, h⟩ := hruns_ok h
    obtain ⟨he, _⟩ := hruns_pure.mp h
    exact ⟨_, _, Except.ok.inj he⟩

/-- The decision of an honest approval never complains about the signature, if
every session it may find has the request time it was signed for. -/
theorem Honest.accepted {id : String} {v : Int} {t : Turn} {a : Approval}
    (h : Honest S id v t a) (hok : ∃ o, ok o)
    (hs : Served S ok i t.request t.before t.reply t.after)
    (hv : ∀ s, Found t.before id s → s.userId = a.me.userId → requestedAtProxy s = v)
    (msg : String) (retryable : Bool) :
    t.reply.body ≠ .err Code.badSignature.text msg retryable := by
  have hdeclines : t.reply.Declines →
      t.reply.body ≠ .err Code.badSignature.text msg retryable := by
    rintro ⟨code, m, b, hbody, hcode⟩ hbad
    rw [hbody] at hbad
    exact hcode (Body.err.inj hbad).1
  have hroute : routes S t.request =
      .authed fun me _ => handlePairingDecision S t.request.requestId me id (.ok a.req) := by
    unfold routes
    rw [h.route]
  rcases served_as hok hroute hs with hd | ⟨me, user, x, w₁, res, hme, _, hkept, _, hrun, hres⟩
  · exact hdeclines hd
  · have hsame : me = a.me := Option.some.inj (hme.symm.trans h.caller)
    subst hsame
    rcases hres with hres | hres
    · rw [hres] at hrun
      obtain ⟨st, subject, hrep⟩ := decision_ok hrun
      rw [hrep]
      exact nofun
    · rw [hres] at hrun
      apply hdeclines
      unfold handlePairingDecision at hrun
      rcases Declining.pass declining_idempotent hrun with hd | ⟨_, w₂, hmark, hrun⟩
      · exact hd
      rcases Declining.pass (declining_replyIf _ (declines_writeErr (by decide))) hrun with
        hd | ⟨_, w₃, hrole, hrun⟩
      · exact hd
      rcases Declining.pass declining_decode hrun with hd | ⟨req, w₄, hreq, hrun⟩
      · exact hd
      rcases Declining.pass declining_decidable hrun with
        hd | ⟨⟨s, pub, subject⟩, w₅, hcheck, hrun⟩
      · exact hd
      obtain ⟨hw₄, hreq⟩ := decode_ok hreq
      have hsame : req = a.req := (Except.ok.inj hreq).symm
      subst hsame
      obtain ⟨hkey, hfound, huser, hsubject⟩ := decidable_hruns hcheck
      have hpub : pub = a.pub := Option.some.inj (hkey.symm.trans h.key)
      subst hpub
      have hbefore : Found t.before id s := by
        rw [hw₄, (replyIf_ok hrole).1] at hfound
        exact kept_found hkept (idempotent_found hmark hfound)
      change HRuns S ok i (if _ then _ else _) w₅ _ t.after at hrun
      split at hrun
      · exact declining_approve
          (fun hr => h.verified hbefore (hv s hbefore huser) hsubject hr) hrun
      · exact declining_reject hrun

/-! ## Turns -/

theorem declining_create {rid : String} {me : Device} :
    Declining S (handlePairingCreate rid me) := by
  unfold handlePairingCreate
  apply Declining.bind declining_idempotent
  intro _
  apply Declining.bind (declining_replyIf _ (declines_writeErr (by decide)))
  intro _
  apply Declining.bind declining_attempt
  intro t
  apply Declining.bind declining_attempt
  intro idBytes
  apply Declining.bind declining_attempt
  intro nonceBytes
  apply Declining.bind
  · apply declining_store
    intro e
    split
    · exact declines_writeErr (by decide)
    · exact declines_writeErr (by decide)
  · exact fun _ => declining_pure _

theorem declining_get {me : Device} {id : String} : Declining S (handlePairingGet me id) := by
  unfold handlePairingGet
  apply Declining.bind (declining_store declines_storeErr)
  intro s
  apply Declining.bind (declining_replyIf _ (declines_writeErr (by decide)))
  exact fun _ => declining_pure _

theorem Reply.Declines.not_session {status : Nat} {j : SessionView} {r : Reply}
    (h : r.Declines) (hr : r = ⟨status, .session j⟩) : False := by
  obtain ⟨code, msg, b, hbody, _⟩ := h
  rw [hr] at hbody
  cases hbody

/-- **A created session has the expiry of its instant.** -/
theorem Turn.Creates.expiry {t : Turn} {id : String} (hok : ∃ o, ok o)
    (hs : Served S ok i t.request t.before t.reply t.after) (h : t.Creates id) :
    t.after.pg.expiry id = some (Time.micros (t.before.clock + pairingTTL)) ∧
      ∀ j, t.reply = ⟨201, .session j⟩ →
        j.expiresAtMillis = Time.unixMilli (t.before.clock + pairingTTL) := by
  obtain ⟨hroute, j, hrep, hid⟩ := h
  have hauth : routes S t.request =
      .authed fun me _ => handlePairingCreate t.request.requestId me := by
    unfold routes
    rw [hroute]
  rcases served_as hok hauth hs with hd | ⟨me, user, x, w₁, res, _, _, hkept, _, hrun, hres⟩
  · exact (hd.not_session hrep).elim
  · rcases hres with hres | hres
    · rw [hres] at hrun
      obtain ⟨s, hs', hexp, hrow⟩ := create_hruns hok hrun
      have hview : j = sessionJSON s := by
        rw [hs'] at hrep
        injection hrep with _ hbody
        exact (Body.session.inj hbody).symm
      have hsame : s.id = id := by
        rw [← hid, hview]
        rfl
      rw [hkept.clock] at hexp
      rw [hsame, hexp] at hrow
      refine ⟨hrow, ?_⟩
      intro j' hrep'
      rw [hs'] at hrep'
      injection hrep' with _ hbody
      rw [← Body.session.inj hbody]
      show Time.unixMilli s.expiresAt = _
      rw [hexp]
    · rw [hres] at hrun
      exact ((declining_create hrun).not_session hrep).elim

private theorem minutes_off (t : Time) :
    Time.unixMilli (t + pairingTTL) - Phone.kPairingTtlMillis = Time.unixMilli t := by
  have hmillis : ∀ n : Int, (n + 600000000000) / 1000000 - 600000 = n / 1000000 := by
    intro n
    omega
  exact hmillis t

private theorem minutes_before (t : Time) :
    Time.unixMilli t - Phone.kPairingTtlMillis = Time.unixMilli (t - pairingTTL) := by
  have hmillis : ∀ n : Int, n / 1000000 - 600000 = (n - 600000000000) / 1000000 := by
    intro n
    omega
  exact hmillis t

/-- **What a turn shows is one of the two request times.** -/
theorem Shows.timed {t : Turn} {id : String} {v : Int} (hok : ∃ o, ok o)
    (hd : Dated t.before) (hs : Served S ok i t.request t.before t.reply t.after)
    (h : Shows S id t v) : Timed t.after id v := by
  have hlater : ∀ {x}, Timed t.before id x → Timed t.after id x := by
    rintro x ⟨e, he, hx⟩
    exact ⟨e, served_expiry hok hs he, hx⟩
  cases h with
  | @create j hroute hrep hid =>
      obtain ⟨hrow, hview⟩ := Turn.Creates.expiry hok hs ⟨hroute, j, hrep, hid⟩
      refine ⟨_, hrow, .inl ?_⟩
      show j.expiresAtMillis - Phone.kPairingTtlMillis = _
      rw [hview j hrep, minutes_off, row_requestedAt]
  | @get j hroute hrep =>
      have hauth : routes S t.request = .authed fun me _ => handlePairingGet me id := by
        unfold routes
        rw [hroute]
      rcases served_as hok hauth hs with
        hdec | ⟨me, user, x, w₁, res, _, hrow, hkept, _, hrun, hres⟩
      · exact (hdec.not_session hrep).elim
      · rcases hres with hres | hres
        · rw [hres] at hrun
          obtain ⟨s, hs', hfound, hmine⟩ := get_hruns hrun
          have hview : j = sessionJSON s := by
            rw [hs'] at hrep
            injection hrep with _ hbody
            exact (Body.session.inj hbody).symm
          have hnamed := (hd.named me (Tables.device_mem hrow)).1
          have howned : s.createdBy ≠ "" := by
            rw [hmine]
            exact hnamed
          have htimed := found_timed hd (kept_found hkept hfound) (.inr (.inl howned))
          apply hlater
          have hvalue : (Phone.PairingSession.fromJson j).requestedAtMillis =
              requestedAtProxy s := by
            rw [hview]
            exact minutes_before s.expiresAt
          rw [hvalue]
          exact htimed
        · rw [hres] at hrun
          exact ((declining_get hrun).not_session hrep).elim
  | @join body ev name fp rid key v hroute hnew hold hpayload =>
      have hplain : routes S t.request = .plain (handlePairingJoin S id body) := by
        unfold routes
        rw [hroute]
      rcases (served_plain hplain).mp hs with hrun | hrun
      · exact join_hruns hd hrun hnew hold hpayload
      · exact join_hruns hd hrun hnew hold hpayload
  | @decision body me s hroute hme hfound huser =>
      obtain ⟨x, hrow⟩ := caller_registered hme
      have hnamed := (hd.named me (Tables.device_mem hrow)).2
      have howned : s.userId ≠ "" := by
        rw [huser]
        exact hnamed
      exact hlater (found_timed hd hfound (.inl howned))

/-! ## Histories -/

/-- Every turn of a history was served, from a state where the stores agree. -/
theorem Serving.turn_served {w₀ : World} {turns : List Turn} (h : Serving S w₀ turns w)
    (h₀ : Dated w₀) {t : Turn} (ht : t ∈ turns) :
    Dated t.before ∧
      ∃ i, Served S (fun _ => True) i t.request t.before t.reply t.after := by
  induction h with
  | start => cases ht
  | @turn turns w w' i r rep hserving hs ih =>
      rcases List.mem_append.mp ht with hin | hin
      · exact ih hin
      · rw [List.mem_singleton.mp hin]
        exact ⟨hserving.dated h₀, i, hs⟩
  | env _ _ ih => exact ih ht

/-- The expiry of a session after a turn is its expiry ever after. -/
theorem Serving.expiry {w₀ : World} {turns : List Turn} (h : Serving S w₀ turns w)
    {id : String} {e : Time} {t : Turn} (ht : t ∈ turns) (he : t.after.pg.expiry id = some e) :
    w.pg.expiry id = some e := by
  induction h with
  | start => cases ht
  | @turn turns w w' i r rep hserving hs ih =>
      rcases List.mem_append.mp ht with hin | hin
      · exact served_expiry ⟨{}, trivial⟩ hs (ih hin)
      · rw [List.mem_singleton.mp hin] at he
        exact he
  | @env turns w w' e' _ hstep ih =>
      obtain ⟨tm, hpg⟩ := Env.step_pg hstep
      rw [hpg]
      exact ih ht

theorem dated_empty : Dated {} where
  unstaged j tx d hj := by
    have hnone : ({} : World).pg.txs j = none := rfl
    rw [hnone] at hj
    cases hj
  named d hd := absurd hd List.not_mem_nil
  live id e he := by
    have hnone : ({} : World).rd.pairing id = none := rfl
    rw [hnone] at he
    cases he

/-- **One request time.**  Serve any requests from empty stores, with any faults
and any time between them, on every clock.  The stores carry one request time
for a session exactly if it was created within the first millisecond of a second;
a session created then is shown with that time wherever it is shown, and an
honest approval for it is never refused as a bad signature. -/
theorem request_time_agrees {turns : List Turn} (h : Serving S {} turns w) {id : String}
    {made : Turn} (hmade : made ∈ turns) (hcreates : made.Creates id) :
    ((∀ s : PairingSession, s.expiresAt = made.before.clock + pairingTTL →
        requestedAtProxy (Redis.decoded s.id (Redis.createFields s)) =
          requestedAtProxy (Postgres.scanned (Postgres.newRow s))) ↔
      OnTheSecond made.before.clock) ∧
    (OnTheSecond made.before.clock →
      (∀ t ∈ turns, ∀ v, Shows S id t v → v = Time.unixMilli made.before.clock) ∧
      ∀ t ∈ turns, ∀ shown ∈ turns, ∀ v a, Shows S id shown v → Honest S id v t a →
        ∀ msg retryable, t.reply.body ≠ .err Code.badSignature.text msg retryable) := by
  obtain ⟨_, i, hs⟩ := h.turn_served dated_empty hmade
  have hrow : w.pg.expiry id = some (Time.micros (made.before.clock + pairingTTL)) :=
    h.expiry hmade (Turn.Creates.expiry ⟨{}, trivial⟩ hs hcreates).1
  constructor
  · have hread : ∀ s : PairingSession, s.expiresAt = made.before.clock + pairingTTL →
        (requestedAtProxy (Redis.decoded s.id (Redis.createFields s)) =
          requestedAtProxy (Postgres.scanned (Postgres.newRow s)) ↔
            OnTheSecond made.before.clock) := by
      intro s hexp
      have hhash : requestedAtProxy (Redis.decoded s.id (Redis.createFields s)) =
          Time.unixMilli (Time.unix (Time.micros (made.before.clock + pairingTTL)) *
            Time.second - pairingTTL) := by
        show Time.unixMilli (Time.unix s.expiresAt * Time.second - pairingTTL) = _
        rw [hexp, unix_micros]
      have hscanned : requestedAtProxy (Postgres.scanned (Postgres.newRow s)) =
          Time.unixMilli made.before.clock := by
        show Time.unixMilli (Time.micros s.expiresAt - pairingTTL) = _
        rw [hexp, row_requestedAt]
      rw [hhash, hscanned]
      exact hash_requestedAt_iff _
    constructor
    · intro hall
      exact (hread ⟨"", "", "", none, _, "", [], "", "", ""⟩ rfl).mp
        (hall ⟨"", "", "", none, _, "", [], "", "", ""⟩ rfl)
    · exact fun hon s hexp => (hread s hexp).mpr hon
  · intro hon
    have hshown : ∀ t ∈ turns, ∀ v, Shows S id t v →
        v = Time.unixMilli made.before.clock := by
      intro t ht v hv
      obtain ⟨hd, j, hserved⟩ := h.turn_served dated_empty ht
      obtain ⟨e, he, hval⟩ := hv.timed ⟨{}, trivial⟩ hd hserved
      have htimed : Timed w id v := ⟨e, h.expiry ht he, hval⟩
      exact htimed.agree hrow hon
    refine ⟨hshown, ?_⟩
    intro t ht shown hsh v a hv ha msg retryable
    obtain ⟨_, j, hserved⟩ := h.turn_served dated_empty ht
    refine ha.accepted ⟨{}, trivial⟩ hserved ?_ msg retryable
    intro s hfound huser
    have hdecides := hshown t ht _ (Shows.decision ha.route ha.caller hfound huser)
    rw [hdecides, hshown shown hsh v hv]

/-! ### A session created in the middle of a second -/

namespace Polling

/-- The Owner asks for a session. -/
def createReq : Request where
  authorization := Sample.bearer 3
  requestId := "c1"
  route := .pairingCreate

/-- The Owner's phone polls it. -/
def getReq : Request where
  authorization := Sample.bearer 3
  route := .pairingGet Sample.session

/-- The computer joins it. -/
def joinReq : Request where
  route := .pairingJoin Sample.session (.ok {
    pubKeyB64 := Sample.base64 Sample.computerKey
    fingerprint := Sample.computerFp
    displayName := "Desk"
    requestId := "j1"
    qrNonce := Ws.newNonceB64URL (List.replicate 16 10) })

/-- The Owner is logged in, and the clock stands at `t`. -/
def at' (t : Time) : Sample.Conf :=
  { Sample.ownerIn with world := { Sample.ownerIn.world with clock := t } }

/-- The session as a reply shows it. -/
def view (expiresAtMillis : Int) : SessionView where
  sessionId := Sample.session
  status := some .pending
  ownerDeviceId := "PH-1"
  expiresAtMillis := expiresAtMillis
  qrNonce := Ws.newNonceB64URL (List.replicate 16 10)
  join := none

/-- The session is created and then polled, at the instant `t`. -/
def created (t : Time) : Sample.Conf := Sample.ask (at' t) 10 createReq

def polled (t : Time) : Sample.Conf := Sample.ask (created t) 11 getReq

end Polling

open Polling in
/-- A history from the sample: log in, set the clock, create, poll. -/
private theorem sample_history {t : Time} {made read : Reply}
    (hlogin : Sample.answered boot Sample.ownerLogin = true)
    (hmade : replied (created t) (at' t).pool.length = some made)
    (hread : replied (polled t) (created t).pool.length = some read) :
    ∃ turns, Serving Sample.server {} turns (polled t).world ∧
      ⟨(at' t).world, createReq, made, (created t).world⟩ ∈ turns ∧
      ⟨(created t).world, getReq, read, (polled t).world⟩ ∈ turns := by
  obtain ⟨turns, h, -⟩ : ∃ turns, Serving Sample.server {} turns Sample.ownerIn.world ∧ _ :=
    serving_asks Sample.ownerLogin (c := boot) .start hlogin
  have hclock : Serving Sample.server {} turns (at' t).world :=
    .env (e := .setClock t) h rfl
  have hcreate := hclock.turn (Sample.ask_served (c := at' t) hmade).any
  have hpoll := hcreate.turn (Sample.ask_served (c := created t) hread).any
  refine ⟨_, hpoll, ?_, ?_⟩
  · exact List.mem_append_left _ (List.mem_append_right _ List.mem_cons_self)
  · exact List.mem_append_right _ List.mem_cons_self

namespace Polling

/-- A minute and a half after the epoch, and half a millisecond. -/
def later : Time := 90000500000

/-- The session is created, polled and joined. -/
def joined : Sample.Conf := Sample.ask (polled later) 12 joinReq

/-- The decision the Owner's phone sends, with the signature of the record it has made. -/
def decision : DecisionReq where
  approve := true
  subjectPubKeyB64 := Sample.base64 Sample.computerKey
  signatureB64 := Sample.base64 Sample.laterApprovalSig
  authorizationId := "auth-1"
  nonceB64 := Sample.base64 (List.replicate 16 7)
  decidedAtMillis := 90001

def decisionReq : Request where
  authorization := Sample.bearer 3
  requestId := "d1"
  route := .pairingDecision Sample.session (.ok decision)

def decided : Sample.Conf := Sample.ask joined 13 decisionReq

/-- The join on the Owner's card. -/
def card : Phone.PairingJoin where
  requestId := "j1"
  pubkeyB64 := Sample.base64 Sample.computerKey
  displayName := "Desk"
  fingerprint := Sample.computerFp
  sessionId := Sample.session
  ownerDeviceId := "PH-1"
  requestedAtMillis := 90000

/-- What the phone signs. -/
def record : Phone.RecordFields where
  authorizationId := "auth-1"
  sessionId := Sample.session
  subjectDeviceId := "RD-WIN-1325B850"
  subjectPublicKey := Sample.computerKey
  ownerDeviceId := "PH-1"
  contextHash := Sample.laterContext
  decidedAtMillis := 90001
  nonce := List.replicate 16 7

/-- The approval of the Owner `me`. -/
def approvalOf (me : Device) : Approval where
  me := me
  req := decision
  pub := Sample.computerKey
  sig := Sample.laterApprovalSig
  nonce := List.replicate 16 7
  join := card
  record := record
  bytes := signingPayload Sample.laterApproval

/-- The run to the poll, the run to the decision, what the Owner's phone signs for it, and what
the server reads of that. -/
private theorem sample_run :
    (Sample.answered boot Sample.ownerLogin = true ∧
      replied (created 1500000000) (at' 1500000000).pool.length =
        some ⟨201, .session (view 601500)⟩ ∧
      replied (polled 1500000000) (created 1500000000).pool.length =
        some ⟨200, .session (view 601000)⟩) ∧
    (replied (created later) (at' later).pool.length =
        some ⟨201, .session (view 690000)⟩ ∧
      replied (polled later) (created later).pool.length =
        some ⟨200, .session (view 690000)⟩ ∧
      (replied joined (polled later).pool.length).isSome = true ∧
      (replied decided joined.pool.length).map Reply.status = some 200) ∧
    ((caller Sample.server joined.world decisionReq).map (fun me => (me.id, me.pubKey)) =
        some ("PH-1", Sample.ownerKey) ∧
      (joined.world.rd.pairing.get joined.world.rd.now Sample.session).map (fun m =>
        ((Redis.decoded Sample.session m).joinName,
          (Redis.decoded Sample.session m).joinFingerprint)) =
        some ("Desk", Sample.computerFp)) ∧
    (Phone.signedRecord Sample.crypto card Sample.computerKey "auth-1" 90001
        (List.replicate 16 7) = some record ∧
      Phone.encodeAuthorizationRecord record = .ok (signingPayload Sample.laterApproval) ∧
      Sample.crypto.ed25519Verify Sample.ownerKey (signingPayload Sample.laterApproval)
        Sample.laterApprovalSig = true ∧
      Sample.laterApprovalSig.length = signatureSize) ∧
    decodePubKey decision.subjectPubKeyB64 = some Sample.computerKey ∧
    decodeFirst (Text.trimSpace decision.signatureB64) [(false, true), (true, true)] =
      some Sample.laterApprovalSig ∧
    decodeFirst (Text.trimSpace decision.nonceB64) [(false, true), (true, true)] =
      some (List.replicate 16 7) := by
  decide +kernel

private theorem record_carried : Verified.Carried record where
  session := by decide
  owner := by decide
  subject := by decide
  key := by decide
  context := by decide
  nonce := by decide
  decided := by decide
  authorization := by decide
  lengths := by decide

/-- The join the Owner decides on is the one on the card. -/
private theorem later_card {s : PairingSession} (hs : Found joined.world Sample.session s) :
    s.joinName = card.displayName ∧ s.joinFingerprint = card.fingerprint := by
  obtain ⟨m, hm, hcard⟩ := Option.map_eq_some_iff.mp sample_run.2.2.1.2
  rcases hs with ⟨m', hm', rfl⟩ | ⟨_, _, hnone, _⟩
  · obtain rfl : m = m' := Option.some.inj (hm.symm.trans hm')
    exact ⟨congrArg Prod.fst hcard, congrArg Prod.snd hcard⟩
  · rw [hm] at hnone
    cases hnone

/-- The Owner's decision is that of an honest phone, where the card shows what has joined. -/
private theorem later_honest {w after : World} {me : Device} {rep : Reply}
    (hme : caller Sample.server w decisionReq = some me) (hid : me.id = "PH-1")
    (hkey : me.pubKey = Sample.ownerKey)
    (hcard : ∀ s, Found w Sample.session s →
      s.joinName = card.displayName ∧ s.joinFingerprint = card.fingerprint) :
    Honest Sample.server Sample.session 90000 ⟨w, decisionReq, rep, after⟩
      (approvalOf me) := by
  obtain ⟨-, -, -, ⟨hsigned, hencoded, hvalid, hsize⟩, hsubject, hsignature, hnonce⟩ := sample_run
  exact {
    caller := hme
    route := rfl
    key := hsubject
    signature := hsignature
    size := hsize
    nonce := hnonce
    card := hcard
    session := rfl
    owner := hid.symm
    time := rfl
    signed := hsigned
    carried := record_carried
    encoded := hencoded
    valid := by
      show Sample.crypto.ed25519Verify me.pubKey _ _ = true
      rw [hkey]
      exact hvalid }

end Polling

/-- Created one and a half seconds after the epoch, a session is shown as asked for
at that instant, and by the next poll, which Redis answers, half a second
earlier. -/
theorem polled_half_a_second_off :
    ∃ turns w, Serving Sample.server {} turns w ∧ ∃ made ∈ turns, ∃ read ∈ turns,
      made.Creates Sample.session ∧
      Shows Sample.server Sample.session made 1500 ∧
      Shows Sample.server Sample.session read 1000 := by
  obtain ⟨⟨hlogin, hmade, hread⟩, -⟩ := Polling.sample_run
  obtain ⟨turns, h, hin, hin'⟩ := sample_history hlogin hmade hread
  have hfirst : Shows Sample.server Sample.session
      ⟨(Polling.at' 1500000000).world, Polling.createReq, ⟨201, .session (Polling.view 601500)⟩,
        (Polling.created 1500000000).world⟩ 1500 :=
    Shows.create (j := Polling.view 601500) rfl rfl rfl
  have hsecond : Shows Sample.server Sample.session
      ⟨(Polling.created 1500000000).world, Polling.getReq,
        ⟨200, .session (Polling.view 601000)⟩, (Polling.polled 1500000000).world⟩ 1000 :=
    Shows.get (j := Polling.view 601000) rfl rfl
  exact ⟨turns, _, h, _, hin, _, hin', ⟨rfl, Polling.view 601500, rfl, rfl⟩, hfirst, hsecond⟩

open Polling in
/-- Created ninety seconds after the epoch, a session is shown with that time to the end, and
the honest approval of its computer is no bad signature. -/
theorem request_time_agrees_sample :
    ∃ turns w, Serving Sample.server {} turns w ∧
      ∃ made ∈ turns, ∃ read ∈ turns, ∃ t ∈ turns, ∃ a,
        made.Creates Sample.session ∧ Shows Sample.server Sample.session read 90000 ∧
        Honest Sample.server Sample.session 90000 t a ∧ t.reply.status = 200 ∧
        (∀ t ∈ turns, ∀ v, Shows Sample.server Sample.session t v → v = 90000) ∧
        ∀ msg retryable, t.reply.body ≠ .err Code.badSignature.text msg retryable := by
  obtain ⟨⟨hlogin, -, -⟩, ⟨hmade, hread, hjoined, hdecided⟩, ⟨hcaller, -⟩, -, -⟩ := sample_run
  obtain ⟨turns, h, hin, hin'⟩ := sample_history hlogin hmade hread
  obtain ⟨rep, hrep⟩ := Option.isSome_iff_exists.mp hjoined
  obtain ⟨rep', hrep', hstatus⟩ := Option.map_eq_some_iff.mp hdecided
  have hjoin := h.turn (Sample.ask_served (c := polled later) hrep).any
  have hdecide := hjoin.turn (Sample.ask_served (c := joined) hrep').any
  obtain ⟨me, hme, howner⟩ := Option.map_eq_some_iff.mp hcaller
  have hhonest : Honest Sample.server Sample.session 90000
      ⟨joined.world, decisionReq, rep', decided.world⟩ (approvalOf me) :=
    later_honest hme (congrArg Prod.fst howner) (congrArg Prod.snd howner) fun _ => later_card
  have hcreates : Turn.Creates ⟨(at' later).world, createReq, ⟨201, .session (view 690000)⟩,
      (created later).world⟩ Sample.session := ⟨rfl, view 690000, rfl, rfl⟩
  have hshows : Shows Sample.server Sample.session ⟨(created later).world, getReq,
      ⟨200, .session (view 690000)⟩, (polled later).world⟩ 90000 :=
    Shows.get (j := view 690000) rfl rfl
  have hold : ∀ {t}, t ∈ turns → t ∈ (turns ++ [⟨(polled later).world, joinReq, rep,
      joined.world⟩]) ++ [⟨joined.world, decisionReq, rep', decided.world⟩] :=
    fun ht => List.mem_append_left _ (List.mem_append_left _ ht)
  have hlast : (⟨joined.world, decisionReq, rep', decided.world⟩ : Turn) ∈
      (turns ++ [⟨(polled later).world, joinReq, rep, joined.world⟩]) ++
        [⟨joined.world, decisionReq, rep', decided.world⟩] :=
    List.mem_append_right _ List.mem_cons_self
  have hon : OnTheSecond later := by
    unfold OnTheSecond
    decide
  obtain ⟨hshown, haccepted⟩ := (request_time_agrees hdecide (hold hin) hcreates).2 hon
  exact ⟨_, _, hdecide, _, hold hin, _, hold hin', _, hlast, _, hcreates, hshows, hhonest,
    hstatus, hshown, haccepted _ hlast _ (hold hin') _ _ hshows hhonest⟩

end Calcar.Api
