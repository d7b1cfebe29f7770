import Calcar.Verified.Rules

/-!
# Requests served one at a time

A request that is served alone is one run of its program.  The lemmas here
take such a run apart: at the commands of a store method, at the early exits
of a handler, at the checks of `authed`.

At the end stands a server with two real key pairs, on which whole histories
can be replayed: its hash and signature check are tables of the values SHA-256
and Ed25519 have on the inputs that occur.

## Main results

* `hruns_bind`, `hruns_store`, `hruns_replyIf` — a handler's run, step by
  step.
* `runs_serve_plain`, `runs_serve_authed` — a request's run.
-/

namespace Calcar

open Lib

variable {ok : Oracle → Prop} {i : Nat}

/-! ## Core programs inside the server -/

/-- A core program runs the same inside the server. -/
theorem runs_toSrv {α : Type} {p : Core.M α} {a : α} {w w' : World} :
    Prog.Runs Srv.exec ok i (Core.toSrv p) w a w' ↔ Prog.Runs Core.exec ok i p w a w' := by
  induction p generalizing w with
  | ret b => rw [Core.toSrv_ret, Prog.runs_ret, Prog.runs_ret]
  | call c k ih =>
      rw [Core.toSrv_call, Prog.runs_call, Prog.runs_call]
      constructor
      · rintro ⟨o, w₁, r, ho, hx, hk⟩
        exact ⟨o, w₁, r, ho, hx, (ih r).mp hk⟩
      · rintro ⟨o, w₁, r, ho, hx, hk⟩
        exact ⟨o, w₁, r, ho, hx, (ih r).mpr hk⟩

/-- A statement alone: its step, with some fault. -/
theorem runs_pg {c : PgCmd} {r : Except Pg.PgErr c.Ret} {w w' : World} :
    Prog.Runs Core.exec ok i (Postgres.pg c) w r w' ↔
      ∃ o p', ok o ∧ c.exec i o.fault w.pg = some (p', r) ∧ w' = { w with pg := p' } := by
  constructor
  · intro h
    obtain ⟨o, ho, hx⟩ := Prog.runs_perform.mp h
    simp only [Core.exec] at hx
    cases he : c.exec i o.fault w.pg with
    | none => rw [he] at hx; cases hx
    | some x =>
        obtain ⟨p', r'⟩ := x
        rw [he] at hx
        simp only [Option.some.injEq, Prod.mk.injEq] at hx
        obtain ⟨rfl, rfl⟩ := hx
        exact ⟨o, p', ho, he, rfl⟩
  · rintro ⟨o, p', ho, he, rfl⟩
    refine Prog.runs_perform.mpr ⟨o, ho, ?_⟩
    simp only [Core.exec, he]

/-- A Redis command alone. -/
theorem runs_rd {c : RdCmd} {r : Except Err c.Ret} {w w' : World} :
    Prog.Runs Core.exec ok i (Redis.rd c) w r w' ↔
      ∃ o, ok o ∧ r = (c.exec i o.fault w.rd).2 ∧
        w' = { w with rd := (c.exec i o.fault w.rd).1 } := by
  constructor
  · intro h
    obtain ⟨o, ho, hx⟩ := Prog.runs_perform.mp h
    simp only [Core.exec, Option.some.injEq, Prod.mk.injEq] at hx
    exact ⟨o, ho, hx.2.symm, hx.1.symm⟩
  · rintro ⟨o, ho, rfl, rfl⟩
    exact Prog.runs_perform.mpr ⟨o, ho, rfl⟩

/-- A statement whose error is mapped. -/
theorem runs_query {c : PgCmd} {r : Except Err c.Ret} {w w' : World} :
    Prog.Runs Core.exec ok i (Postgres.query c) w r w' ↔
      ∃ r', Prog.Runs Core.exec ok i (Postgres.pg c) w r' w' ∧
        r = Postgres.reported r' := by
  unfold Postgres.query
  rw [Prog.runs_bind]
  constructor
  · rintro ⟨r', w₁, hp, hk⟩
    cases r' with
    | error e =>
        obtain ⟨rfl, rfl⟩ := Prog.runs_ret.mp hk
        exact ⟨_, hp, rfl⟩
    | ok a =>
        obtain ⟨rfl, rfl⟩ := Prog.runs_ret.mp hk
        exact ⟨_, hp, rfl⟩
  · rintro ⟨r', hp, rfl⟩
    refine ⟨r', w', hp, ?_⟩
    cases r' with
    | error e => exact .ret _ _
    | ok a => exact .ret _ _

/-- The clock alone. -/
theorem runs_clock {t : Time} {w w' : World} (hok : ∃ o, ok o) :
    Prog.Runs Core.exec ok i (Core.perform .now) w t w' ↔ t = w.clock ∧ w' = w := by
  rw [Prog.runs_perform]
  constructor
  · rintro ⟨o, _, hx⟩
    simp only [Core.exec, Option.some.injEq, Prod.mk.injEq] at hx
    exact ⟨hx.2.symm, hx.1.symm⟩
  · rintro ⟨rfl, rfl⟩
    obtain ⟨o, ho⟩ := hok
    exact ⟨o, ho, rfl⟩

/-! ## Working stores -/

/-- The call works: nothing fails on the way. -/
def Working (o : Oracle) : Prop := o.fault = .none

namespace World

/-- The world with another Redis. -/
def setRd (w : World) (r : RdState) : World := { w with rd := r }

/-- The world with another Postgres. -/
def setPg (w : World) (p : PgState) : World := { w with pg := p }

@[simp] theorem setRd_rd (w : World) (r : RdState) : (w.setRd r).rd = r := rfl
@[simp] theorem setRd_pg (w : World) (r : RdState) : (w.setRd r).pg = w.pg := rfl
@[simp] theorem setRd_clock (w : World) (r : RdState) : (w.setRd r).clock = w.clock := rfl
@[simp] theorem setPg_pg (w : World) (p : PgState) : (w.setPg p).pg = p := rfl
@[simp] theorem setPg_rd (w : World) (p : PgState) : (w.setPg p).rd = w.rd := rfl
@[simp] theorem setPg_clock (w : World) (p : PgState) : (w.setPg p).clock = w.clock := rfl

@[simp] theorem setRd_setRd (w : World) (r r' : RdState) :
    (w.setRd r).setRd r' = w.setRd r' := rfl

@[simp] theorem setPg_setPg (w : World) (p p' : PgState) :
    (w.setPg p).setPg p' = w.setPg p' := rfl

end World

theorem runs_rd_working {c : RdCmd} {r : Except Err c.Ret} {w w' : World} :
    Prog.Runs Core.exec Working i (Redis.rd c) w r w' ↔
      r = .ok (c.step i w.rd).2 ∧ w' = w.setRd (c.step i w.rd).1 := by
  rw [runs_rd]
  constructor
  · rintro ⟨o, ho, rfl, rfl⟩
    have hf : o.fault = .none := ho
    rw [hf]
    exact ⟨rfl, rfl⟩
  · rintro ⟨rfl, rfl⟩
    exact ⟨{}, rfl, rfl, rfl⟩

/-- A working Redis command, and what follows it. -/
theorem runs_rd_bind {α : Type} {c : RdCmd} {f : Except Err c.Ret → Core.M α} {a : α}
    {w w' : World} :
    Prog.Runs Core.exec Working i (Redis.rd c >>= f) w a w' ↔
      Prog.Runs Core.exec Working i (f (.ok (c.step i w.rd).2))
        (w.setRd (c.step i w.rd).1) a w' := by
  rw [Prog.runs_bind]
  constructor
  · rintro ⟨r, w₁, hc, hf⟩
    obtain ⟨rfl, rfl⟩ := runs_rd_working.mp hc
    exact hf
  · intro hf
    exact ⟨_, _, runs_rd_working.mpr ⟨rfl, rfl⟩, hf⟩

/-- A Redis command that answers has worked. -/
theorem runs_rd_ok {c : RdCmd} {a : c.Ret} {w w' : World}
    (h : Prog.Runs Core.exec ok i (Redis.rd c) w (.ok a) w') :
    a = (c.step i w.rd).2 ∧ w' = w.setRd (c.step i w.rd).1 := by
  obtain ⟨o, _, hr, hw⟩ := runs_rd.mp h
  cases hf : o.fault with
  | none =>
      rw [hf] at hr hw
      exact ⟨Except.ok.inj hr, hw⟩
  | lost =>
      rw [hf] at hr
      cases hr
  | unacked =>
      rw [hf] at hr
      cases hr

theorem runs_pg_working {c : PgCmd} {r : Except Pg.PgErr c.Ret} {w w' : World} :
    Prog.Runs Core.exec Working i (Postgres.pg c) w r w' ↔
      ∃ p', c.exec i .none w.pg = some (p', r) ∧ w' = w.setPg p' := by
  rw [runs_pg]
  constructor
  · rintro ⟨o, p', ho, hx, rfl⟩
    have hf : o.fault = .none := ho
    rw [hf] at hx
    exact ⟨p', hx, rfl⟩
  · rintro ⟨p', hx, rfl⟩
    exact ⟨{}, p', rfl, hx, rfl⟩

/-- A working statement, and what follows it. -/
theorem runs_pg_bind {α : Type} {c : PgCmd} {f : Except Pg.PgErr c.Ret → Core.M α} {a : α}
    {w w' : World} :
    Prog.Runs Core.exec Working i (Postgres.pg c >>= f) w a w' ↔
      ∃ p' r, c.exec i .none w.pg = some (p', r) ∧
        Prog.Runs Core.exec Working i (f r) (w.setPg p') a w' := by
  rw [Prog.runs_bind]
  constructor
  · rintro ⟨r, w₁, hc, hf⟩
    obtain ⟨p', hx, rfl⟩ := runs_pg_working.mp hc
    exact ⟨p', r, hx, hf⟩
  · rintro ⟨p', r, hx, hf⟩
    exact ⟨r, _, runs_pg_working.mpr ⟨p', hx, rfl⟩, hf⟩

namespace Api

/-! ## Handler programs -/

/-- A run of a handler part, ending with a value or a reply. -/
def HRuns (S : Server) (ok : Oracle → Prop) (i : Nat) {β : Type} (h : H β) (w : World)
    (r : Except Reply β) (w' : World) : Prop :=
  Prog.Runs Core.exec ok i (onCore S h.run) w r w'

variable {S : Server} {β γ : Type} {w w' : World}

theorem onCore_bind (p : M β) (f : β → M γ) :
    onCore S (p >>= f) = (onCore S p >>= fun a => onCore S (f a)) :=
  Prog.expand_bind _ p f

theorem onCore_perform (c : Call) : onCore S (perform c) = c.run S.crypto :=
  Prog.bind_ret _

/-- Sequencing in `H`: an early reply skips the rest. -/
theorem hruns_bind {x : H β} {f : β → H γ} {r : Except Reply γ} :
    HRuns S ok i (x >>= f) w r w' ↔
      (∃ a w₁, HRuns S ok i x w (.ok a) w₁ ∧ HRuns S ok i (f a) w₁ r w') ∨
        ∃ e, HRuns S ok i x w (.error e) w' ∧ r = .error e := by
  unfold HRuns
  change Prog.Runs _ _ _ (onCore S (x.run >>= ExceptT.bindCont f)) _ _ _ ↔ _
  rw [onCore_bind, Prog.runs_bind]
  constructor
  · rintro ⟨res, w₁, hx, hf⟩
    cases res with
    | ok a => exact .inl ⟨a, w₁, hx, hf⟩
    | error e =>
        obtain ⟨rfl, rfl⟩ := Prog.runs_ret.mp hf
        exact .inr ⟨e, hx, rfl⟩
  · rintro (⟨a, w₁, hx, hf⟩ | ⟨e, hx, rfl⟩)
    · exact ⟨.ok a, w₁, hx, hf⟩
    · exact ⟨.error e, w', hx, .ret _ _⟩

@[simp] theorem hruns_pure {a : β} {r : Except Reply β} :
    HRuns S ok i (pure a) w r w' ↔ r = .ok a ∧ w' = w :=
  Prog.runs_ret

@[simp] theorem hruns_throw {e : Reply} {r : Except Reply β} :
    HRuns S ok i (throw e : H β) w r w' ↔ r = .error e ∧ w' = w :=
  Prog.runs_ret

theorem hruns_replyIf {c : Prop} [Decidable c] {rep : Reply} {r : Except Reply Unit} :
    HRuns S ok i (replyIf c rep) w r w' ↔
      w' = w ∧ ((c ∧ r = .error rep) ∨ (¬c ∧ r = .ok ())) := by
  unfold replyIf
  by_cases hc : c
  · rw [if_pos hc, hruns_throw]
    constructor
    · rintro ⟨rfl, rfl⟩
      exact ⟨rfl, .inl ⟨hc, rfl⟩⟩
    · rintro ⟨rfl, ⟨_, rfl⟩ | ⟨hn, _⟩⟩
      · exact ⟨rfl, rfl⟩
      · exact absurd hc hn
  · rw [if_neg hc, hruns_pure]
    constructor
    · rintro ⟨rfl, rfl⟩
      exact ⟨rfl, .inr ⟨hc, rfl⟩⟩
    · rintro ⟨rfl, ⟨h, _⟩ | ⟨_, rfl⟩⟩
      · exact absurd h hc
      · exact ⟨rfl, rfl⟩

theorem hruns_require {x : Option β} {bad : Reply} {r : Except Reply β} :
    HRuns S ok i (require x bad) w r w' ↔
      w' = w ∧ ((∃ a, x = some a ∧ r = .ok a) ∨ (x = none ∧ r = .error bad)) := by
  unfold require
  cases x with
  | none => simp [and_comm]
  | some a => simp [and_comm]

theorem hruns_decode {body : Json β} {r : Except Reply β} :
    HRuns S ok i (decode body) w r w' ↔
      w' = w ∧ ((∃ a, body = .ok a ∧ r = .ok a) ∨ ∃ detail, body = .error detail ∧
        r = .error (writeErr 400 Trust.Code.invalidInput.text
          ("malformed JSON: " ++ detail) false)) := by
  unfold decode
  cases body with
  | ok a => simp [and_comm]
  | error d => simp [and_comm]

theorem hruns_attempt {c : Call} {r : Except Reply c.Ans} :
    HRuns S ok i (attempt c) w r w' ↔
      ∃ a, r = .ok a ∧ Prog.Runs Core.exec ok i (c.run S.crypto) w a w' := by
  unfold HRuns
  change Prog.Runs _ _ _ (onCore S (perform c >>= fun a =>
    .ret (Except.ok a : Except Reply c.Ans))) _ _ _ ↔ _
  rw [onCore_bind, onCore_perform, Prog.runs_bind]
  constructor
  · rintro ⟨a, w₁, hc, hr⟩
    obtain ⟨rfl, rfl⟩ := Prog.runs_ret.mp hr
    exact ⟨a, rfl, hc⟩
  · rintro ⟨a, rfl, hc⟩
    exact ⟨a, w', hc, .ret _ _⟩

theorem hruns_store {c : Seam} {bad : Err → Reply} {r : Except Reply c.Ret} :
    HRuns S ok i (store c bad) w r w' ↔
      (∃ a, r = .ok a ∧ Prog.Runs Core.exec ok i (combined S.crypto c) w (.ok a) w') ∨
        ∃ e, r = .error (bad e) ∧
          Prog.Runs Core.exec ok i (combined S.crypto c) w (.error e) w' := by
  unfold store
  rw [hruns_bind]
  constructor
  · rintro (⟨res, w₁, hx, hf⟩ | ⟨e, hx, _⟩)
    · obtain ⟨res', he, hrun⟩ := hruns_attempt.mp hx
      obtain rfl := Except.ok.inj he
      cases res with
      | ok a =>
          obtain ⟨rfl, rfl⟩ := hruns_pure.mp hf
          exact .inl ⟨a, rfl, hrun⟩
      | error e =>
          obtain ⟨rfl, rfl⟩ := hruns_throw.mp hf
          exact .inr ⟨e, rfl, hrun⟩
    · obtain ⟨res', he, _⟩ := hruns_attempt.mp hx
      cases he
  · rintro (⟨a, rfl, hrun⟩ | ⟨e, rfl, hrun⟩)
    · exact .inl ⟨.ok a, w', hruns_attempt.mpr ⟨_, rfl, hrun⟩, hruns_pure.mpr ⟨rfl, rfl⟩⟩
    · exact .inl ⟨.error e, w', hruns_attempt.mpr ⟨_, rfl, hrun⟩,
        hruns_throw.mpr ⟨rfl, rfl⟩⟩

theorem hruns_now (hok : ∃ o, ok o) {r : Except Reply Time} :
    HRuns S ok i now w r w' ↔ r = .ok w.clock ∧ w' = w := by
  unfold now
  rw [hruns_attempt]
  constructor
  · rintro ⟨a, rfl, hx⟩
    obtain ⟨rfl, rfl⟩ := (runs_clock hok).mp hx
    exact ⟨rfl, rfl⟩
  · rintro ⟨rfl, rfl⟩
    exact ⟨_, rfl, (runs_clock hok).mpr ⟨rfl, rfl⟩⟩

/-! ## Requests -/

/-- The reply of a handler, however it ends. -/
theorem runs_reply {h : H Reply} {rep : Reply} :
    Prog.Runs Srv.exec ok i (toSrv S h.reply) w rep w' ↔
      HRuns S ok i h w (.ok rep) w' ∨ HRuns S ok i h w (.error rep) w' := by
  unfold toSrv H.reply
  rw [runs_toSrv, onCore_bind, Prog.runs_bind]
  constructor
  · rintro ⟨r, w₁, hh, hr⟩
    cases r with
    | ok a =>
        obtain ⟨rfl, rfl⟩ := Prog.runs_ret.mp hr
        exact .inl hh
    | error e =>
        obtain ⟨rfl, rfl⟩ := Prog.runs_ret.mp hr
        exact .inr hh
  · rintro (hh | hh)
    · exact ⟨_, w', hh, .ret _ _⟩
    · exact ⟨_, w', hh, .ret _ _⟩

/-- One request served alone. -/
def Served (S : Server) (ok : Oracle → Prop) (i : Nat) (r : Request) (w : World)
    (rep : Reply) (w' : World) : Prop :=
  Prog.Runs Srv.exec ok i (serve S r) w rep w'

/-- Served in some way. -/
theorem Served.any {r : Request} {rep : Reply} (h : Served S ok i r w rep w') :
    Served S (fun _ => True) i r w rep w' :=
  Prog.Runs.mono (fun _ _ => trivial) h

theorem served_plain {r : Request} {h : H Reply} {rep : Reply}
    (hr : routes S r = .plain h) :
    Served S ok i r w rep w' ↔
      HRuns S ok i h w (.ok rep) w' ∨ HRuns S ok i h w (.error rep) w' := by
  unfold Served serve
  rw [hr]
  exact runs_reply

/-- An authenticated request: refused, or served as the device and user of
its token. -/
theorem served_authed {r : Request} {next : Device → String → H Reply} {rep : Reply}
    (hok : ∃ o, ok o) (hr : routes S r = .authed next) :
    Served S ok i r w rep w' ↔
      HRuns S ok i (authenticate r.authorization) w (.error rep) w' ∨
        ∃ dev user w₁, HRuns S ok i (authenticate r.authorization) w (.ok (dev, user)) w₁ ∧
          (HRuns S ok i (next dev user) w₁ (.ok rep) w' ∨
            HRuns S ok i (next dev user) w₁ (.error rep) w') := by
  unfold Served serve
  rw [hr]
  show Prog.Runs Srv.exec ok i (authed S r.authorization next) w rep w' ↔ _
  unfold authed
  rw [Prog.runs_bind]
  constructor
  · rintro ⟨res, w₁, ha, hk⟩
    have ha' := runs_toSrv.mp ha
    cases res with
    | error e =>
        obtain ⟨rfl, rfl⟩ := Prog.runs_ret.mp hk
        exact .inl ha'
    | ok a =>
        obtain ⟨dev, user⟩ := a
        obtain ⟨_, w₂, henter, hbody⟩ := Prog.runs_bind.mp hk
        obtain ⟨o, _, hx⟩ := Prog.runs_perform.mp henter
        simp only [Srv.exec, Option.some.injEq, Prod.mk.injEq] at hx
        obtain ⟨rfl, _⟩ := hx
        exact .inr ⟨dev, user, _, ha', runs_reply.mp hbody⟩
  · rintro (ha | ⟨dev, user, w₁, ha, hbody⟩)
    · exact ⟨.error rep, w', runs_toSrv.mpr ha, .ret _ _⟩
    · refine ⟨.ok (dev, user), w₁, runs_toSrv.mpr ha, ?_⟩
      obtain ⟨o, ho⟩ := hok
      exact Prog.runs_bind.mpr ⟨(), w₁, Prog.runs_perform.mpr ⟨o, ho, rfl⟩,
        runs_reply.mpr hbody⟩

/-- The reply thread `i` has ended with. -/
def replied (c : Config Task World Srv Srv.Ans Outcome) (i : Nat) : Option Reply :=
  match c.pool[i]? with
  | some (_, .ret (.reply rep)) => some rep
  | _ => none

/-- A request that was served to its reply has run alone. -/
theorem served_of_serve {os : List Oracle} (hos : ∀ o ∈ os, ok o)
    {c : Config Task World Srv Srv.Ans Outcome} {r : Request} {rep : Reply}
    (h : replied ((backend S).serve c (.request r) os) c.pool.length = some rep) :
    Served S ok c.pool.length r c.world rep
      ((backend S).serve c (.request r) os).world := by
  have hstart : (c.pool ++ [(Task.request r, (backend S).code (.request r))])[c.pool.length]? =
      some (.request r, (backend S).code (.request r)) := by simp
  obtain ⟨p, hp⟩ := System.drive_task (backend S) os (i := c.pool.length)
    (c := { c with pool := c.pool ++ [(.request r, (backend S).code (.request r))] }) hstart
  have hend : ((backend S).serve c (.request r) os).pool[c.pool.length]? =
      some (.request r, .ret (.reply rep)) := by
    have hp' : ((backend S).serve c (.request r) os).pool[c.pool.length]? =
        some (.request r, p) := hp
    unfold replied at h
    rw [hp'] at h ⊢
    split at h
    · rename_i he
      cases he
      obtain rfl := Option.some.inj h
      rfl
    · cases h
  have hrun := System.serve_runs hos hend
  have hcode : (backend S).code (.request r) =
      (serve S r >>= fun rep => .ret (.reply rep)) := rfl
  rw [hcode, Prog.runs_bind] at hrun
  obtain ⟨rep', w₁, hserve, hret⟩ := hrun
  obtain ⟨he, hw⟩ := Prog.runs_ret.mp hret
  obtain rfl := Outcome.reply.inj he
  rw [hw]
  exact hserve

end Api

/-! ## A server to replay runs on -/

/-- Results are compared one by one. -/
instance decidableEqResult {ε α : Type} [DecidableEq ε] [DecidableEq α] :
    DecidableEq (Except ε α)
  | .error e, .error e' => decidable_of_iff (e = e') (by simp)
  | .ok a, .ok a' => decidable_of_iff (a = a') (by simp)
  | .error _, .ok _ => .isFalse (by intro h; cases h)
  | .ok _, .error _ => .isFalse (by intro h; cases h)

namespace Sample

open Api

/-- The big-endian bytes of a number. -/
def bytes : Nat → Nat → Bytes
  | 0, _ => []
  | k + 1, n => bytes k (n / 256) ++ [UInt8.ofNat (n % 256)]

def ownerKey : Bytes :=
  bytes 32 0xd04ab232742bb4ab3a1368bd4615e4e6d0224ab71a016baf8520a332c9778737
def computerKey : Bytes :=
  bytes 32 0xa09aa5f47a6759802ff955f8dc2d2a14a5c99d23be97f864127ff9383455a4f0
def otherKey : Bytes :=
  bytes 32 0x17cb79fb2b4120f2b1ec65e4198d6e08b28e813feb01e4a400839b85e18080ce

/-- The session the phone creates when it draws the byte 10. -/
def session : String := Ws.newUUIDv4 (List.replicate 16 10)

/-- The fingerprint of `computerKey`. -/
def computerFp : String :=
  "1325 B850 C287 1916 EAE2 03F0 EFC3 C898 7F64 E5E3 CDB2 7679 E6D1 FA97 8083 57E6"

/-- The hash of the approval context. -/
def context : Bytes :=
  bytes 32 0xd6a72513c39aab69411dcc0d5e33e1783d717c2f5bf0a0e7dc331c788b7c4089

/-- The hash of the approval context, with a request time of 90 seconds. -/
def laterContext : Bytes :=
  bytes 32 0xb8d9d64340cc24b372754ad9d0126144b7dcc272050e9dd3012084814a1f54a8

/-- SHA-256 on the three keys, the approval context, the grant binding and the later context. -/
def hashes : List (Bytes × Bytes) :=
  [(ownerKey,
      bytes 32 0x10ba682c8ad13513971e8b56881aab8bd702bb807796eca81932c735a94d6e6d),
    (computerKey,
      bytes 32 0x1325b850c2871916eae203f0efc3c8987f64e5e3cdb27679e6d1fa97808357e6),
    (otherKey,
      bytes 32 0x6c8f8607dbe87077a62a2990ce07d94aaf749df76f87b98eb786a6d10f030765),
    (Trust.contextPreimage "Desk" computerFp "RD-WIN-1325B850" session 0, context),
    (computerKey ++ [0] ++ Trust.utf8 session ++ [0] ++ Trust.utf8 "PH-1",
      bytes 32 0xd29af7824506fa9f7dd3cb4d8476b84599514442e2e28eb093693d74c31972d6),
    (Trust.contextPreimage "Desk" computerFp "RD-WIN-1325B850" session 90000, laterContext)]

/-- The record the Owner signs when it approves `computerKey`. -/
def approval : Trust.AuthorizationRecord where
  authorizationId := "auth-1"
  sessionId := session
  subjectDeviceId := "RD-WIN-1325B850"
  subjectPublicKey := computerKey
  ownerDeviceId := "PH-1"
  contextHash := context
  ownerSignature := []
  decidedAtMillis := 1
  nonce := List.replicate 16 7

/-- The record it signs when it was asked after 90 seconds. -/
def laterApproval : Trust.AuthorizationRecord :=
  { approval with contextHash := laterContext, decidedAtMillis := 90001 }

def ownerSig : Bytes :=
  bytes 32 0x49f88b0085474e7763c16f32f4421043fe3759ed9d19efebce6b2d644b6ef1ee ++
    bytes 32 0xc4b29656572eeeba836c3e57f895ec10ecaed93ce0c6ac322e27b39e914cdd03
def computerSig : Bytes :=
  bytes 32 0xaef7a8ab60b7d24c1beb18b24c57fd9a6aa4195f9e8bf8e3605895aef850369f ++
    bytes 32 0xb1c43bbeee70abf7a381cb6bd3dfcce752c7c4be9e6097f6261ce1d4f5a9120d
def approvalSig : Bytes :=
  bytes 32 0x233c62ca534feecebcee9b889edd4069fda9b5ae729cc242d7f9d39579af2934 ++
    bytes 32 0xe8fe914e8ff52a25b07fee5c5d61b40daa41c13bbf9cfa7907512046f5681904

def laterApprovalSig : Bytes :=
  bytes 32 0x2cfab7757a244af05200a0e8c59562ade2f3bbba5855774baf5c6da61ab8c970 ++
    bytes 32 0x8cb0a368c09c31baf4afc974b6954549e85a92fb1932100ab37074e49721a107

/-- What `newToken` draws from equal bytes. -/
def drawn (n : UInt8) : String := Text.hexEncode (List.replicate 32 n)

/-- The valid signatures: two logins and two approvals. -/
def signatures : List (Bytes × Bytes × Bytes) :=
  [(ownerKey, Trust.utf8 (drawn 2), ownerSig),
    (computerKey, Trust.utf8 (drawn 5), computerSig),
    (ownerKey, Trust.signingPayload approval, approvalSig),
    (ownerKey, Trust.signingPayload laterApproval, laterApprovalSig)]

def crypto : Crypto where
  sha256 b := ((hashes.find? fun x => x.1 = b).map Prod.snd).getD []
  ed25519Verify pub msg sig := signatures.contains (pub, msg, sig)

def server : Server := { crypto := crypto }

/-- The text a request carries bytes as. -/
def base64 (b : Bytes) : String := String.ofList (Text.base64Encode b)

/-- Nothing fails, and all bytes drawn are `n`. -/
def seed (n : UInt8) : List Oracle := List.replicate 60 { bytes := List.replicate 32 n }

abbrev Conf : Type := Config Api.Task World Srv Srv.Ans Outcome

/-- Serve one request alone. -/
def ask (c : Conf) (n : UInt8) (r : Request) : Conf :=
  (backend server).serve c (.request r) (seed n)

/-- Serve requests one after the other. -/
def asks (c : Conf) : List (UInt8 × Request) → Conf
  | [] => c
  | (n, r) :: rest => asks (ask c n r) rest

/-- Every one of them is answered. -/
def answered (c : Conf) : List (UInt8 × Request) → Bool
  | [] => true
  | (n, r) :: rest => (replied (ask c n r) c.pool.length).isSome && answered (ask c n r) rest

/-- The header that carries the token drawn as `n`. -/
def bearer (n : UInt8) : String := "Bearer " ++ drawn n

def bootstrapReq : Request where
  requestId := "boot"
  route := .bootstrap (.ok {
    displayName := "Phone", pubKeyB64 := base64 ownerKey, deviceId := "PH-1" })

def challengeReq (device : String) : Request where
  route := .challenge (.ok { deviceId := device })

def verifyReq (device : String) (n : UInt8) (sig : Bytes) : Request where
  route := .verify (.ok {
    deviceId := device, challenge := drawn n, signatureB64 := base64 sig })

def registerReq (n : UInt8) (rid device : String) (key : Bytes) (role : String) :
    Request where
  authorization := bearer n
  requestId := rid
  route := .devicesRegister (.ok {
    deviceId := device, displayName := "Desk", pubKeyB64 := base64 key, role := role })

def revokeReq (n : UInt8) (rid device : String) : Request where
  authorization := bearer n
  requestId := rid
  route := .deviceRevoke device none

/-- The Owner `PH-1` logs in, with the token drawn as 3. -/
def ownerLogin : List (UInt8 × Request) :=
  [(1, bootstrapReq), (2, challengeReq "PH-1"), (3, verifyReq "PH-1" 2 ownerSig)]

def ownerIn : Conf := asks boot ownerLogin

/-- The Owner registers a computer, and the computer logs in with the token
drawn as 6. -/
def computerLogin : List (UInt8 × Request) :=
  ownerLogin ++ [(4, registerReq 3 "r4" "PC-1" computerKey "computer"),
    (5, challengeReq "PC-1"), (6, verifyReq "PC-1" 5 computerSig)]

def computerIn : Conf := asks boot computerLogin

/-- What is asked and answered is served. -/
theorem ask_served {c : Conf} {n : UInt8} {r : Request} {rep : Reply}
    (h : replied (ask c n r) c.pool.length = some rep) :
    Served server Working c.pool.length r c.world rep (ask c n r).world := by
  refine served_of_serve ?_ h
  intro o ho
  rw [List.eq_of_mem_replicate ho]
  rfl

/-- Asking is a run. -/
theorem ask_reach {c₀ c : Conf} (h : (backend server).Reach (fun _ _ => True) c₀ c)
    (n : UInt8) (r : Request) :
    (backend server).Reach (fun _ _ => True) c₀ (ask c n r) :=
  h.trans (System.serve_reach c _ _)

theorem asks_reach {c₀ c : Conf} (l : List (UInt8 × Request))
    (h : (backend server).Reach (fun _ _ => True) c₀ c) :
    (backend server).Reach (fun _ _ => True) c₀ (asks c l) := by
  induction l generalizing c with
  | nil => exact h
  | cons x l ih => exact ih (ask_reach h x.1 x.2)

theorem ownerIn_reach : (backend server).Reach (fun _ _ => True) boot ownerIn :=
  asks_reach ownerLogin .refl

end Sample

end Calcar
