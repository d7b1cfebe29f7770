import Calcar.Verified.Registration
import Calcar.Verified.Tokens

/-!
# When a pairing session expires

A session is created with one expiry and carried in two stores: the Postgres
row has it in microseconds, the Redis hash in whole seconds.  Nothing changes
either afterwards, and the hash of a session has its owner, its creator and its
nonce together with its expiry or not at all; a mark left behind for a session
whose entry was gone has none of them.

## Main results

* `Pg.Tables.expiry_writes` — the expiry of a row stays.
* `dated_method` — every method of the store keeps the two stores in step.
* `served_dated` — so does every request.
-/

namespace Calcar

open Lib Pg

/-! ## The expiry of a row -/

namespace Pg.Tables

/-- When the session with this key expires. -/
def expiry (t : Tables) (id : String) : Option Time :=
  (t.session id).map SessionRow.expiresAt

private theorem expiry_modify (f : SessionRow → SessionRow) (hid : ∀ s, (f s).id = s.id)
    (hexp : ∀ s, (f s).expiresAt = s.expiresAt) (t : Tables) (x id : String) :
    (t.modifySession x f).expiry id = t.expiry id := by
  show ((t.sessions.map _).find? _).map _ = (t.sessions.find? _).map _
  induction t.sessions with
  | nil => rfl
  | cons s l ih =>
      have hkey : (if s.id = x then f s else s).id = s.id := by
        by_cases hx : s.id = x
        · rw [if_pos hx]
          exact hid s
        · rw [if_neg hx]
      have hval : (if s.id = x then f s else s).expiresAt = s.expiresAt := by
        by_cases hx : s.id = x
        · rw [if_pos hx]
          exact hexp s
        · rw [if_neg hx]
      rw [List.map_cons, List.find?_cons, List.find?_cons, hkey]
      by_cases hs : s.id = id
      · rw [decide_eq_true hs]
        exact congrArg some hval
      · rw [decide_eq_false hs]
        exact ih

theorem expiry_apply {t : Tables} {id : String} {e : Time} (w : Write)
    (h : t.expiry id = some e) : (t.apply w).expiry id = some e := by
  cases w with
  | addSession s =>
      show (List.find? _ (t.sessions ++ [s])).map _ = _
      obtain ⟨row, hrow, he⟩ := Option.map_eq_some_iff.mp h
      rw [List.find?_append]
      unfold session at hrow
      rw [hrow]
      exact congrArg some he
  | expireSession x =>
      simp only [apply]
      rw [expiry_modify]
      · exact h
      · exact fun _ => rfl
      · exact fun _ => rfl
  | recordJoin x j =>
      simp only [apply]
      rw [expiry_modify]
      · exact h
      · exact fun _ => rfl
      · exact fun _ => rfl
  | decideSession x st g sig =>
      simp only [apply]
      rw [expiry_modify]
      · exact h
      · exact fun _ => rfl
      · exact fun _ => rfl
  | putConn c d tm =>
      simp only [apply]
      split <;> exact h
  | _ => exact h

/-- **The expiry of a row stays.** -/
theorem expiry_writes {t : Tables} {id : String} {e : Time} (ws : List Write)
    (h : t.expiry id = some e) : (ws.foldl apply t).expiry id = some e := by
  induction ws generalizing t with
  | nil => exact h
  | cons w ws ih => exact ih (expiry_apply w h)

/-- Every registered device has an id and a user. -/
def Named (t : Tables) : Prop := ∀ d ∈ t.devices, d.id ≠ "" ∧ d.userId ≠ ""

theorem Named.apply {t : Tables} (h : t.Named) {w : Write}
    (hw : ∀ d, w = .addDevice d → d.id ≠ "" ∧ d.userId ≠ "") : (t.apply w).Named := by
  cases w with
  | addDevice d =>
      intro d' hd'
      rcases List.mem_append.mp hd' with hin | hin
      · exact h d' hin
      · rw [List.mem_singleton.mp hin]
        exact hw d rfl
  | revokeDevice x =>
      intro d' hd'
      obtain ⟨d, hin, rfl⟩ := List.mem_map.mp hd'
      have hd := h d hin
      split
      · exact hd
      · exact hd
  | putConn c d tm =>
      simp only [Tables.apply]
      split <;> exact h
  | _ => exact h

theorem Named.writes {t : Tables} (h : t.Named) {ws : List Write}
    (hws : ∀ d, .addDevice d ∈ ws → d.id ≠ "" ∧ d.userId ≠ "") :
    (ws.foldl Tables.apply t).Named := by
  induction ws generalizing t with
  | nil => exact h
  | cons w ws ih =>
      have hw : ∀ d, w = .addDevice d → d.id ≠ "" ∧ d.userId ≠ "" := by
        rintro d rfl
        exact hws d List.mem_cons_self
      exact ih (h.apply hw) fun d hm => hws d (List.mem_cons_of_mem _ hm)

end Pg.Tables

/-! ## The two stores in step -/

/-- The hash under a session's key fits its row: it has the row's expiry in
whole seconds, or nothing of what a session is created with. -/
def Carries (t : Tables) (id : String) (m : Rd.PairingHash) : Prop :=
  match m.expiresAt with
  | some u => ∃ e, t.expiry id = some e ∧ u = Time.unix e
  | none => m.userId = none ∧ m.createdBy = none ∧ m.qrNonce = none

theorem Carries.writes {t : Tables} {id : String} {m : Rd.PairingHash} (h : Carries t id m)
    (ws : List Write) : Carries (ws.foldl Tables.apply t) id m := by
  unfold Carries at h ⊢
  cases hm : m.expiresAt with
  | none =>
      rw [hm] at h
      exact h
  | some u =>
      rw [hm] at h
      obtain ⟨e, he, hu⟩ := h
      exact ⟨e, t.expiry_writes ws he, hu⟩

/-- The stores agree about every session. -/
structure Dated (w : World) : Prop where
  unstaged : Unstaged w.pg
  named : w.pg.Named
  live : ∀ id e, w.rd.pairing id = some e → Carries w.pg.toTables id e.val

/-- The command keeps the stores in step, given what the tables hold. -/
def Core.Keeps (t : Tables) : Core → Prop
  | .pg (.insertDevice d) => d.id ≠ "" ∧ d.userId ≠ ""
  | .rd (.hsetPairing id patch) => ∀ m, Carries t id m → Carries t id (m.merge patch)
  | _ => True

private theorem rd_live {t : Tables} {i : Nat} {c : RdCmd} {r : RdState}
    (hc : Core.Keeps t (.rd c)) (h : ∀ id e, r.pairing id = some e → Carries t id e.val) :
    ∀ id e, (c.step i r).1.pairing id = some e → Carries t id e.val := by
  have hblank : ∀ id, Carries t id {} := fun _ => ⟨rfl, rfl, rfl⟩
  cases c with
  | hsetnxStatus id st =>
      simp only [RdCmd.step]
      split
      · exact h
      · exact TtlMap.update_all (J := Carries t) (k := id)
          (f := fun m => { m.getD {} with status := some st }) h (fun v hv => hv) (hblank id)
  | hsetPairing id patch =>
      exact TtlMap.update_all (J := Carries t) (k := id) (f := fun m => (m.getD {}).merge patch)
        h (fun v hv => hc v hv) (hc {} (hblank id))
  | expirePairing id ttl => exact TtlMap.expire_all (J := Carries t) h
  | hsetnxJoinReq id rid =>
      simp only [RdCmd.step]
      split
      · exact h
      · exact TtlMap.update_all (J := Carries t) (k := id)
          (f := fun m => { m.getD {} with joinReq := some rid }) h (fun v hv => hv) (hblank id)
  | setnxReplay rid ttl =>
      simp only [RdCmd.step]
      split <;> exact h
  | evalConsumeRefresh token device =>
      have hsame : (RdCmd.step i (.evalConsumeRefresh token device) r).1.pairing = r.pairing := by
        simp only [RdCmd.step, Rd.consumeRefresh]
        split
        · rfl
        · split <;> rfl
      rw [hsame]
      exact h
  | _ => exact h

/-- A command that adds no nameless device and patches no hash wrongly keeps the
stores in step. -/
theorem dated_core {i : Nat} {c : Core} {o : Oracle} {w w' : World} {r : c.Ans}
    (hc : c.Keeps w.pg.toTables) (hx : Core.exec i c o w = some (w', r)) (h : Dated w) :
    Dated w' := by
  have hun : Unstaged w'.pg := by
    rcases Srv.exec_pg (.core c) hx with he | ⟨c', r', _, he⟩
    · rw [he]
      exact h.unstaged
    · exact h.unstaged.exec he
  cases c with
  | pg c =>
      simp only [Core.exec] at hx
      cases he : c.exec i o.fault w.pg with
      | none => rw [he] at hx; cases hx
      | some x =>
          obtain ⟨p', r'⟩ := x
          rw [he] at hx
          simp only [Option.some.injEq, Prod.mk.injEq] at hx
          obtain ⟨rfl, _⟩ := hx
          rcases PgCmd.exec_tables he with ⟨ht, _⟩ | ⟨ws, hl, ht, _⟩
          · refine ⟨hun, ?_, ?_⟩
            · show Tables.Named p'.toTables
              rw [ht]
              exact h.named
            · show ∀ id e, w.rd.pairing id = some e → Carries p'.toTables id e.val
              rw [ht]
              exact h.live
          · have hnamed : ∀ d, .addDevice d ∈ ws → d.id ≠ "" ∧ d.userId ≠ "" := by
              intro d hd
              cases hl with
              | now hcom =>
                  cases hcom with
                  | device =>
                      have hsame : Write.addDevice d = .addDevice _ := List.mem_singleton.mp hd
                      rw [Write.addDevice.inj hsame]
                      exact hc
                  | _ =>
                      have hsame := List.mem_singleton.mp hd
                      cases hsame
              | tx hcm htx _ hws =>
                  rw [hws] at hd
                  exact absurd hd (h.unstaged i _ d htx)
            refine ⟨hun, ?_, ?_⟩
            · show Tables.Named p'.toTables
              rw [ht]
              exact h.named.writes hnamed
            · intro id e he'
              show Carries p'.toTables id e.val
              rw [ht]
              exact (h.live id e he').writes ws
  | rd c =>
      simp only [Core.exec, Option.some.injEq, Prod.mk.injEq] at hx
      obtain ⟨rfl, _⟩ := hx
      refine ⟨hun, h.named, ?_⟩
      show ∀ id e, (c.exec i o.fault w.rd).1.pairing id = some e → Carries w.pg.toTables id e.val
      unfold RdCmd.exec
      cases o.fault with
      | none => exact rd_live hc h.live
      | lost => exact h.live
      | unacked => exact rd_live hc h.live
  | now =>
      simp only [Core.exec, Option.some.injEq, Prod.mk.injEq] at hx
      obtain ⟨rfl, _⟩ := hx
      exact h
  | rand n =>
      simp only [Core.exec] at hx
      split at hx
      · simp only [Option.some.injEq, Prod.mk.injEq] at hx
        obtain ⟨rfl, _⟩ := hx
        exact ⟨hun, h.named, h.live⟩
      · cases hx
  | notify ev =>
      simp only [Core.exec, Option.some.injEq, Prod.mk.injEq] at hx
      obtain ⟨rfl, _⟩ := hx
      exact ⟨hun, h.named, h.live⟩

/-! ## Methods -/

/-- A patch that names none of the fields a session is created with. -/
structure Rd.PairingHash.Later (patch : Rd.PairingHash) : Prop where
  expiresAt : patch.expiresAt = none
  userId : patch.userId = none
  createdBy : patch.createdBy = none
  qrNonce : patch.qrNonce = none

theorem Carries.later {t : Tables} {id : String} {m patch : Rd.PairingHash} (hp : patch.Later)
    (h : Carries t id m) : Carries t id (m.merge patch) := by
  unfold Carries Rd.PairingHash.merge at *
  rw [hp.expiresAt, hp.userId, hp.createdBy, hp.qrNonce]
  exact h

/-- Every method but the creation keeps the stores in step, one command after
the other. -/
theorem issues_keeps {c : Seam} (hc : ∀ s, c ≠ .createPairingSession s) {cmd : Core}
    (h : c.Issues cmd) (t : Tables) : cmd.Keeps t := by
  cases cmd with
  | pg cmd =>
      cases cmd with
      | insertDevice d =>
          rcases h with hr | hw
          · exact hr.elim
          · cases c with
            | registerDevice d' =>
                obtain ⟨rfl, hid, huser, _⟩ := hw
                exact ⟨hid, huser⟩
            | _ => exact hw.elim
      | _ => trivial
  | rd cmd =>
      cases cmd with
      | hsetPairing id patch =>
          have hmark : ∀ x st, Redis.Marks x st (.rd (.hsetPairing id patch)) → patch.Later := by
            rintro x st ⟨_, at', rfl⟩
            exact ⟨rfl, rfl, rfl, rfl⟩
          have hlater : patch.Later := by
            rcases h with hr | hw
            · exact hr.elim
            · cases c with
              | createPairingSession s => exact absurd rfl (hc s)
              | submitJoinRequest x j =>
                  obtain ⟨_, rfl | hm⟩ := hw
                  · exact ⟨rfl, rfl, rfl, rfl⟩
                  · exact hmark x _ hm
              | decidePairingSession x a p g d =>
                  obtain ⟨st, _, hm⟩ := hw
                  exact hmark x st hm
              | _ => exact hw.elim
          exact fun m hm => hm.later hlater
      | _ => trivial
  | _ => trivial

variable {ok : Oracle → Prop} {i : Nat}

/-- The expiry of a row stays through any program. -/
theorem expiry_runs {α : Type} {p : Core.M α} {a : α} {w w' : World} {id : String} {e : Time}
    (hr : Prog.Runs Core.exec ok i p w a w') (h : w.pg.expiry id = some e) :
    w'.pg.expiry id = some e := by
  refine Prog.Only.runs (P := fun _ => True) (I := fun w => w.pg.expiry id = some e) ?_
    (Prog.only_of_all (fun _ => trivial) p) hr h
  intro c o w₁ w₂ r _ hx hw
  show Tables.expiry w₂.pg.toTables id = some e
  rcases Srv.exec_pg (.core c) hx with he | ⟨c', r', _, he⟩
  · rw [he]
    exact hw
  · rcases PgCmd.exec_tables he with ⟨ht, _⟩ | ⟨ws, _, ht, _⟩
    · rw [ht]
      exact hw
    · rw [ht]
      exact Tables.expiry_writes ws hw

theorem unix_micros (t : Time) : Time.unix (Time.micros t) = Time.unix t := by
  unfold Time.unix Time.micros
  omega

/-- A row that was inserted is there. -/
theorem insertSession_expiry {s : PairingSession} {w w' : World}
    (h : Prog.Runs Core.exec ok i (Postgres.createPairingSession s) w (.ok ()) w') :
    w'.pg.expiry s.id = some (Time.micros s.expiresAt) := by
  unfold Postgres.createPairingSession at h
  by_cases hargs : s.id = "" ∨ s.userId = ""
  · rw [if_pos hargs] at h
    obtain ⟨he, _⟩ := Prog.runs_ret.mp h
    cases he
  · rw [if_neg hargs] at h
    obtain ⟨p', hstep, rfl⟩ := runs_query_ok h
    simp only [PgCmd.step] at hstep
    split at hstep
    · cases hstep
    · split at hstep
      · cases hstep
      · rename_i hfree
        have hnone : w.pg.session s.id = none := by simpa [Postgres.newRow] using hfree
        simp only [Option.some.injEq, Prod.mk.injEq] at hstep
        obtain ⟨rfl, _⟩ := hstep
        show ((w.pg.sessions ++ [Postgres.newRow s]).find? _).map _ = _
        unfold Tables.session at hnone
        rw [List.find?_append, hnone]
        simp [Postgres.newRow]

/-- What the creation writes into Redis fits the row it has written before. -/
private theorem carries_create {t : Tables} {s : PairingSession} {m : Rd.PairingHash}
    (h : t.expiry s.id = some (Time.micros s.expiresAt)) :
    Carries t s.id (m.merge (Redis.createFields s)) := by
  show ∃ e, t.expiry s.id = some e ∧ Time.unix s.expiresAt = Time.unix e
  exact ⟨_, h, (unix_micros s.expiresAt).symm⟩

private theorem dated_only {α : Type} {p : Core.M α} {a : α} {w w' : World}
    (hp : p.Only fun cmd => ∀ t, cmd.Keeps t) (hr : Prog.Runs Core.exec ok i p w a w')
    (h : Dated w) : Dated w' :=
  hp.runs (I := Dated) (fun _ _ _ _ _ hc hx hd => dated_core (hc _) hx hd) hr h

/-- The creation of a session, the row before the hash. -/
private theorem dated_create {s : PairingSession} {r : Except Err Unit} {w w' : World}
    (hr : Prog.Runs Core.exec ok i (Combined.createPairingSession s) w r w') (h : Dated w) :
    Dated w' := by
  obtain ⟨res, w₁, hpg, hk⟩ := Prog.runs_bind.mp hr
  have h₁ : Dated w₁ :=
    dated_only (Postgres.only_createPairingSession fun _ _ _ => trivial) hpg h
  cases res with
  | error e =>
      obtain ⟨_, rfl⟩ := Prog.runs_ret.mp hk
      exact h₁
  | ok a =>
      have hrow := insertSession_expiry hpg
      have hfit : ∀ t : Tables, t.expiry s.id = some (Time.micros s.expiresAt) →
          Core.Keeps t (.rd (.hsetPairing s.id (Redis.createFields s))) :=
        fun t ht m _ => carries_create ht
      have honly : (Redis.createPairingSession s).Only fun cmd =>
          ∀ t : Tables, t.expiry s.id = some (Time.micros s.expiresAt) → cmd.Keeps t := by
        apply Redis.only_createPairingSession
        · exact fun _ _ => trivial
        · exact fun _ _ => trivial
        · exact fun t ht => hfit t ht
        · exact fun _ _ _ => trivial
      refine (honly.runs (I := fun w => Dated w ∧
        w.pg.expiry s.id = some (Time.micros s.expiresAt)) ?_ hk ⟨h₁, hrow⟩).1
      intro c o w₂ w₃ res hc hx hi
      refine ⟨dated_core (hc _ hi.2) hx hi.1, ?_⟩
      have hone : Prog.Runs Core.exec (fun _ => True) i (Core.perform c) w₂ res w₃ :=
        Prog.runs_perform.mpr ⟨o, trivial, hx⟩
      exact expiry_runs hone hi.2

/-- **Every method of the store keeps the two stores in step.** -/
theorem dated_method {C : Crypto} {c : Seam} {r : c.Ans} {w w' : World}
    (hr : Prog.Runs Core.exec ok i (combined C c) w r w') (h : Dated w) : Dated w' := by
  by_cases hc : ∃ s, c = .createPairingSession s
  · obtain ⟨s, rfl⟩ := hc
    exact dated_create hr h
  · have hne : ∀ s, c ≠ .createPairingSession s := fun s he => hc ⟨s, he⟩
    exact dated_only ((combined_issues C c).mono fun cmd hcmd => issues_keeps hne hcmd) hr h

/-! ## Requests -/

namespace Api

variable {S : Server}

/-- What every method, clock reading, random draw and notification preserves,
every handler part preserves. -/
theorem hruns_keep {I : World → Prop}
    (hstore : ∀ {i : Nat} {c : Seam} {r : c.Ans} {w w' : World},
      Prog.Runs Core.exec ok i (combined S.crypto c) w r w' → I w → I w')
    (hcore : ∀ {i : Nat} {c : Core} {o : Oracle} {w w' : World} {r : c.Ans},
      (c = .now ∨ (∃ n, c = .rand n) ∨ ∃ ev, c = .notify ev) →
        Core.exec i c o w = some (w', r) → I w → I w')
    {β : Type} {h : H β} {r : Except Reply β} {w w' : World}
    (hr : HRuns S ok i h w r w') (hw : I w) : I w' := by
  have hcall : ∀ (c : Call) (a : c.Ans) (w w' : World),
      Prog.Runs Core.exec ok i (c.run S.crypto) w a w' → I w → I w' := by
    intro c a w w' hrun hi
    cases c with
    | store c => exact hstore hrun hi
    | now =>
        obtain ⟨o, _, hx⟩ := Prog.runs_perform.mp hrun
        exact hcore (.inl rfl) hx hi
    | rand n =>
        obtain ⟨o, _, hx⟩ := Prog.runs_perform.mp hrun
        exact hcore (.inr (.inl ⟨n, rfl⟩)) hx hi
    | notify ev =>
        obtain ⟨o, _, hx⟩ := Prog.runs_perform.mp hrun
        exact hcore (.inr (.inr ⟨ev, rfl⟩)) hx hi
  have hprog : ∀ {γ : Type} (p : M γ) (a : γ) (w w' : World),
      Prog.Runs Core.exec ok i (onCore S p) w a w' → I w → I w' := by
    intro γ p
    induction p with
    | ret b =>
        intro a w w' hrun hi
        obtain ⟨_, rfl⟩ := Prog.runs_ret.mp hrun
        exact hi
    | call c k ih =>
        intro a w w' hrun hi
        obtain ⟨b, w₁, hc, hk⟩ := Prog.runs_bind.mp hrun
        exact ih b a w₁ w' hk (hcall c b w w₁ hc hi)
  exact hprog h.run r w w' hr hw

theorem hruns_dated {β : Type} {h : H β} {r : Except Reply β} {w w' : World}
    (hr : HRuns S ok i h w r w') (hw : Dated w) : Dated w' := by
  refine hruns_keep (I := Dated) ?_ ?_ hr hw
  · exact fun hrun hd => dated_method hrun hd
  · intro i c o w w' r hc hx hd
    refine dated_core ?_ hx hd
    rcases hc with rfl | ⟨n, rfl⟩ | ⟨ev, rfl⟩
    · trivial
    · trivial
    · trivial

/-- What every handler part preserves, every request preserves. -/
theorem served_keep {I : World → Prop} (hok : ∃ o, ok o)
    (hpart : ∀ {i : Nat} {β : Type} {h : H β} {r : Except Reply β} {w w' : World},
      HRuns S ok i h w r w' → I w → I w')
    {r : Request} {rep : Reply} {w w' : World} (h : Served S ok i r w rep w') (hw : I w) :
    I w' := by
  cases hr : routes S r with
  | plain part =>
      rcases (served_plain hr).mp h with hrun | hrun
      · exact hpart hrun hw
      · exact hpart hrun hw
  | authed next =>
      rcases (served_authed hok hr).mp h with hrun | ⟨dev, user, w₁, hrun, hbody⟩
      · exact hpart hrun hw
      · have h₁ : I w₁ := hpart hrun hw
        rcases hbody with hb | hb
        · exact hpart hb h₁
        · exact hpart hb h₁

/-- **Every request keeps the two stores in step.** -/
theorem served_dated {r : Request} {rep : Reply} {w w' : World} (hok : ∃ o, ok o)
    (h : Served S ok i r w rep w') (hw : Dated w) : Dated w' :=
  served_keep (I := Dated) hok (fun hr hd => hruns_dated hr hd) h hw

/-- The expiry of a row stays through every request. -/
theorem served_expiry {r : Request} {rep : Reply} {w w' : World} {id : String} {e : Time}
    (hok : ∃ o, ok o) (h : Served S ok i r w rep w') (hw : w.pg.expiry id = some e) :
    w'.pg.expiry id = some e :=
  served_keep (I := fun w => w.pg.expiry id = some e) hok (fun hr he => expiry_runs hr he) h hw

theorem env_dated {e : Env} {w w' : World} (h : e.step w = some w') (hw : Dated w) :
    Dated w' := by
  obtain ⟨tm, hpg⟩ := Env.step_pg h
  obtain ⟨now, _, hrd⟩ := Env.step_rd h
  refine ⟨?_, ?_, ?_⟩
  · rw [hpg]
    exact hw.unstaged
  · rw [hpg]
    exact hw.named
  · rw [hpg]
    show ∀ id e, w'.rd.pairing id = some e → _
    rw [hrd]
    exact hw.live

/-- **The two stores are in step in every state of a history.** -/
theorem Serving.dated {w₀ w : World} {turns : List Turn} (h : Serving S w₀ turns w)
    (h₀ : Dated w₀) : Dated w := by
  induction h with
  | start => exact h₀
  | turn _ hs ih => exact served_dated ⟨{}, trivial⟩ hs ih
  | env _ he ih => exact env_dated he ih

end Api

end Calcar
