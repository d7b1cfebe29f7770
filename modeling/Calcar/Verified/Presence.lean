import Calcar.Lib.Paths
import Calcar.Verified.Challenges
import Calcar.Verified.Sockets
import Calcar.Verified.Stores
import Calcar.Verified.Tokens

/-!
# Presence and connections

A handler reports its device online when it has registered the connection, and
offline when it leaves.  The second report carries no connection id, and the
store refuses a presence without one.  So a device that has ever been online
stays online in the store until the key expires, whatever becomes of its
connections.

## Main results

* `afterJoin_reporting` — what the handler of a connection is bound to store, and
  what it can store.
* `Accounted.online_iff` — online exactly if some connection was registered.
* `presence_follows` — when the stored presence is right.
* `presence_sticks` — a device that left and is online.
-/

namespace Calcar.Api

open Lib

variable {S : Server} {d : String}

/-! ## The programs -/

/-- The command stores a presence of the device. -/
def WritesPresence (d : String) (c : Srv) : Prop := ∃ p, c = .core (.rd (.hsetPresence d p))

/-- The command registers a connection of the device. -/
def Joins (d : String) (c : Srv) : Prop := ∃ user seen, c = .register d user seen

def Waits (c : Srv) : Prop := ∃ k, c = .done k

/-- Random bytes come in the number asked for. -/
def FitSrv : (c : Srv) → c.Ans → Prop
  | .core (.rand n), b => b.length = n
  | _, _ => True

/-- The presence that is stored says online. -/
def Reports (d : String) (c : Srv) : Prop :=
  ∀ p, c = .core (.rd (.hsetPresence d p)) → p.online = true

/-- What a handler does once its connection is registered. -/
def Reporting (d : String) (p : Srv.M Outcome) : Prop :=
  p.Comes FitSrv (WritesPresence d) Waits ∧ p.Only (Reports d)

/-- What it does before. -/
def Arriving (d : String) (p : Srv.M Outcome) : Prop :=
  p.Until FitSrv (fun c => ¬WritesPresence d c) (Joins d) (Reporting d)

/-- A command that is neither of the hub nor of the presence of the device. -/
def Elsewhere (d : String) (c : Srv) : Prop := ¬Joins d c ∧ ¬WritesPresence d c

theorem Elsewhere.reports {c : Srv} (h : Elsewhere d c) : Reports d c :=
  fun p hc => absurd ⟨p, hc⟩ h.2

theorem setPresence_toSrv (p : Presence) :
    toSrv S (perform (.store (.setPresence p))) =
      (Core.toSrv (Redis.setPresence p) >>= fun r => match r with
        | .error e => .ret (.error e)
        | .ok () => Core.toSrv (Postgres.setPresence p) >>= fun _ => .ret (.ok ())) := by
  show (Core.toSrv (Combined.setPresence p >>= Prog.ret)) = _
  rw [Prog.bind_ret]
  unfold Combined.setPresence
  rw [Core.toSrv_bind]
  congr 1
  funext r
  cases r with
  | error e => rfl
  | ok u => exact Core.toSrv_bind _ _

/-- A presence is stored as it was given. -/
theorem setPresence_reports {p : Presence} (hp : p.connId ≠ "" → p.online = true) :
    (toSrv S (perform (.store (.setPresence p)))).Only (Reports d) := by
  have hother (c : Srv) (hc : ∀ q, c ≠ .core (.rd (.hsetPresence d q))) : Reports d c :=
    fun q hq => absurd hq (hc q)
  rw [setPresence_toSrv]
  refine Prog.Only.bind ?_ fun r => ?_
  · unfold Redis.setPresence
    split
    · trivial
    · rename_i hargs
      refine ⟨hother _ nofun, fun now => ⟨fun q hq => ?_, fun r => ?_⟩⟩
      · cases hq
        exact hp fun hblank => hargs (.inr hblank)
      · cases r with
        | error e => trivial
        | ok u =>
            refine ⟨hother _ nofun, fun r => ?_⟩
            cases r with
            | error e => trivial
            | ok u => exact ⟨hother _ nofun, fun _ => trivial⟩
  · cases r with
    | error e => trivial
    | ok u =>
        refine Prog.Only.bind ?_ fun _ => trivial
        refine (only_toSrv (Postgres.only_setPresence (P := fun c => ∃ c', c = .pg c')
          ⟨_, rfl⟩)).mono fun c hc => ?_
        obtain ⟨_, rfl, c', rfl⟩ := hc
        exact hother _ nofun

/-- A presence with a device and a connection id is stored. -/
theorem setPresence_comes {p : Presence} (hdev : p.deviceId = d) (hd : d ≠ "")
    (hconn : p.connId ≠ "") :
    (toSrv S (perform (.store (.setPresence p)))).Comes FitSrv (WritesPresence d) Waits := by
  rw [setPresence_toSrv]
  apply Prog.Comes.append
  unfold Redis.setPresence
  rw [if_neg (by rw [hdev]; exact not_or.mpr ⟨hd, hconn⟩), ← hdev]
  exact .inr ⟨nofun, fun now _ => .inl ⟨_, rfl⟩⟩

/-- Calls that store no presence of the device. -/
def Call.Leaves (d : String) : Call → Prop
  | .store (.setPresence p) => p.deviceId ≠ d
  | _ => True

theorem call_elsewhere {C : Crypto} {c : Call} (hc : c.Leaves d) :
    (Core.toSrv (c.run C)).Only (Elsewhere d) := by
  have hcore : (c.run C).Only fun cmd => ∀ p, cmd ≠ .rd (.hsetPresence d p) := by
    cases c with
    | store s =>
        refine (combined_issues C s).mono fun cmd hissued p hcmd => ?_
        subst hcmd
        obtain hreads | hwrites := hissued
        · exact hreads
        · cases s with
          | setPresence q => exact hc hwrites.symm
          | issueAccessToken _ _ _ => exact hwrites
          | issueRefreshToken _ _ _ => exact hwrites
          | _ => exact hwrites
    | now => exact Prog.only_perform nofun
    | rand n => exact Prog.only_perform nofun
    | notify ev => exact Prog.only_perform nofun
  refine (only_toSrv hcore).mono fun cmd hcmd => ?_
  obtain ⟨c', rfl, hne⟩ := hcmd
  refine ⟨nofun, fun hwrites => ?_⟩
  obtain ⟨p, hp⟩ := hwrites
  exact hne p (Srv.core.inj hp)

theorem elsewhere_yields : Yields S (Call.Leaves d) (Elsewhere d) := fun _ hc => call_elsewhere hc

theorem checkUpgrade_elsewhere (u : Upgrade) :
    (toSrv S (checkUpgrade u).run).Only (Elsewhere d) := by
  have hcheck : HOnly (Route.healthz.CallsAs fun _ => False) (checkUpgrade u) :=
    checkUpgrade_calls u
  refine elsewhere_yields.program (hcheck.mono fun c hc => ?_).run
  cases c with
  | store s =>
      cases s with
      | setPresence p =>
          obtain hlooks | hwrites := hc
          · exact hlooks.elim
          · exact hwrites.elim
      | _ => trivial
  | _ => trivial

/-- What the goroutine of a request or a catch-up does. -/
theorem joins_yields : Yields S (fun _ => True) fun c => ¬Joins d c := by
  intro c _
  have hall : (c.run S.crypto).Only fun _ => True :=
    Prog.only_of_all (fun _ => trivial) _
  refine (only_toSrv hall).mono fun cmd hcmd => ?_
  obtain ⟨c', rfl, -⟩ := hcmd
  nofun

theorem other_joins {t : Task} (ht : ∀ u, t ≠ .upgrade u) :
    (t.code S).Only fun c => ¬Joins d c := by
  cases t with
  | request r =>
      have hauth : HOnly (r.route.CallsAs fun _ => True) (authenticate r.authorization) :=
        honly_authenticate _
      have hserve : (serve S r).Only fun c => ¬Joins d c :=
        joins_yields.serve nofun (hauth.mono fun _ _ => trivial)
          ((routes_calls S r).mono fun _ _ => trivial)
      exact hserve.bind fun _ => trivial
  | upgrade u => exact absurd rfl (ht u)
  | catchup =>
      exact ⟨nofun, fun user =>
        (joins_yields.program (Prog.only_perform trivial)).bind fun _ => trivial⟩

/-! ### The handler of a connection -/

/-- The handler once the connection has its number. -/
def afterJoin (S : Server) (deviceId : String) (k : Nat) : Srv.M Outcome := do
  let b ← Srv.perform (.core (.rand 16))
  let seen ← Srv.perform (.core .now)
  let _ ← toSrv S (perform (.store (.setPresence ⟨deviceId, true, Ws.newID b, seen⟩)))
  Srv.perform (.start k)
  Srv.perform (.done k)
  Srv.perform (.unregister deviceId k)
  let left ← Srv.perform (.core .now)
  let _ ← toSrv S (perform (.store (.setPresence ⟨deviceId, false, "", left⟩)))
  return .closed

theorem connection_eq (device user : String) : connection S device user =
    (Srv.perform (.core .now) >>= fun t =>
      Srv.perform (.register device user (Time.unixMilli t)) >>= afterJoin S device) := rfl

/-- The commands of a connection of another device. -/
theorem afterJoin_elsewhere {device : String} (hne : device ≠ d) (k : Nat) :
    (afterJoin S device k).Only (Elsewhere d) := by
  have hpresence (p : Presence) (hp : p.deviceId = device) :
      (toSrv S (perform (.store (.setPresence p)))).Only (Elsewhere d) :=
    elsewhere_yields.program (Prog.only_perform (by rw [Call.Leaves, hp]; exact hne))
  have hhub (c : Srv) (hj : ∀ user seen, c ≠ .register d user seen)
      (hw : ∀ p, c ≠ .core (.rd (.hsetPresence d p))) : Elsewhere d c :=
    ⟨fun ⟨user, seen, h⟩ => hj user seen h, fun ⟨p, h⟩ => hw p h⟩
  refine ⟨hhub _ nofun nofun, fun b => ⟨hhub _ nofun nofun, fun seen =>
    (hpresence _ rfl).bind fun _ => ?_⟩⟩
  refine ⟨hhub _ nofun nofun, fun _ => ⟨hhub _ nofun nofun, fun _ => ⟨hhub _ nofun nofun,
    fun _ => ⟨hhub _ nofun nofun, fun left => (hpresence _ rfl).bind fun _ => trivial⟩⟩⟩⟩

/-- A handler stores its device online, and never anything else: the presence it
reports when it leaves has no connection id. -/
theorem afterJoin_reporting (hd : d ≠ "") (k : Nat) : Reporting d (afterJoin S d k) := by
  have hother (c : Srv) (hc : ∀ q, c ≠ .core (.rd (.hsetPresence d q))) : Reports d c :=
    fun q hq => absurd hq (hc q)
  constructor
  · refine .inr ⟨nofun, fun b hb => .inr ⟨nofun, fun seen _ => ?_⟩⟩
    have hblank : Ws.newID b ≠ "" := by
      refine hexEncode_ne_empty fun hnil => ?_
      have hlen : b.length = 16 := hb
      rw [hnil] at hlen
      cases hlen
    have hcomes := setPresence_comes (S := S) (p := ⟨d, true, Ws.newID b, seen⟩) rfl hd hblank
    exact hcomes.append
  · refine ⟨hother _ nofun, fun b => ⟨hother _ nofun, fun seen =>
      (setPresence_reports fun _ => rfl).bind fun _ => ?_⟩⟩
    refine ⟨hother _ nofun, fun _ => ⟨hother _ nofun, fun _ => ⟨hother _ nofun, fun _ =>
      ⟨hother _ nofun, fun left => ?_⟩⟩⟩⟩
    exact (setPresence_reports fun hblank => absurd rfl hblank).bind fun _ => trivial

theorem connection_arriving (hd : d ≠ "") (device user : String) :
    Arriving d (connection S device user) := by
  rw [connection_eq]
  refine .inr ⟨nofun, nofun, fun t _ => ?_⟩
  by_cases hdev : device = d
  · subst hdev
    exact .inl ⟨⟨user, _, rfl⟩, fun k _ => afterJoin_reporting hd k⟩
  · refine .inr ⟨fun hjoins => ?_, nofun, fun k _ =>
      Prog.Until.of_only (afterJoin_elsewhere hdev k)⟩
    obtain ⟨user', seen, heq⟩ := hjoins
    cases heq
    exact hdev rfl

theorem upgrade_arriving (hd : d ≠ "") (u : Upgrade) : Arriving d (upgrade S u) := by
  refine Prog.Until.bind (checkUpgrade_elsewhere u) fun who => ?_
  cases who with
  | error e => trivial
  | ok who =>
      refine .inr ⟨nofun, nofun, fun accepted _ => ?_⟩
      cases accepted with
      | true => exact connection_arriving hd who.1 who.2
      | false => trivial

/-! ## The store -/

/-- Presences are written by `HSET`; everything else leaves what they say. -/
theorem step_presence (c : RdCmd) (i : Nat) (r : RdState)
    (hnot : ∀ p, c ≠ .hsetPresence d p) :
    ((c.step i r).1.presence d).map Entry.val = (r.presence d).map Entry.val := by
  cases c with
  | hsetPresence device p =>
      have hne : d ≠ device := fun heq => hnot p (by rw [heq])
      show ((r.presence.update r.now device fun _ => p) d).map Entry.val = _
      rw [TtlMap.update_ne _ _ _ hne]
  | expirePresence device ttl =>
      show ((r.presence.expire r.now device (r.now + Time.formatSec ttl)) d).map Entry.val = _
      unfold TtlMap.expire
      cases hentry : r.presence.entry r.now device with
      | none => rfl
      | some e =>
          by_cases hdev : d = device
          · subst hdev
            rw [(TtlMap.entry_eq_some.mp hentry).1]
            simp
          · simp only [TtlMap.set_ne _ _ _ hdev]
  | evalConsumeRefresh token device =>
      show ((Rd.consumeRefresh r token device).1.presence d).map Entry.val = _
      unfold Rd.consumeRefresh
      repeat' split
      all_goals rfl
  | _ =>
      simp only [RdCmd.step]
      repeat' split
      all_goals rfl

/-- What is stored under the device, expired or not. -/
def stored (w : World) (d : String) : Option Rd.PresenceHash :=
  (w.rd.presence d).map Entry.val

theorem exec_stored {i : Nat} {cmd : Srv} {o : Oracle} {w w' : World} {r : cmd.Ans}
    (hx : cmd.exec i o w = some (w', r)) (hnot : ¬WritesPresence d cmd) :
    stored w' d = stored w d := by
  unfold stored
  obtain hsame | ⟨cmd', rfl, -, hstep⟩ := cmd.exec_aof hx
  · rw [hsame]
  · rw [hstep]
    exact step_presence cmd' i w.rd fun p hp => hnot ⟨p, by rw [hp]⟩

/-- A presence that reaches Redis is what is stored. -/
theorem exec_writes {i : Nat} {o : Oracle} {w w' : World} {p : Rd.PresenceHash}
    {r : (Srv.core (.rd (.hsetPresence d p))).Ans}
    (hx : (Srv.core (.rd (.hsetPresence d p))).exec i o w = some (w', r))
    (hfault : o.fault = .none) : stored w' d = some p ∧ w'.hub = w.hub := by
  cases hx
  refine ⟨?_, rfl⟩
  unfold stored
  rw [hfault]
  show ((w.rd.presence.update w.rd.now d fun _ => p) d).map Entry.val = some p
  unfold TtlMap.update
  cases w.rd.presence.entry w.rd.now d <;> simp

theorem env_stored {e : Env} {w w' : World} (h : e.step w = some w') :
    stored w' d = stored w d := by
  obtain ⟨now, -, hrd⟩ := Env.step_rd h
  unfold stored
  rw [hrd]

/-! ## The hub -/

/-- A connection of the device has been registered. -/
def Met (d : String) (h : Ws.Hub) : Prop :=
  ∃ (k : Nat) (c : Ws.Conn), h.conns[k]? = some c ∧ c.deviceId = d

theorem met_calm {h h' : Ws.Hub} (hcalm : Ws.Hub.Calm h h') : Met d h' ↔ Met d h := by
  constructor
  · rintro ⟨k, c', hk, hdev⟩
    obtain ⟨c, hc, hdev', -⟩ := hcalm.back k c' hk
    exact ⟨k, c, hc, hdev'.symm.trans hdev⟩
  · rintro ⟨k, c, hk, hdev⟩
    obtain ⟨c', hc', hdev'⟩ := hcalm.forth k c hk
    exact ⟨k, c', hc', hdev'.trans hdev⟩

theorem met_register (h : Ws.Hub) (device user : String) (seen : Int) :
    Met d (h.register device user seen).1 ↔ Met d h ∨ device = d := by
  obtain ⟨old, hconns, hlen, hcalm, -⟩ := Ws.Hub.register_conns h device user seen
  rw [← met_calm hcalm]
  constructor
  · rintro ⟨k, c, hk, hdev⟩
    rw [hconns] at hk
    obtain hlt | hge := Nat.lt_or_ge k old.conns.length
    · rw [List.getElem?_append_left hlt] at hk
      exact .inl ⟨k, c, hk, hdev⟩
    · rw [List.getElem?_append_right hge] at hk
      rw [List.mem_singleton.mp (List.mem_of_getElem? hk)] at hdev
      exact .inr hdev
  · rintro (⟨k, c, hk, hdev⟩ | hdev)
    · refine ⟨k, c, ?_, hdev⟩
      rw [hconns, List.getElem?_append_left (List.getElem?_eq_some_iff.mp hk).1]
      exact hk
    · refine ⟨old.conns.length, { deviceId := device, userId := user, lastSeen := seen }, ?_, hdev⟩
      rw [hconns, List.getElem?_concat_length]

/-- A command meets the device exactly if it registers a connection of it. -/
theorem exec_met {i : Nat} {cmd : Srv} {o : Oracle} {w w' : World} {r : cmd.Ans}
    (hx : cmd.exec i o w = some (w', r)) : Met d w'.hub ↔ Met d w.hub ∨ Joins d cmd := by
  obtain ⟨hcalm, -⟩ | ⟨device, user, seen, rfl, hhub⟩ | ⟨device, k, rfl, hhub⟩ := Srv.exec_hub _ hx
  · rw [met_calm hcalm]
    refine ⟨.inl, fun hor => hor.elim id ?_⟩
    rintro ⟨user, seen, rfl⟩
    cases hx
    exact (met_calm hcalm).mp ((met_register _ _ _ _).mpr (.inr rfl))
  · rw [hhub, met_register]
    refine or_congr_right ⟨fun hdev => ⟨user, seen, by rw [hdev]⟩, ?_⟩
    rintro ⟨user', seen', heq⟩
    cases heq
    rfl
  · rw [hhub]
    have hsame : Met d (w.hub.unregister device k) ↔ Met d w.hub := by
      unfold Met
      rw [(Ws.Hub.unregister_conns _ _ _).1]
    rw [hsame]
    refine ⟨.inl, fun hor => hor.elim id ?_⟩
    rintro ⟨user', seen', heq⟩
    cases heq

theorem exec_fit {i : Nat} {cmd : Srv} {o : Oracle} {w w' : World} {r : cmd.Ans}
    (hx : cmd.exec i o w = some (w', r)) : FitSrv cmd r := by
  cases cmd with
  | core c =>
      cases c with
      | rand n =>
          simp only [Srv.exec, Core.exec] at hx
          split at hx
          · rename_i hlen
            cases hx
            show (o.bytes.take n).length = n
            rw [List.length_take]
            omega
          · cases hx
      | _ => trivial
  | _ => trivial

/-! ## Runs -/

/-- The presence of the device is stored by the handlers of its connections
only, and reaches Redis. -/
def OwnPresence (d : String) (c : Config Task World Srv Srv.Ans Outcome) :
    Label Task Oracle Env → Prop
  | .act i o => ∀ t cmd k, c.pool[i]? = some (t, .call cmd k) → WritesPresence d cmd →
      (∃ u, t = .upgrade u) ∧ o.fault = .none
  | _ => True

/-- What is stored, and what the threads are about to do. -/
structure Accounted (d : String) (c : Config Task World Srv Srv.Ans Outcome) : Prop where
  /-- A handler has not met the device, or it reports it online. -/
  upgrades : ∀ u p, (Task.upgrade u, p) ∈ c.pool →
    Arriving d p ∨ (Met d c.world.hub ∧ p.Only (Reports d))
  others : ∀ t p, (t, p) ∈ c.pool → (∀ u, t ≠ .upgrade u) → p.Only fun c => ¬Joins d c
  value : ∀ p, stored c.world d = some p → p.online = true ∧ Met d c.world.hub
  /-- Once the device was met, it is stored or will be. -/
  written : Met d c.world.hub → stored c.world d ≠ none ∨
    ∃ u p, (Task.upgrade u, p) ∈ c.pool ∧ p.Comes FitSrv (WritesPresence d) Waits

variable {c c' : Config Task World Srv Srv.Ans Outcome}

/-- A world in which nobody has met the device. -/
theorem Accounted.start {w : World} (hmet : ¬Met d w.hub) (hstored : stored w d = none) :
    Accounted d ⟨w, []⟩ where
  upgrades _ _ hin := nomatch hin
  others _ _ hin := nomatch hin
  value p hp := by rw [hstored] at hp; cases hp
  written h := absurd h hmet

theorem Accounted.spawn (h : Accounted d c) (hd : d ≠ "") (t : Task) :
    Accounted d { c with pool := c.pool ++ [(t, t.code S)] } where
  upgrades u p hin := by
    obtain hold | hnew := List.mem_append.mp hin
    · exact h.upgrades u p hold
    · cases List.mem_singleton.mp hnew
      exact .inl (upgrade_arriving hd u)
  others t' p hin ht := by
    obtain hold | hnew := List.mem_append.mp hin
    · exact h.others t' p hold ht
    · cases List.mem_singleton.mp hnew
      exact other_joins ht
  value := h.value
  written hmet := by
    obtain hstored | ⟨u, p, hin, hcomes⟩ := h.written hmet
    · exact .inl hstored
    · exact .inr ⟨u, p, List.mem_append_left _ hin, hcomes⟩

theorem Accounted.env (h : Accounted d c) {e : Env} {w : World} (hstep : e.step c.world = some w) :
    Accounted d { c with world := w } := by
  have hmet : Met d w.hub ↔ Met d c.world.hub := met_calm (Env.step_hub hstep).1
  have hstored := env_stored (d := d) hstep
  refine ⟨fun u p hin => ?_, h.others, fun p hp => ?_, fun hm => ?_⟩
  · rw [hmet]
    exact h.upgrades u p hin
  · rw [hstored] at hp
    rw [hmet]
    exact h.value p hp
  · rw [hstored]
    exact h.written (hmet.mp hm)

section Act

variable {i : Nat} {o : Oracle} {t : Task} {cmd : Srv} {k : cmd.Ans → Srv.M Outcome}
variable {w : World} {r : cmd.Ans}

/-- What a handler is about to do after one command. -/
theorem Accounted.handler (h : Accounted d c) {u : Upgrade}
    (hi : c.pool[i]? = some (.upgrade u, .call cmd k))
    (hx : cmd.exec i o c.world = some (w, r)) :
    Arriving d (k r) ∨ (Met d w.hub ∧ (k r).Only (Reports d)) := by
  obtain harriving | ⟨hmet, honly⟩ := h.upgrades u _ (List.mem_of_getElem? hi)
  · obtain ⟨hjoins, hthen⟩ | ⟨-, -, hrest⟩ := harriving
    · exact .inr ⟨(exec_met hx).mpr (.inr hjoins), (hthen r (exec_fit hx)).2⟩
    · exact .inl (hrest r (exec_fit hx))
  · exact .inr ⟨(exec_met hx).mpr (.inl hmet), honly.2 r⟩

/-- A handler that stores the presence of the device has met it. -/
theorem Accounted.met (h : Accounted d c) {u : Upgrade}
    (hi : c.pool[i]? = some (.upgrade u, .call cmd k)) (hwrites : WritesPresence d cmd) :
    Met d c.world.hub ∧ Reports d cmd := by
  obtain harriving | ⟨hmet, honly⟩ := h.upgrades u _ (List.mem_of_getElem? hi)
  · obtain ⟨hjoins, -⟩ | ⟨-, hok, -⟩ := harriving
    · obtain ⟨p, rfl⟩ := hwrites
      obtain ⟨user, seen, heq⟩ := hjoins
      cases heq
    · exact absurd hwrites hok
  · exact ⟨hmet, honly.1⟩

/-- Who registers a connection of the device is bound to report it. -/
theorem Accounted.joined (h : Accounted d c) (hi : c.pool[i]? = some (t, .call cmd k))
    (hx : cmd.exec i o c.world = some (w, r)) (hjoins : Joins d cmd) :
    (∃ u, t = .upgrade u) ∧ ((k r).Comes FitSrv (WritesPresence d) Waits ∨
      Met d c.world.hub) := by
  have hmem := List.mem_of_getElem? hi
  cases t with
  | upgrade u =>
      refine ⟨⟨u, rfl⟩, ?_⟩
      obtain harriving | ⟨hmet, -⟩ := h.upgrades u _ hmem
      · obtain ⟨-, hthen⟩ | ⟨hnot, -⟩ := harriving
        · exact .inl (hthen r (exec_fit hx)).1
        · exact absurd hjoins hnot
      · exact .inr hmet
  | request q => exact absurd hjoins (h.others _ _ hmem nofun).1
  | catchup => exact absurd hjoins (h.others _ _ hmem nofun).1

/-- A thread that is bound to report stays so until it has. -/
theorem Accounted.bound (h : Accounted d c) (hi : c.pool[i]? = some (t, .call cmd k))
    (hx : cmd.exec i o c.world = some (w, r)) (hnot : ¬WritesPresence d cmd)
    (hmet : Met d c.world.hub) : stored w d ≠ none ∨
      ∃ u p, (Task.upgrade u, p) ∈ c.pool.set i (t, k r) ∧
        p.Comes FitSrv (WritesPresence d) Waits := by
  have hlt : i < c.pool.length := (List.getElem?_eq_some_iff.mp hi).1
  obtain hstored | ⟨u, p, hin, hcomes⟩ := h.written hmet
  · rw [exec_stored hx hnot]
    exact .inl hstored
  · obtain ⟨j, hj⟩ := List.getElem?_of_mem hin
    by_cases hij : i = j
    · subst hij
      cases hi.symm.trans hj
      obtain hhere | ⟨-, hrest⟩ := hcomes
      · exact absurd hhere hnot
      · exact .inr ⟨u, k r, List.mem_of_getElem? (List.getElem?_set_self hlt),
          hrest r (exec_fit hx)⟩
    · refine .inr ⟨u, p, List.mem_of_getElem? (i := j) ?_, hcomes⟩
      rw [List.getElem?_set_ne hij]
      exact hj

/-- One command of a thread. -/
theorem Accounted.act (h : Accounted d c) (hi : c.pool[i]? = some (t, .call cmd k))
    (hx : cmd.exec i o c.world = some (w, r))
    (hown : WritesPresence d cmd → (∃ u, t = .upgrade u) ∧ o.fault = .none) :
    Accounted d ⟨w, c.pool.set i (t, k r)⟩ := by
  have hlt : i < c.pool.length := (List.getElem?_eq_some_iff.mp hi).1
  have hself : (t, k r) ∈ c.pool.set i (t, k r) :=
    List.mem_of_getElem? (List.getElem?_set_self hlt)
  refine ⟨fun u p hin => ?_, fun t' p hin ht => ?_, fun p hp => ?_, fun hmet => ?_⟩
  · obtain hold | hnew := List.mem_or_eq_of_mem_set hin
    · obtain harriving | ⟨hmet, honly⟩ := h.upgrades u p hold
      · exact .inl harriving
      · exact .inr ⟨(exec_met hx).mpr (.inl hmet), honly⟩
    · cases hnew
      exact h.handler hi hx
  · obtain hold | hnew := List.mem_or_eq_of_mem_set hin
    · exact h.others t' p hold ht
    · cases hnew
      exact (h.others t _ (List.mem_of_getElem? hi) ht).2 r
  · by_cases hwrites : WritesPresence d cmd
    · obtain ⟨⟨u, rfl⟩, hfault⟩ := hown hwrites
      obtain ⟨hmet, hreports⟩ := h.met hi hwrites
      obtain ⟨q, rfl⟩ := hwrites
      obtain ⟨hstored, hhub⟩ := exec_writes hx hfault
      cases hstored.symm.trans hp
      exact ⟨hreports p rfl, hhub ▸ hmet⟩
    · rw [exec_stored hx hwrites] at hp
      exact ⟨(h.value p hp).1, (exec_met hx).mpr (.inl (h.value p hp).2)⟩
  · by_cases hwrites : WritesPresence d cmd
    · obtain ⟨-, hfault⟩ := hown hwrites
      obtain ⟨q, rfl⟩ := hwrites
      left
      rw [(exec_writes hx hfault).1]
      nofun
    · obtain hold | hjoins := (exec_met hx).mp hmet
      · exact h.bound hi hx hwrites hold
      · obtain ⟨⟨u, rfl⟩, hcomes | hold⟩ := h.joined hi hx hjoins
        · exact .inr ⟨u, k r, hself, hcomes⟩
        · exact h.bound hi hx hwrites hold

end Act

theorem Accounted.step (h : Accounted d c) (hd : d ≠ "") {l : Label Task Oracle Env}
    (hown : OwnPresence d c l) (hs : (backend S).next c l = some c') : Accounted d c' := by
  cases l with
  | spawn t =>
      cases hs
      exact h.spawn hd t
  | env e =>
      obtain ⟨w, hstep, rfl⟩ := System.next_env hs
      exact h.env hstep
  | act i o =>
      obtain ⟨t, cmd, k, w, r, hi, hx, rfl⟩ := System.next_act hs
      exact h.act hi hx (hown t cmd k hi)

theorem Accounted.run (h : Accounted d c) (hd : d ≠ "")
    (hrun : (backend S).Reach (OwnPresence d) c c') : Accounted d c' := by
  induction hrun with
  | refl => exact h
  | step _ hown hs ih => exact ih.step hd hown hs

/-! ## Once the handlers are quiet -/

/-- The handler of a connection has returned or waits for its open connection. -/
def settled (h : Ws.Hub) : Task × Srv.M Outcome → Bool
  | (.upgrade _, .ret _) => true
  | (.upgrade _, .call (.done j) _) => (h.conns[j]?).elim false Ws.Conn.isOpen
  | (.upgrade _, .call _ _) => false
  | _ => true

def Quiesced (c : Config Task World Srv Srv.Ans Outcome) : Prop :=
  ∀ x ∈ c.pool, settled c.world.hub x = true

/-- The hub holds a live connection of the device. -/
def live (d : String) (h : Ws.Hub) : Bool :=
  ((h.byDevice d).bind fun k => h.conns[k]?).any fun conn => conn.deviceId = d ∧ conn.isOpen = true

/-- The presence of the device has not expired. -/
def unexpired (d : String) (w : World) : Bool :=
  (w.rd.presence d).all fun e => e.live w.rd.now

/-- The presence of the device in Redis says online. -/
def online (d : String) (w : World) : Bool :=
  (w.rd.presence.get w.rd.now d).any Rd.PresenceHash.online

/-- `GetPresence` with working stores says what Redis says; the trail in Postgres
knows nobody online. -/
theorem getPresence_online {i : Nat} {w w' : World} {p : Presence}
    (hrun : Prog.Runs Core.exec Working i (Combined.getPresence d) w (.ok p) w') :
    p.online = online d w := by
  obtain ⟨r, w₁, hredis, hrest⟩ := Prog.runs_bind.mp hrun
  have hread := runs_rd_bind.mp hredis
  have hget : ((RdCmd.hgetallPresence d).step i w.rd).2 = w.rd.presence.get w.rd.now d := rfl
  rw [hget] at hread
  unfold online
  cases hp : w.rd.presence.get w.rd.now d with
  | none =>
      rw [hp] at hread
      obtain ⟨rfl, -⟩ := Prog.runs_ret.mp hread
      obtain ⟨row, w₂, -, htrail⟩ := Prog.runs_bind.mp hrest
      cases row with
      | error e => cases (Prog.runs_ret.mp htrail).1
      | ok row =>
          cases row with
          | none => cases (Prog.runs_ret.mp htrail).1
          | some row =>
              cases (Prog.runs_ret.mp htrail).1
              rfl
  | some m =>
      rw [hp] at hread
      obtain ⟨rfl, -⟩ := Prog.runs_ret.mp hread
      cases (Prog.runs_ret.mp hrest).1
      rfl

theorem met_of_live {h : Ws.Hub} (hlive : live d h = true) : Met d h := by
  obtain ⟨conn, hconn, hdev⟩ := (Option.any_eq_true _ _).mp hlive
  obtain ⟨k, -, hk⟩ := Option.bind_eq_some_iff.mp hconn
  exact ⟨k, conn, hk, (of_decide_eq_true hdev).1⟩

/-- Quiet handlers have reported every connection that was registered. -/
theorem Accounted.online_iff (h : Accounted d c) (hquiet : Quiesced c)
    (hfresh : unexpired d c.world = true) : online d c.world = true ↔ Met d c.world.hub := by
  have hget : c.world.rd.presence.get c.world.rd.now d = stored c.world d := by
    unfold TtlMap.get TtlMap.entry stored
    unfold unexpired at hfresh
    cases hentry : c.world.rd.presence d with
    | none => rfl
    | some e =>
        rw [hentry] at hfresh
        have he : e.live c.world.rd.now = true := hfresh
        simp only [he]
        rfl
  unfold online
  rw [hget]
  constructor
  · intro honline
    obtain ⟨p, hp, -⟩ := (Option.any_eq_true _ _).mp honline
    exact (h.value p hp).2
  · intro hmet
    obtain hstored | ⟨u, p, hin, hcomes⟩ := h.written hmet
    · obtain ⟨p, hp⟩ := Option.ne_none_iff_exists'.mp hstored
      rw [hp]
      exact (h.value p hp).1
    · have hsettled := hquiet _ hin
      cases p with
      | ret out => exact hcomes.elim
      | call cmd k =>
          cases cmd with
          | done j =>
              obtain ⟨q, hq⟩ | ⟨hstop, -⟩ := hcomes
              · cases hq
              · exact absurd ⟨j, rfl⟩ hstop
          | _ => cases hsettled

/-- **When presence follows the connections.**  Once the handlers are quiet and
the presence of the device has not expired, it is online exactly if some
connection of the device was ever registered.  So it says what the hub says
exactly if the hub holds a live connection of the device or never met it. -/
theorem presence_follows (hd : d ≠ "") {w : World} (hmet : ¬Met d w.hub)
    (hstored : stored w d = none) (hrun : (backend S).Reach (OwnPresence d) ⟨w, []⟩ c)
    (hquiet : Quiesced c) (hfresh : unexpired d c.world = true) :
    (online d c.world = true ↔ live d c.world.hub = true) ↔
      live d c.world.hub = true ∨ ¬Met d c.world.hub := by
  have haccounted := (Accounted.start hmet hstored).run hd hrun
  rw [haccounted.online_iff hquiet hfresh]
  constructor
  · intro hagree
    by_cases hm : Met d c.world.hub
    · exact .inl (hagree.mp hm)
    · exact .inr hm
  · rintro (hlive | hnever)
    · exact ⟨fun _ => hlive, fun _ => met_of_live hlive⟩
    · exact ⟨fun hm => absurd hm hnever, met_of_live⟩

/-! ### Runs of sockets alone -/

/-- Threads that serve sockets, on stores that work. -/
theorem drive_own {os : List Oracle} (hos : ∀ o ∈ os, o.fault = .none)
    {c : Config Task World Srv Srv.Ans Outcome}
    (hup : ∀ x ∈ c.pool, ∃ u, x.1 = .upgrade u) (i : Nat) :
    (backend S).Reach (OwnPresence d) c ((backend S).drive c i os) ∧
      ∀ x ∈ ((backend S).drive c i os).pool, ∃ u, x.1 = .upgrade u := by
  induction os generalizing c with
  | nil => exact ⟨.refl, hup⟩
  | cons o os ih =>
      simp only [System.drive]
      cases hn : (backend S).next c (.act i o) with
      | none => exact ⟨.refl, hup⟩
      | some c' =>
          have hown : OwnPresence d c (.act i o) := fun t cmd k hi _ =>
            ⟨hup _ (List.mem_of_getElem? hi), hos o List.mem_cons_self⟩
          have hup' : ∀ x ∈ c'.pool, ∃ u, x.1 = .upgrade u := by
            obtain ⟨t, cmd, k, w, r, hi, -, rfl⟩ := System.next_act hn
            intro x hx
            obtain hold | hnew := List.mem_or_eq_of_mem_set hx
            · exact hup x hold
            · rw [hnew]
              exact hup (t, .call cmd k) (List.mem_of_getElem? hi)
          obtain ⟨hreach, hlast⟩ := ih (fun o' ho' => hos o' (List.mem_cons_of_mem _ ho')) hup'
          exact ⟨System.Reach.trans (.step .refl hown hn) hreach, hlast⟩

/-- One socket on a server that nobody else uses. -/
theorem serve_own {os : List Oracle} (hos : ∀ o ∈ os, o.fault = .none) (w : World) (u : Upgrade) :
    (backend S).Reach (OwnPresence d) ⟨w, []⟩ ((backend S).serve ⟨w, []⟩ (.upgrade u) os) ∧
      ∀ x ∈ ((backend S).serve ⟨w, []⟩ (.upgrade u) os).pool, ∃ u, x.1 = .upgrade u := by
  have hspawn : (backend S).next ⟨w, []⟩ (.spawn (.upgrade u)) =
      some ⟨w, [] ++ [(.upgrade u, (backend S).code (.upgrade u))]⟩ := rfl
  obtain ⟨hreach, hpool⟩ := drive_own (d := d) hos
    (c := ⟨w, [] ++ [(.upgrade u, (backend S).code (.upgrade u))]⟩)
    (fun x hx => ⟨u, by rw [List.mem_singleton.mp hx]⟩) 0
  exact ⟨System.Reach.trans (.step .refl (l := .spawn _) trivial hspawn) hreach, hpool⟩

theorem seed_working (n : UInt8) : ∀ o ∈ Sample.seed n, o.fault = .none := by
  intro o ho
  rw [List.eq_of_mem_replicate ho]

/-- The world in which the computer has logged in, and nobody is computerConnected. -/
def computerSignedIn : World := Sample.computerIn.world

/-- The computer opens a socket. -/
def computerConnected : Sample.Conf :=
  (backend Sample.server).serve ⟨computerSignedIn, []⟩
    (.upgrade { authorization := Sample.bearer 6 }) (Sample.seed 7)

/-- A read on it fails. -/
def computerFailed : Sample.Conf := moved computerConnected (.connFail 0)

/-- Its handler cleans up and returns. -/
def computerLeft : Sample.Conf := (backend Sample.server).drive computerFailed 0 (Sample.seed 8)

theorem computerConnected_own :
    (backend Sample.server).Reach (OwnPresence "PC-1") ⟨computerSignedIn, []⟩ computerConnected ∧
      ∀ x ∈ computerConnected.pool, ∃ u, x.1 = .upgrade u :=
  serve_own (seed_working 7) _ _

private theorem socket_facts :
    computerSignedIn.hub.conns = [] ∧ stored computerSignedIn "PC-1" = none ∧
    Quiesced computerConnected ∧ unexpired "PC-1" computerConnected.world = true ∧
    live "PC-1" computerConnected.world.hub = true ∧
    (Env.step (.connFail 0) computerConnected.world).isSome = true ∧
    Quiesced computerLeft ∧ unexpired "PC-1" computerLeft.world = true ∧
    online "PC-1" computerLeft.world = true ∧ live "PC-1" computerLeft.world.hub = false := by
  unfold Quiesced
  decide +kernel

theorem computerSignedIn_unmet : ¬Met "PC-1" computerSignedIn.hub := by
  rintro ⟨k, c, hk, -⟩
  rw [socket_facts.1] at hk
  cases hk

theorem computerLeft_own :
    (backend Sample.server).Reach (OwnPresence "PC-1") ⟨computerSignedIn, []⟩ computerLeft := by
  have hfail : (backend Sample.server).next computerConnected (.env (.connFail 0)) =
      some computerFailed := moved_next socket_facts.2.2.2.2.2.1
  have hpool : computerFailed.pool = computerConnected.pool := moved_pool computerConnected _
  have hdrive := drive_own (S := Sample.server) (d := "PC-1") (seed_working 8) (c := computerFailed)
    (by rw [hpool]; exact computerConnected_own.2) 0
  exact System.Reach.trans
    (computerConnected_own.1.step (l := .env (.connFail 0)) trivial hfail) hdrive.1

theorem presence_follows_sample :
    online "PC-1" computerConnected.world = true ↔
      live "PC-1" computerConnected.world.hub = true := by
  obtain ⟨-, hstored, hquiet, hfresh, hlive, -⟩ := socket_facts
  exact (presence_follows (by decide) computerSignedIn_unmet hstored computerConnected_own.1 hquiet
    hfresh).mpr (.inl hlive)

/-- The computer's only connection fails and its handler returns: the computer
stays online. -/
theorem presence_sticks :
    ¬∀ (S : Server) (d : String) (w : World) (c : Config Task World Srv Srv.Ans Outcome),
      d ≠ "" → ¬Met d w.hub → stored w d = none →
      (backend S).Reach (OwnPresence d) ⟨w, []⟩ c → Quiesced c → unexpired d c.world = true →
      (online d c.world = true ↔ live d c.world.hub = true) := by
  intro h
  obtain ⟨-, hstored, -, -, -, -, hquiet, hfresh, honline, hdead⟩ := socket_facts
  have hagree := h Sample.server "PC-1" computerSignedIn computerLeft (by decide)
    computerSignedIn_unmet hstored computerLeft_own hquiet hfresh
  rw [hagree.mp honline] at hdead
  cases hdead

end Calcar.Api
