import Calcar.Verified.Revocation
import Calcar.Ws.Wired

/-!
# Revocation on live sockets

Nothing closes the sockets of a device because it is revoked: the fan-out
looks at the user of a connection and the liveness check at its last
message.  A revoked device that keeps sending keeps receiving.  What the hub
does guarantee is shown here: if the device has been silent for the heartbeat
window when the liveness check looks, and no upgrade that had passed its
checks before the revocation is registered afterwards, then nothing is
written to the device from the end of that check on.

## Main results

* `every_open_socket_registered` — in every reachable state the open
  connections are the registered ones.
* `revoked_device_goes_quiet` — the guarantee, over whole runs.
* `revoked_device_keeps_listening` — a run in which a revoked device goes on
  receiving events.
-/

namespace Calcar.Api

open Lib Ws

variable {S : Server}

/-! ## What steps do to the hub -/

/-- What is written by a step goes to an open connection. -/
def WritesOpen (h h' : Hub) : Prop :=
  h'.delivered = h.delivered ∨ ∃ k ev c, h'.delivered = h.delivered ++ [(k, ev)] ∧
    h.conns[k]? = some c ∧ c.isOpen = true

/-- The steps of the loop goroutine. -/
def OfLoop : Env → Bool
  | .hubTakeEvent | .hubSendOne _ | .hubTick | .hubCloseOne _ | .hubFinish => true
  | _ => false

/-- The goroutines of the hub register and remove nothing, open nothing, and
write to open connections. -/
theorem Env.step_hub {e : Env} {w w' : World} (h : e.step w = some w') :
    Hub.Calm w.hub w'.hub ∧ WritesOpen w.hub w'.hub ∧
      (OfLoop e = false → w'.hub.loop = w.hub.loop) := by
  cases e with
  | pass d =>
      simp only [Env.step] at h
      split at h
      · obtain rfl := Option.some.inj h
        exact ⟨.of_conns rfl rfl, .inl rfl, fun _ => rfl⟩
      · cases h
  | setClock tm =>
      obtain rfl := Option.some.inj h
      exact ⟨.of_conns rfl rfl, .inl rfl, fun _ => rfl⟩
  | passRedis d =>
      simp only [Env.step] at h
      split at h
      · obtain rfl := Option.some.inj h
        exact ⟨.of_conns rfl rfl, .inl rfl, fun _ => rfl⟩
      · cases h
  | hubTakeEvent =>
      obtain ⟨hub, hs, rfl⟩ := Option.map_eq_some_iff.mp h
      unfold Hub.takeEvent at hs
      split at hs
      · obtain rfl := Option.some.inj hs
        exact ⟨.of_conns rfl rfl, .inl rfl, fun he => (by cases he)⟩
      · cases hs
  | hubSendOne k =>
      obtain ⟨hub, hs, rfl⟩ := Option.map_eq_some_iff.mp h
      unfold Hub.sendOne at hs
      split at hs
      · split at hs
        · split at hs
          · obtain rfl := Option.some.inj hs
            exact ⟨.of_modify k _ rfl rfl (fun _ => rfl) fun _ ho => ho, .inl rfl, fun he => (by cases he)⟩
          · obtain rfl := Option.some.inj hs
            exact ⟨.of_modify k _ rfl rfl (fun _ => rfl) fun _ ho => ho, .inl rfl, fun he => (by cases he)⟩
        · cases hs
      · cases hs
  | hubTick =>
      obtain ⟨hub, hs, rfl⟩ := Option.map_eq_some_iff.mp h
      unfold Hub.tick at hs
      split at hs
      · obtain rfl := Option.some.inj hs
        exact ⟨.of_conns rfl rfl, .inl rfl, fun he => (by cases he)⟩
      · cases hs
  | hubCloseOne k =>
      obtain ⟨hub, hs, rfl⟩ := Option.map_eq_some_iff.mp h
      unfold Hub.closeOne at hs
      split at hs
      · split at hs
        · obtain rfl := Option.some.inj hs
          exact ⟨.of_modify k _ rfl rfl (fun _ => rfl) (fun _ ho => by cases ho), .inl rfl,
            fun he => (by cases he)⟩
        · cases hs
      · cases hs
  | hubFinish =>
      obtain ⟨hub, hs, rfl⟩ := Option.map_eq_some_iff.mp h
      unfold Hub.finish at hs
      split at hs
      · obtain rfl := Option.some.inj hs
        exact ⟨.of_conns rfl rfl, .inl rfl, fun he => (by cases he)⟩
      · obtain rfl := Option.some.inj hs
        exact ⟨.of_conns rfl rfl, .inl rfl, fun he => (by cases he)⟩
      · cases hs
  | connRecv k =>
      obtain ⟨hub, hs, rfl⟩ := Option.map_eq_some_iff.mp h
      unfold Hub.recv at hs
      split at hs
      · obtain rfl := Option.some.inj hs
        exact ⟨.of_modify k _ rfl rfl (fun _ => rfl) fun _ ho => ho, .inl rfl, fun _ => rfl⟩
      · cases hs
  | connWrite k =>
      obtain ⟨hub, hs, rfl⟩ := Option.map_eq_some_iff.mp h
      unfold Hub.write at hs
      split at hs
      · rename_i c hc
        split at hs
        · rename_i hact
          split at hs
          · cases hs
          · rename_i ev rest hsend
            obtain rfl := Option.some.inj hs
            refine ⟨.of_modify k _ rfl rfl (fun _ => rfl) fun _ ho => ho, .inr ?_, fun _ => rfl⟩
            rw [Bool.and_eq_true] at hact
            exact ⟨k, ev, c, rfl, hc, hact.1⟩
        · cases hs
      · cases hs
  | connBeat k =>
      obtain ⟨hub, hs, rfl⟩ := Option.map_eq_some_iff.mp h
      unfold Hub.beat at hs
      split at hs
      · rename_i c hc
        split at hs
        · rename_i hact
          obtain rfl := Option.some.inj hs
          rw [Bool.and_eq_true] at hact
          exact ⟨.of_conns rfl rfl, .inr ⟨k, _, c, rfl, hc, hact.1⟩, fun _ => rfl⟩
        · cases hs
      · cases hs
  | connFail k =>
      obtain ⟨hub, hs, rfl⟩ := Option.map_eq_some_iff.mp h
      unfold Hub.fail at hs
      split at hs
      · obtain rfl := Option.some.inj hs
        exact ⟨Hub.calm_close _ k, .inl rfl, fun _ => rfl⟩
      · cases hs

/-- A command of a goroutine registers a connection, removes one, or leaves
the connections, the loop and what was written alone. -/
theorem Srv.exec_hub {i : Nat} (cmd : Srv) {o : Oracle} {w w' : World} {r : cmd.Ans}
    (h : cmd.exec i o w = some (w', r)) :
    (Hub.Calm w.hub w'.hub ∧ w'.hub.loop = w.hub.loop ∧
        w'.hub.delivered = w.hub.delivered) ∨
      (∃ d u t, cmd = .register d u t ∧ w'.hub = (w.hub.register d u t).1) ∨
      ∃ d k, cmd = .unregister d k ∧ w'.hub = w.hub.unregister d k := by
  have hsame : w'.hub = w.hub → Hub.Calm w.hub w'.hub ∧ w'.hub.loop = w.hub.loop ∧
      w'.hub.delivered = w.hub.delivered := by
    intro he
    rw [he]
    exact ⟨.of_conns rfl rfl, rfl, rfl⟩
  cases cmd with
  | core c =>
      left
      cases c with
      | pg c =>
          simp only [Srv.exec, Core.exec] at h
          cases he : c.exec i o.fault w.pg with
          | none => rw [he] at h; cases h
          | some x =>
              rw [he] at h
              simp only [Option.some.injEq, Prod.mk.injEq] at h
              exact hsame (by rw [← h.1])
      | rd c =>
          simp only [Srv.exec, Core.exec, Option.some.injEq, Prod.mk.injEq] at h
          exact hsame (by rw [← h.1])
      | now =>
          simp only [Srv.exec, Core.exec, Option.some.injEq, Prod.mk.injEq] at h
          exact hsame (by rw [← h.1])
      | rand n =>
          simp only [Srv.exec, Core.exec] at h
          split at h
          · simp only [Option.some.injEq, Prod.mk.injEq] at h
            exact hsame (by rw [← h.1])
          · cases h
      | notify ev =>
          simp only [Srv.exec, Core.exec, Option.some.injEq, Prod.mk.injEq] at h
          rw [← h.1]
          show Hub.Calm w.hub (w.hub.notify ev) ∧ (w.hub.notify ev).loop = _ ∧ _ = _
          unfold Hub.notify
          split
          · exact ⟨.of_conns rfl rfl, rfl, rfl⟩
          · exact ⟨.of_conns rfl rfl, rfl, rfl⟩
  | enter dev user =>
      simp only [Srv.exec, Option.some.injEq, Prod.mk.injEq] at h
      exact .inl (hsame (by rw [← h.1]))
  | accept d =>
      simp only [Srv.exec, Option.some.injEq, Prod.mk.injEq] at h
      exact .inl (hsame (by rw [← h.1]))
  | register d u t =>
      simp only [Srv.exec, Option.some.injEq, Prod.mk.injEq] at h
      exact .inr (.inl ⟨d, u, t, rfl, by rw [← h.1]⟩)
  | start k =>
      simp only [Srv.exec, Option.some.injEq, Prod.mk.injEq] at h
      rw [← h.1]
      exact .inl ⟨.of_modify k _ rfl rfl (fun _ => rfl) fun _ ho => ho, rfl, rfl⟩
  | done k =>
      simp only [Srv.exec] at h
      split at h
      · split at h
        · cases h
        · simp only [Option.some.injEq, Prod.mk.injEq] at h
          exact .inl (hsame (by rw [← h.1]))
      · cases h
  | unregister d k =>
      simp only [Srv.exec, Option.some.injEq, Prod.mk.injEq] at h
      exact .inr (.inr ⟨d, k, rfl, by rw [← h.1]⟩)
  | takeCatchup =>
      simp only [Srv.exec] at h
      split at h
      · cases h
      · simp only [Option.some.injEq, Prod.mk.injEq] at h
        rw [← h.1]
        exact .inl ⟨.of_conns rfl rfl, rfl, rfl⟩

/-! ## Open sockets are registered ones -/

/-- The connection was closed, and stays so. -/
def HubClosed (k : Nat) (h : Hub) : Prop := ∃ c : Conn, h.conns[k]? = some c ∧ c.isOpen = false

theorem closed_calm {k : Nat} {h h' : Hub} (hk : HubClosed k h)
    (hc : Hub.Calm h h') : HubClosed k h' := by
  obtain ⟨c, hcon, hclosed⟩ := hk
  obtain ⟨c', hcon', _⟩ := hc.forth k c hcon
  refine ⟨c', hcon', ?_⟩
  obtain ⟨c₀, hcon₀, _, hopen⟩ := hc.back k c' hcon'
  rw [hcon] at hcon₀
  obtain rfl := Option.some.inj hcon₀
  cases ho : c'.isOpen with
  | false => rfl
  | true =>
      rw [hopen ho] at hclosed
      cases hclosed

theorem closed_register {k : Nat} {h : Hub} (hk : HubClosed k h) (d u : String)
    (t : Int) : HubClosed k (h.register d u t).1 := by
  obtain ⟨old, hconns, hlen, hcalm, _⟩ := Hub.register_conns h d u t
  obtain ⟨c, hcon, hclosed⟩ := closed_calm hk hcalm
  refine ⟨c, ?_, hclosed⟩
  rw [hconns, List.getElem?_append_left (List.getElem?_eq_some_iff.mp hcon).1]
  exact hcon

theorem closed_unregister {k : Nat} {h : Hub} (hk : HubClosed k h) (d : String)
    (j : Nat) : HubClosed k (h.unregister d j) := by
  unfold Hub.unregister
  split
  · exact hk
  · exact hk

variable (S) in
/-- Handlers remove entries of closed connections only. -/
def socketDiscipline : Discipline (backend S) where
  inv w := w.hub.Wired
  allowed _ _ cmd w := ∀ d k, cmd = .unregister d k →
    ∀ c : Conn, w.hub.conns[k]? = some c → c.isOpen = false

section Wiring

variable {t : Task} {i : Nat}

private theorem closed_stable {D : Discipline (backend S)} (k : Nat) :
    D.Stable i fun w => HubClosed k w.hub := by
  rintro w w' (⟨_, _, _, _, hx⟩ | ⟨_, _, hx⟩) h
  · rcases Srv.exec_hub _ hx with ⟨hc, _⟩ | ⟨d, u, tm, _, he⟩ | ⟨d, j, _, he⟩
    · exact closed_calm h hc
    · rw [he]
      exact closed_register h d u tm
    · rw [he]
      exact closed_unregister h d j
  · exact closed_calm h (Env.step_hub hx).1

/-- Commands that remove no entry are free. -/
private theorem free_safe {β : Type} {p : Srv.M β}
    (hp : p.Only fun c => ∀ d k, c ≠ .unregister d k) :
    (socketDiscipline S).Triple t i (fun _ => True) p fun _ _ => True := by
  apply Discipline.Triple.only hp (Discipline.stable_const True)
  intro cmd o w hcmd _ _ _
  exact ⟨fun d k he => absurd he (hcmd d k), fun _ _ _ => trivial⟩

private theorem only_core {β : Type} (p : M β) :
    (toSrv S p).Only fun c => ∀ d k, c ≠ .unregister d k := by
  apply (only_toSrv (Prog.only_of_all (P := fun _ => True) (fun _ => trivial) _)).mono
  rintro _ ⟨c, rfl, _⟩
  nofun

private theorem only_serve (r : Request) :
    (serve S r).Only fun c => ∀ d k, c ≠ .unregister d k := by
  unfold serve
  split
  · exact only_core _
  · apply Prog.Only.bind (only_core _)
    rintro (e | ⟨dev, user⟩)
    · trivial
    · exact (Prog.only_perform nofun).bind fun _ => only_core _

private theorem one_safe (cmd : Srv) (h : ∀ d k, cmd ≠ .unregister d k) :
    (socketDiscipline S).Triple t i (fun _ => True) (Srv.perform cmd) fun _ _ => True :=
  free_safe (Prog.only_perform h)

/-- A connection's handler waits for the connection to be closed before it
removes its entry. -/
private theorem connection_wired (device user : String) :
    (socketDiscipline S).Triple t i (fun _ => True) (connection S device user)
      fun _ _ => True := by
  apply (one_safe (.core .now) nofun).bind
  intro tm
  apply (one_safe (.register device user _) nofun).bind
  intro k
  apply (one_safe (.core (.rand 16)) nofun).bind
  intro b
  apply (one_safe (.core .now) nofun).bind
  intro seen
  apply (free_safe (only_core _)).bind
  intro _
  apply (one_safe (.start k) nofun).bind
  intro _
  have hdone : (socketDiscipline S).Triple t i (fun _ => True) (Srv.perform (.done k))
      fun _ w => HubClosed k w.hub := by
    apply Discipline.Triple.call (B := fun _ w => HubClosed k w.hub)
      (Discipline.stable_const True)
    · intro w o _ _ _
      refine ⟨nofun, ?_⟩
      intro w₁ r hx _
      have hx' : Srv.exec i (.done k) o w = some (w₁, r) := hx
      simp only [Srv.exec] at hx'
      split at hx'
      · rename_i c hc
        split at hx'
        · cases hx'
        · rename_i hopen
          simp only [Option.some.injEq, Prod.mk.injEq] at hx'
          rw [← hx'.1]
          exact ⟨c, hc, by simpa using hopen⟩
      · cases hx'
    · intro r
      exact Discipline.Triple.ret (closed_stable k) fun _ _ h => h
  apply hdone.bind
  intro _
  have hunreg : (socketDiscipline S).Triple t i (fun w => HubClosed k w.hub)
      (Srv.perform (.unregister device k)) fun _ _ => True := by
    apply Discipline.Triple.call (B := fun _ _ => True) (closed_stable k)
    · intro w o _ _ hclosed
      refine ⟨?_, fun _ _ _ _ => trivial⟩
      intro d k' he c hc
      obtain ⟨_, rfl⟩ := Srv.unregister.inj he
      obtain ⟨c', hc', hf⟩ := hclosed
      have hsame : c = c' := Option.some.inj (hc.symm.trans hc')
      rw [hsame]
      exact hf
    · intro r
      exact Discipline.Triple.ret (Discipline.stable_const True) fun _ _ _ => trivial
  apply hunreg.bind
  intro _
  apply (one_safe (.core .now) nofun).bind
  intro left
  apply (free_safe (only_core _)).bind
  intro _
  exact Discipline.Triple.ret (Discipline.stable_const True) fun _ _ _ => trivial

private theorem task_wired :
    (socketDiscipline S).Triple t i (fun _ => True) (t.code S) fun _ _ => True := by
  have hret : ∀ out, (socketDiscipline S).Triple t i (fun _ => True)
      (.ret out : Srv.M Outcome) fun _ _ => True :=
    fun out => Discipline.Triple.ret (Discipline.stable_const True) fun _ _ _ => trivial
  cases t with
  | request r => exact (free_safe (only_serve r)).bind fun _ => hret _
  | upgrade u =>
      apply (free_safe (only_core _)).bind
      rintro (r | ⟨device, user⟩)
      · exact hret _
      · apply (one_safe (.accept device) nofun).bind
        intro ok
        show (socketDiscipline S).Triple _ i _ (ite _ _ _ : Srv.M Outcome) _
        split
        · exact connection_wired device user
        · exact hret _
  | catchup =>
      apply (one_safe .takeCatchup nofun).bind
      intro user
      apply (free_safe (only_core _)).bind
      intro _
      exact hret _

end Wiring

/-- **Open sockets are registered.**  In every reachable state every open
connection is the one its device is registered with. -/
theorem every_open_socket_registered {c : Config Task World Srv Srv.Ans Outcome}
    (h : (backend S).Reach (fun _ _ => True) boot c) : c.world.hub.Wired := by
  have hreach := (socketDiscipline S).presumes_any trivial trivial h
  refine (Discipline.sound (D := socketDiscipline S) (Q := fun _ _ _ _ => True)
    ?_ ?_ ?_ ?_ ?_ ?_ ?_ hreach).2.1
  · intro t j cmd o w w' r hi _ hall hx
    rcases Srv.exec_hub cmd hx with ⟨hc, _⟩ | ⟨d, u, tm, _, he⟩ | ⟨d, k, hcmd, he⟩
    · exact Hub.Wired.calm hi hc
    · show Hub.Wired w'.hub
      rw [he]
      exact Hub.Wired.register hi d u tm
    · show Hub.Wired w'.hub
      rw [he]
      exact Hub.Wired.unregister hi d k (hall d k hcmd)
  · intro e w w' hi _ hx
    exact Hub.Wired.calm hi (Env.step_hub hx).1
  · exact fun _ _ => Discipline.stable_const True
  · exact fun t i w _ hi _ => task_wired.safe hi trivial
  · exact ⟨fun k c hk => absurd hk (by simp [boot]), nofun⟩
  · exact fun _ _ => trivial
  · intro i t p hi
    simp [boot] at hi

/-! ## A check after which nothing is written -/

/-- Every open connection of the device has sent nothing for the heartbeat
window. -/
def Silent (id : String) (w : World) : Prop :=
  ∀ c ∈ w.hub.conns, c.deviceId = id → c.isOpen = true →
    c.lastSeen < Time.unixMilli (w.clock - maxMissed * hbInterval)

instance (id : String) (w : World) : Decidable (Silent id w) :=
  inferInstanceAs (Decidable (∀ c ∈ w.hub.conns, _))

/-- No goroutine from before the `n`th registers a connection of the device
in this step. -/
def NoLateEntry (n : Nat) (id : String) (c : Config Task World Srv Srv.Ans Outcome) :
    Label Task Oracle Env → Prop
  | .act i _ => ∀ t user seen k, c.pool[i]? = some (t, .call (.register id user seen) k) →
      n ≤ i
  | _ => True

/-- When the check starts it goes for every open connection of a silent
device. -/
private theorem draining_of_tick {id : String} {w w' : World} (hw : w.hub.Wired)
    (hs : Silent id w) (ht : Env.step .hubTick w = some w') : Hub.Draining id w'.hub := by
  obtain ⟨hub, hs', rfl⟩ := Option.map_eq_some_iff.mp ht
  unfold Hub.tick at hs'
  split at hs'
  · obtain rfl := Option.some.inj hs'
    intro k c hk hdev ho
    have hold : c.lastSeen < Time.unixMilli (w.clock - maxMissed * hbInterval) :=
      hs c (List.mem_of_getElem? hk) hdev ho
    exact ⟨_, rfl, hw.registered hk ho (by simpa using hold)⟩
  · cases hs'

/-- The goroutines of the hub close what the check has found. -/
private theorem draining_env {id : String} {e : Env} {w w' : World}
    (hd : Hub.Draining id w.hub) (h : e.step w = some w') : Hub.Draining id w'.hub := by
  have hcalm := (Env.step_hub h).1
  have hquiet : (∀ k stale, w.hub.loop = .closing stale → k ∉ stale) →
      Hub.Draining id w'.hub :=
    fun hl => ((Hub.Shut.of_draining hd hl).calm hcalm).draining
  cases e with
  | hubTakeEvent =>
      obtain ⟨hub, hs, _⟩ := Option.map_eq_some_iff.mp h
      unfold Hub.takeEvent at hs
      split at hs
      · rename_i hl _
        exact hquiet fun k stale he => by rw [hl] at he; cases he
      · cases hs
  | hubSendOne k =>
      obtain ⟨hub, hs, _⟩ := Option.map_eq_some_iff.mp h
      unfold Hub.sendOne at hs
      split at hs
      · rename_i hl _
        exact hquiet fun k stale he => by rw [hl] at he; cases he
      · cases hs
  | hubTick =>
      obtain ⟨hub, hs, _⟩ := Option.map_eq_some_iff.mp h
      unfold Hub.tick at hs
      split at hs
      · rename_i hl
        exact hquiet fun k stale he => by rw [hl] at he; cases he
      · cases hs
  | hubCloseOne k =>
      obtain ⟨hub, hs, rfl⟩ := Option.map_eq_some_iff.mp h
      unfold Hub.closeOne at hs
      split at hs
      · rename_i stale hl
        split at hs
        · obtain rfl := Option.some.inj hs
          intro j c hj hdev ho
          obtain ⟨c₀, hc₀, hd₀, hopen⟩ := hcalm.back j c hj
          obtain ⟨stale', hl', hmem⟩ := hd j c₀ hc₀ (hd₀.symm.trans hdev) (hopen ho)
          have he : stale = stale' := Loop.closing.inj (hl.symm.trans hl')
          refine ⟨_, rfl, ?_⟩
          rw [List.mem_filter, he]
          refine ⟨hmem, ?_⟩
          by_cases hjk : j = k
          · rw [hjk] at hj
            have hclosed : c.isOpen = false := Hub.closed_close (h := { w.hub with
              loop := .closing (stale.filter fun x => ¬x = k) }) hj
            rw [hclosed] at ho
            cases ho
          · simpa using hjk
        · cases hs
      · cases hs
  | hubFinish =>
      obtain ⟨hub, hs, _⟩ := Option.map_eq_some_iff.mp h
      unfold Hub.finish at hs
      split at hs
      · rename_i hl
        exact hquiet fun k stale he => by rw [hl] at he; cases he
      · rename_i hl
        refine hquiet fun k stale he => ?_
        rw [hl] at he
        rw [← Loop.closing.inj he]
        exact List.not_mem_nil
      · cases hs
  | _ => exact hd.calm hcalm ((Env.step_hub h).2.2 rfl)

/-- Nothing has been written to the device after the first `m` writes, and it
has no open connection. -/
structure QuietSince (m : Nat) (id : String) (h : Hub) : Prop where
  shut : h.Shut id
  written : m ≤ h.delivered.length
  quiet : ∀ x ∈ h.delivered.drop m, ∃ c : Conn, h.conns[x.1]? = some c ∧ c.deviceId ≠ id

private theorem quiet_env {m : Nat} {id : String} {e : Env} {w w' : World}
    (hq : QuietSince m id w.hub) (h : e.step w = some w') : QuietSince m id w'.hub := by
  obtain ⟨hcalm, hwrites, _⟩ := Env.step_hub h
  have hstay : ∀ x ∈ w.hub.delivered.drop m,
      ∃ c : Conn, w'.hub.conns[x.1]? = some c ∧ c.deviceId ≠ id := by
    intro x hx
    obtain ⟨c, hc, hne⟩ := hq.quiet x hx
    obtain ⟨c', hc', hdev⟩ := hcalm.forth x.1 c hc
    exact ⟨c', hc', by rw [hdev]; exact hne⟩
  rcases hwrites with hsame | ⟨k, ev, c, hnew, hk, hopen⟩
  · refine ⟨hq.shut.calm hcalm, ?_, ?_⟩
    · rw [hsame]
      exact hq.written
    · rw [hsame]
      exact hstay
  · refine ⟨hq.shut.calm hcalm, ?_, ?_⟩
    · rw [hnew, List.length_append]
      have := hq.written
      omega
    · rw [hnew, List.drop_append_of_le_length hq.written]
      intro x hx
      rcases List.mem_append.mp hx with hx | hx
      · exact hstay x hx
      · rw [List.mem_singleton.mp hx]
        have hne : c.deviceId ≠ id := by
          intro hdev
          rw [hq.shut k c hk hdev] at hopen
          cases hopen
        obtain ⟨c', hc', hdev'⟩ := hcalm.forth k c hk
        exact ⟨c', hc', by rw [hdev']; exact hne⟩

section Runs

variable {c₀ c c' : Config Task World Srv Srv.Ans Outcome} {id : String}

/-- After a revocation no goroutine that keeps to the condition registers the
device. -/
private theorem registers_others (h₀ : (backend S).Reach (fun _ _ => True) boot c₀)
    (hrev : ∃ e ∈ c₀.world.pg.wal, .revokeDevice id ∈ e.writes)
    (h : (backend S).Reach (fun _ _ => True) c₀ c) {i : Nat} {o : Oracle}
    (hl : NoLateEntry c₀.pool.length id c (.act i o)) {t : Task} {d user : String}
    {seen : Int} {k : Nat → Srv.M Outcome}
    (hi : c.pool[i]? = some (t, .call (.register d user seen) k)) : d ≠ id := by
  rintro rfl
  have hle : c₀.pool.length ≤ i := hl t user seen k hi
  exact lockout_issues h₀ hrev h hle hi rfl

/-- One step after the check has started. -/
private theorem draining_next (h₀ : (backend S).Reach (fun _ _ => True) boot c₀)
    (hrev : ∃ e ∈ c₀.world.pg.wal, .revokeDevice id ∈ e.writes)
    (h : (backend S).Reach (fun _ _ => True) c₀ c) {l : Label Task Oracle Env}
    (hl : NoLateEntry c₀.pool.length id c l) (hn : (backend S).next c l = some c')
    (hd : Hub.Draining id c.world.hub) : Hub.Draining id c'.world.hub := by
  cases l with
  | spawn t =>
      simp only [System.next, Option.some.injEq] at hn
      rw [← hn]
      exact hd
  | act i o =>
      obtain ⟨t, cmd, k, w, r, hi, hx, rfl⟩ := System.next_act hn
      rcases Srv.exec_hub cmd hx with ⟨hc, hloop, _⟩ | ⟨d, u, tm, rfl, he⟩ | ⟨d, j, rfl, he⟩
      · exact hd.calm hc hloop
      · show Hub.Draining id w.hub
        rw [he]
        exact hd.register u tm (registers_others h₀ hrev h hl hi)
      · show Hub.Draining id w.hub
        obtain ⟨hconns, hloop, _⟩ := Hub.unregister_conns c.world.hub d j
        intro k' x hk' hdev ho
        rw [he, hloop]
        rw [he, hconns] at hk'
        exact hd k' x hk' hdev ho
  | env e =>
      obtain ⟨w, hx, rfl⟩ := System.next_env hn
      exact draining_env hd hx

/-- One step after the check has ended. -/
private theorem quiet_next {m : Nat} (h₀ : (backend S).Reach (fun _ _ => True) boot c₀)
    (hrev : ∃ e ∈ c₀.world.pg.wal, .revokeDevice id ∈ e.writes)
    (h : (backend S).Reach (fun _ _ => True) c₀ c) {l : Label Task Oracle Env}
    (hl : NoLateEntry c₀.pool.length id c l) (hn : (backend S).next c l = some c')
    (hq : QuietSince m id c.world.hub) : QuietSince m id c'.world.hub := by
  cases l with
  | spawn t =>
      simp only [System.next, Option.some.injEq] at hn
      rw [← hn]
      exact hq
  | act i o =>
      obtain ⟨t, cmd, k, w, r, hi, hx, rfl⟩ := System.next_act hn
      rcases Srv.exec_hub cmd hx with ⟨hc, _, hw⟩ | ⟨d, u, tm, rfl, he⟩ | ⟨d, j, rfl, he⟩
      · refine ⟨hq.shut.calm hc, ?_, ?_⟩
        · rw [hw]
          exact hq.written
        · rw [hw]
          intro x hxm
          obtain ⟨y, hy, hne⟩ := hq.quiet x hxm
          obtain ⟨y', hy', hdev⟩ := hc.forth x.1 y hy
          exact ⟨y', hy', by rw [hdev]; exact hne⟩
      · have hdel : (c.world.hub.register d u tm).1.delivered = c.world.hub.delivered := by
          unfold Hub.register
          cases c.world.hub.byDevice d <;> rfl
        show QuietSince m id w.hub
        rw [he]
        refine ⟨hq.shut.register u tm (registers_others h₀ hrev h hl hi), ?_, ?_⟩
        · rw [hdel]
          exact hq.written
        · rw [hdel]
          intro x hxm
          obtain ⟨y, hy, hne⟩ := hq.quiet x hxm
          obtain ⟨y', hy', hdev⟩ := Hub.device_register d u tm hy
          exact ⟨y', hy', by rw [hdev]; exact hne⟩
      · obtain ⟨hconns, _, hdel⟩ := Hub.unregister_conns c.world.hub d j
        show QuietSince m id w.hub
        rw [he]
        refine ⟨?_, ?_, ?_⟩
        · intro k' x hk'
          rw [hconns] at hk'
          exact hq.shut k' x hk'
        · rw [hdel]
          exact hq.written
        · rw [hdel, hconns]
          exact hq.quiet
  | env e =>
      obtain ⟨w, hx, rfl⟩ := System.next_env hn
      exact quiet_env hq hx

/-- What every step after a revocation keeps, every run keeps. -/
private theorem after_run {I : Config Task World Srv Srv.Ans Outcome → Prop}
    (hstep : ∀ c l c', (backend S).Reach (fun _ _ => True) c₀ c →
      NoLateEntry c₀.pool.length id c l → (backend S).next c l = some c' → I c → I c')
    (h : (backend S).Reach (fun _ _ => True) c₀ c)
    (hr : (backend S).Reach (NoLateEntry c₀.pool.length id) c c') (hi : I c) :
    I c' ∧ (backend S).Reach (fun _ _ => True) c₀ c' := by
  induction hr with
  | refl => exact ⟨hi, h⟩
  | step _ hp hs ih => exact ⟨hstep _ _ _ ih.2 hp hs ih.1, ih.2.step trivial hs⟩

end Runs

/-- **A revoked device goes quiet.**  Take a run in which the revocation of a
device has committed and a liveness check starts afterwards.  If the device
has been silent on its open connections when the check starts, and no
goroutine from before the revocation registers a connection of it later, then
from the end of the check on nothing is written to the device. -/
theorem revoked_device_goes_quiet {c₀ c₁ c₂ c₃ c₄ : Config Task World Srv Srv.Ans Outcome}
    {id : String} (h₀ : (backend S).Reach (fun _ _ => True) boot c₀)
    (hrev : ∃ e ∈ c₀.world.pg.wal, .revokeDevice id ∈ e.writes)
    (h₁ : (backend S).Reach (fun _ _ => True) c₀ c₁) (hsilent : Silent id c₁.world)
    (htick : (backend S).next c₁ (.env .hubTick) = some c₂)
    (h₂ : (backend S).Reach (NoLateEntry c₀.pool.length id) c₂ c₃)
    (hidle : c₃.world.hub.loop = .idle)
    (h₃ : (backend S).Reach (NoLateEntry c₀.pool.length id) c₃ c₄) :
    ∀ x ∈ c₄.world.hub.delivered.drop c₃.world.hub.delivered.length,
      ∃ conn : Conn, c₄.world.hub.conns[x.1]? = some conn ∧ conn.deviceId ≠ id := by
  have hwired : c₁.world.hub.Wired := every_open_socket_registered (h₀.trans h₁)
  have hreach₂ : (backend S).Reach (fun _ _ => True) c₀ c₂ := h₁.step trivial htick
  obtain ⟨w, hw, rfl⟩ := System.next_env htick
  have hdrain : Hub.Draining id w.hub := draining_of_tick hwired hsilent hw
  obtain ⟨hdrain₃, hreach₃⟩ := after_run (I := fun c => Hub.Draining id c.world.hub)
    (fun _ _ _ hr hl hn hi => draining_next h₀ hrev hr hl hn hi) hreach₂ h₂ hdrain
  have hshut : c₃.world.hub.Shut id := by
    refine .of_draining hdrain₃ ?_
    intro k stale hl
    rw [hidle] at hl
    cases hl
  have hquiet : QuietSince c₃.world.hub.delivered.length id c₃.world.hub := by
    refine ⟨hshut, Nat.le_refl _, ?_⟩
    intro x hx
    rw [List.drop_length] at hx
    cases hx
  obtain ⟨hquiet₄, _⟩ := after_run
    (I := fun c => QuietSince c₃.world.hub.delivered.length id c.world.hub)
    (fun _ _ _ hr hl hn hi => quiet_next h₀ hrev hr hl hn hi) hreach₃ h₃ hquiet
  exact hquiet₄.quiet

/-! ### A revoked computer on a live socket -/

/-- One move of the environment, if it is enabled. -/
def moved (c : Sample.Conf) (e : Env) : Sample.Conf :=
  { c with world := (e.step c.world).getD c.world }

/-- Several moves of the environment. -/
def moves (c : Sample.Conf) (es : List Env) : Sample.Conf := es.foldl moved c

theorem moved_next {c : Sample.Conf} {e : Env} (h : (e.step c.world).isSome = true) :
    (backend Sample.server).next c (.env e) = some (moved c e) := by
  obtain ⟨w, hw⟩ := Option.isSome_iff_exists.mp h
  have henv : (backend Sample.server).env e c.world = some w := hw
  simp only [System.next, henv]
  simp only [moved, hw, Option.getD_some]

theorem moved_pool (c : Sample.Conf) (e : Env) : (moved c e).pool = c.pool := rfl

/-- Moves of the environment are a run. -/
theorem moves_reach {P : Sample.Conf → Label Task Oracle Env → Prop}
    (hP : ∀ c e, P c (.env e)) {c₀ c : Sample.Conf}
    (h : (backend Sample.server).Reach P c₀ c) (es : List Env) :
    (backend Sample.server).Reach P c₀ (moves c es) := by
  induction es generalizing c with
  | nil => exact h
  | cons e es ih =>
      apply ih
      cases hs : (e.step c.world).isSome with
      | true => exact h.step (hP c e) (moved_next hs)
      | false =>
          have hsame : moved c e = c := by
            have hnone : e.step c.world = none := by simpa using hs
            unfold moved
            rw [hnone]
            rfl
          rw [hsame]
          exact h

/-- The computer opens a socket, and the Owner revokes it. -/
def listening : Sample.Conf :=
  Sample.ask ((backend Sample.server).serve Sample.computerIn
    (.upgrade { authorization := Sample.bearer 6 }) (Sample.seed 7)) 8
    (Sample.revokeReq 3 "rv" "PC-1")

/-- The hub fans the revocation out. -/
def informed : Sample.Conf := moves (moved listening .hubTakeEvent) [.hubSendOne 0, .hubFinish]

/-- The hub makes a liveness check, and the Owner's phone reports itself. -/
def checked : Sample.Conf := moves (moved informed .hubTick) [.hubFinish]

def reported : Sample.Conf :=
  moves (Sample.ask checked 9 {
      authorization := Sample.bearer 3, requestId := "hb", route := .heartbeat none })
    [.hubTakeEvent, .hubSendOne 0, .hubFinish, .connWrite 0, .connWrite 0]

/-- The same computer, silent for a hundred seconds before the check. -/
def silenced : Sample.Conf := moves listening [.pass (100 * Time.second)]

def dropped : Sample.Conf :=
  moves (moved silenced .hubTick) [.hubCloseOne 0, .hubFinish]

private theorem listening_reach :
    (backend Sample.server).Reach (fun _ _ => True) boot listening :=
  Sample.ask_reach ((Sample.asks_reach Sample.computerLogin .refl).trans
    (System.serve_reach _ _ _)) 8 _

private theorem reported_facts :
    (∃ e ∈ listening.world.pg.wal, .revokeDevice "PC-1" ∈ e.writes) ∧
    listening.world.hub.queue.map Event.payload = [.revoked "PC-1" "PH-1"] ∧
    (Env.hubTakeEvent.step listening.world).isSome = true ∧
    (Env.hubTick.step informed.world).isSome = true ∧
    checked.world.hub.loop = .idle ∧
    (reported.world.hub.delivered.drop checked.world.hub.delivered.length).map
      (fun x => (x.1, x.2.payload)) =
        [(0, .revoked "PC-1" "PH-1"), (0, .presence "PH-1" true)] ∧
    (reported.world.hub.conns[0]?).map Conn.deviceId = some "PC-1" ∧
    Silent "PC-1" silenced.world ∧ (Env.hubTick.step silenced.world).isSome = true ∧
    dropped.world.hub.loop = .idle := by
  decide +kernel

/-- The Owner revokes a computer that has a socket open, the hub fans the
revocation out and makes a liveness check, and the socket is told the next
event all the same. -/
theorem revoked_device_keeps_listening :
    ∃ c₀ a c₁ c₂ c₃ c₄ : Sample.Conf, ∃ x : Nat × Event, ∃ conn : Conn,
      (backend Sample.server).Reach (fun _ _ => True) boot c₀ ∧
      (∃ e ∈ c₀.world.pg.wal, .revokeDevice "PC-1" ∈ e.writes) ∧
      c₀.world.hub.queue.map Event.payload = [.revoked "PC-1" "PH-1"] ∧
      (backend Sample.server).next c₀ (.env .hubTakeEvent) = some a ∧
      (backend Sample.server).Reach (fun _ _ => True) a c₁ ∧
      (backend Sample.server).next c₁ (.env .hubTick) = some c₂ ∧
      (backend Sample.server).Reach (fun _ _ => True) c₂ c₃ ∧
      c₃.world.hub.loop = .idle ∧
      (backend Sample.server).Reach (fun _ _ => True) c₃ c₄ ∧
      x ∈ c₄.world.hub.delivered.drop c₃.world.hub.delivered.length ∧
      x.2.payload = .presence "PH-1" true ∧
      c₄.world.hub.conns[x.1]? = some conn ∧ conn.deviceId = "PC-1" := by
  obtain ⟨hrev, hqueue, htake, htick, hidle, hdel, hconn, -⟩ := reported_facts
  have hmem : (0, Payload.presence "PH-1" true) ∈
      (reported.world.hub.delivered.drop checked.world.hub.delivered.length).map
        fun x => (x.1, x.2.payload) := by
    rw [hdel]
    simp
  obtain ⟨x, hx, he⟩ := List.mem_map.mp hmem
  obtain ⟨hx₁, hx₂⟩ := Prod.mk.injEq _ _ _ _ ▸ he
  obtain ⟨conn, hc, hdev⟩ := Option.map_eq_some_iff.mp hconn
  have hfree : ∀ (c : Sample.Conf) (e : Env), (fun (_ : Sample.Conf)
      (_ : Label Task Oracle Env) => True) c (.env e) := fun _ _ => trivial
  refine ⟨listening, _, informed, _, checked, reported, x, conn, listening_reach, hrev,
    hqueue, moved_next htake, moves_reach hfree .refl _, moved_next htick,
    moves_reach hfree .refl _, hidle, moves_reach hfree (Sample.ask_reach .refl 9 _) _, hx,
    hx₂, ?_, hdev⟩
  rw [hx₁]
  exact hc

/-- A silent computer is dropped by the check and hears nothing of what
follows. -/
theorem revoked_device_goes_quiet_dropped :
    Silent "PC-1" silenced.world ∧ ∀ x ∈ (moves dropped [.hubTakeEvent, .hubFinish, .connWrite 0]).world.hub.delivered.drop
        dropped.world.hub.delivered.length,
      ∃ conn : Conn, (moves dropped [.hubTakeEvent, .hubFinish,
        .connWrite 0]).world.hub.conns[x.1]? = some conn ∧ conn.deviceId ≠ "PC-1" := by
  obtain ⟨hrev, -, -, -, -, -, -, hsilent, htick, hidle⟩ := reported_facts
  have hlate : ∀ n id (c : Sample.Conf) (e : Env), NoLateEntry n id c (.env e) :=
    fun _ _ _ _ => trivial
  refine ⟨hsilent, ?_⟩
  exact revoked_device_goes_quiet listening_reach hrev
    (moves_reach (fun _ _ => trivial) .refl _) hsilent (moved_next htick)
    (moves_reach (hlate _ _) .refl _) hidle (moves_reach (hlate _ _) .refl _)

end Calcar.Api
