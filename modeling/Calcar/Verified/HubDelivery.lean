import Calcar.Api.Routes
import Calcar.Ws.Moves

/-!
# What becomes of an event

Two queues stand between `Notify` and a socket.  The first refuses an event when
it is full, and nobody is told.  Past it nothing is lost unseen: what the fan-out
takes for a connection is written to it in the order it was taken, or still on
its way, or was dropped at the second queue, and then a catch-up is asked for the
user of the connection.

## Main results

* `Balanced.step` — the books balance after every move.
* `backend_audited` — the hub of the backend is one of these machines.
* `hub_delivery` — order, absence of duplicates and accounting in every run.
* `full_queue_loses` — an event that the first queue refused.
-/

namespace Calcar.Ws

open Lib

/-- The events that are not heartbeats. -/
def signals (l : List Event) : List Event := l.filter fun ev => ev.type ≠ .heartbeat

@[simp] theorem signals_append (l l' : List Event) :
    signals (l ++ l') = signals l ++ signals l' := List.filter_append l l'

@[simp] theorem signals_nil : signals [] = [] := rfl

namespace Hub

variable {h h' : Hub} {k : Nat}

/-- What was written to a connection. -/
def sentTo (h : Hub) (k : Nat) : List Event := (h.delivered.filter fun x => x.1 = k).map Prod.snd

/-- What waits in its buffer. -/
def buffer (h : Hub) (k : Nat) : List Event := (h.conns[k]?).elim [] Conn.send

/-- What the fan-out is about to send to it. -/
def pending (h : Hub) (k : Nat) : List Event :=
  match h.loop with
  | .sending ev targets => if k ∈ targets then [ev] else []
  | _ => []

/-- What was sent to a connection so far or is on its way, in order. -/
def outflow (h : Hub) (k : Nat) : List Event :=
  signals (h.sentTo k ++ h.buffer k ++ h.pending k)

def userOf (h : Hub) (k : Nat) : Option String := (h.conns[k]?).map Conn.userId

/-- A move that takes nothing off a queue and gives nothing up: what is on its
way to each connection stays what it was, and so do the owners. -/
structure Steady (h h' : Hub) : Prop where
  queue : h'.queue = h.queue
  catchups : h'.catchups = h.catchups
  outflow : ∀ k, h'.outflow k = h.outflow k
  owner : ∀ (k : Nat) (c' : Conn), h'.conns[k]? = some c' → h.conns[k]? = none ∨
    ∃ c, h.conns[k]? = some c ∧ c'.deviceId = c.deviceId ∧ c'.userId = c.userId
  stays : ∀ k, h.conns[k]? ≠ none → h'.userOf k = h.userOf k
  absent : ∀ k : Nat, h'.conns[k]? = none → h.conns[k]? = none

/-! ### Changing one connection -/

theorem buffer_modify (h : Hub) (j k : Nat) (f : Conn → Conn) :
    (h.modify j f).buffer k = if j = k then (h.conns[k]?).elim [] fun c => (f c).send
      else h.buffer k := by
  unfold buffer modify
  rw [List.getElem?_modify]
  cases h.conns[k]? with
  | none => simp
  | some c =>
      by_cases hjk : j = k
      · simp [hjk]
      · simp [hjk]

theorem owner_modify {j : Nat} {f : Conn → Conn} (hdev : ∀ c, (f c).deviceId = c.deviceId)
    (huser : ∀ c, (f c).userId = c.userId) {c' : Conn} (hk : (h.modify j f).conns[k]? = some c') :
    ∃ c, h.conns[k]? = some c ∧ c'.deviceId = c.deviceId ∧ c'.userId = c.userId := by
  have hmap : (fun c => if j = k then f c else c) <$> h.conns[k]? = some c' := by
    rw [← List.getElem?_modify]
    exact hk
  obtain ⟨c, hc, rfl⟩ := Option.map_eq_some_iff.mp hmap
  refine ⟨c, hc, ?_⟩
  by_cases hjk : j = k
  · simp [hjk, hdev, huser]
  · simp [hjk]

theorem userOf_modify {f : Conn → Conn} (huser : ∀ c, (f c).userId = c.userId) (j k : Nat) :
    (h.modify j f).userOf k = h.userOf k := by
  unfold userOf modify
  rw [List.getElem?_modify]
  cases h.conns[k]? with
  | none => rfl
  | some c =>
      by_cases hjk : j = k
      · simp [hjk, huser]
      · simp [hjk]

theorem absent_modify {j k : Nat} {f : Conn → Conn} (hk : (h.modify j f).conns[k]? = none) :
    h.conns[k]? = none := by
  simpa [modify] using hk

/-- A change of one connection that leaves its owner alone. -/
theorem Steady.modify {h' : Hub} (j : Nat) {f : Conn → Conn}
    (hdev : ∀ c, (f c).deviceId = c.deviceId) (huser : ∀ c, (f c).userId = c.userId)
    (hconns : h'.conns = (h.modify j f).conns) (hqueue : h'.queue = h.queue)
    (hcatchups : h'.catchups = h.catchups) (hout : ∀ k, h'.outflow k = h.outflow k) :
    Steady h h' where
  queue := hqueue
  catchups := hcatchups
  outflow := hout
  owner k c' hk := by
    rw [hconns] at hk
    exact .inr (owner_modify hdev huser hk)
  stays k _ := by
    have huserOf := userOf_modify huser (h := h) j k
    unfold userOf at huserOf ⊢
    rw [hconns]
    exact huserOf
  absent k hk := by
    rw [hconns] at hk
    exact absent_modify hk

/-- A change of one connection that leaves its buffer alone, too. -/
theorem Steady.change (h : Hub) (j : Nat) {f : Conn → Conn}
    (hdev : ∀ c, (f c).deviceId = c.deviceId) (huser : ∀ c, (f c).userId = c.userId)
    (hsend : ∀ c, (f c).send = c.send) : Steady h (h.modify j f) := by
  refine Steady.modify j hdev huser rfl rfl rfl fun k => ?_
  have hbuffer : (h.modify j f).buffer k = h.buffer k := by
    rw [buffer_modify]
    by_cases hjk : j = k
    · rw [if_pos hjk]
      simp [buffer, hsend]
    · rw [if_neg hjk]
  unfold Hub.outflow
  rw [hbuffer]
  rfl

theorem Steady.close (h : Hub) (j : Nat) : Steady h (h.close j) :=
  Steady.change h j (fun _ => rfl) (fun _ => rfl) fun _ => rfl

/-- A change of the rest of the hub. -/
theorem Steady.rest {h' : Hub} (hconns : h'.conns = h.conns) (hqueue : h'.queue = h.queue)
    (hcatchups : h'.catchups = h.catchups) (hout : ∀ k, h'.outflow k = h.outflow k) :
    Steady h h' where
  queue := hqueue
  catchups := hcatchups
  outflow := hout
  owner k c' hk := .inr ⟨c', hconns ▸ hk, rfl, rfl⟩
  stays k _ := by rw [userOf, userOf, hconns]
  absent k hk := hconns ▸ hk

theorem Steady.trans {h₁ h₂ h₃ : Hub} (h : Steady h₁ h₂) (h' : Steady h₂ h₃) : Steady h₁ h₃ where
  queue := h'.queue.trans h.queue
  catchups := h'.catchups.trans h.catchups
  outflow k := (h'.outflow k).trans (h.outflow k)
  owner k c₃ hk := by
    obtain hnone | ⟨c₂, hc₂, hdev, huser⟩ := h'.owner k c₃ hk
    · exact .inl (h.absent k hnone)
    · obtain hnone | ⟨c₁, hc₁, hdev', huser'⟩ := h.owner k c₂ hc₂
      · exact .inl hnone
      · exact .inr ⟨c₁, hc₁, hdev.trans hdev', huser.trans huser'⟩
  stays k hk := by
    have hk₂ : h₂.conns[k]? ≠ none := fun hnone => hk (h.absent k hnone)
    rw [h'.stays k hk₂, h.stays k hk]
  absent k hk := h.absent k (h'.absent k hk)

/-- A loop that sends nothing goes on to send nothing. -/
theorem Steady.loop (h : Hub) (loop : Loop) (hfrom : ∀ k, h.pending k = [])
    (hto : ∀ k, ({ h with loop := loop } : Hub).pending k = []) :
    Steady h { h with loop := loop } := by
  refine Steady.rest rfl rfl rfl fun k => ?_
  unfold Hub.outflow
  rw [hfrom, hto]
  rfl

/-! ### The moves -/

/-- A new connection holds nothing. -/
theorem Steady.append (h : Hub) (c : Conn) (byDevice : String → Option Nat)
    (hsend : c.send = []) :
    Steady h { h with conns := h.conns ++ [c], byDevice := byDevice } where
  queue := rfl
  catchups := rfl
  outflow k := by
    have hbuffer : (h.conns ++ [c])[k]?.elim [] Conn.send = h.buffer k := by
      unfold buffer
      by_cases hk : k < h.conns.length
      · rw [List.getElem?_append_left hk]
      · rw [List.getElem?_eq_none (Nat.le_of_not_lt hk), List.getElem?_append_right (by omega)]
        by_cases hlast : k = h.conns.length
        · simp [hlast, hsend]
        · rw [List.getElem?_eq_none (by simp; omega)]
    unfold Hub.outflow
    rw [← hbuffer]
    rfl
  owner k c' hk := by
    by_cases hold : k < h.conns.length
    · rw [List.getElem?_append_left hold] at hk
      exact .inr ⟨c', hk, rfl, rfl⟩
    · exact .inl (List.getElem?_eq_none (Nat.le_of_not_lt hold))
  stays k hk := by
    have hold : k < h.conns.length := by
      obtain hlt | hge := Nat.lt_or_ge k h.conns.length
      · exact hlt
      · exact absurd (List.getElem?_eq_none hge) hk
    rw [userOf, userOf, List.getElem?_append_left hold]
  absent k hk := by
    rw [List.getElem?_eq_none_iff, List.length_append] at hk
    exact List.getElem?_eq_none (by omega)

theorem register_steady (h : Hub) (deviceId userId : String) (lastSeen : Int) :
    Steady h (h.register deviceId userId lastSeen).1 := by
  unfold register
  cases h.byDevice deviceId with
  | none => exact Steady.append h _ _ rfl
  | some old => exact (Steady.close h old).trans (Steady.append (h.close old) _ _ rfl)

theorem unregister_steady (h : Hub) (deviceId : String) (k : Nat) :
    Steady h (h.unregister deviceId k) := by
  unfold unregister
  split <;> exact Steady.rest rfl rfl rfl fun _ => rfl

theorem tick_steady {now : Time} (hnext : h.tick now = some h') : Steady h h' := by
  unfold tick at hnext
  cases hloop : h.loop with
  | idle =>
      rw [hloop, Option.some.injEq] at hnext
      subst hnext
      exact Steady.loop h _ (fun k => by rw [pending, hloop]) fun _ => rfl
  | sending ev targets => simp [hloop] at hnext
  | closing stale => simp [hloop] at hnext

theorem closeOne_steady (hnext : h.closeOne k = some h') : Steady h h' := by
  unfold closeOne at hnext
  cases hloop : h.loop with
  | idle => simp [hloop] at hnext
  | sending ev targets => simp [hloop] at hnext
  | closing stale =>
      simp only [hloop, Option.ite_none_right_eq_some, Option.some.injEq] at hnext
      obtain ⟨-, rfl⟩ := hnext
      have hloops := Steady.loop h (.closing (stale.filter fun x => ¬x = k))
        (fun k => by rw [pending, hloop]) fun _ => rfl
      exact hloops.trans (Steady.close _ k)

theorem finish_steady (hnext : h.finish = some h') : Steady h h' := by
  unfold finish at hnext
  split at hnext
  · rename_i ev hloop
    cases hnext
    exact Steady.loop h .idle (fun k => by simp [pending, hloop]) fun _ => rfl
  · rename_i hloop
    cases hnext
    exact Steady.loop h .idle (fun k => by rw [pending, hloop]) fun _ => rfl
  · cases hnext

theorem recv_steady {now : Time} (hnext : h.recv k now = some h') : Steady h h' := by
  simp only [recv, Option.ite_none_right_eq_some, Option.some.injEq] at hnext
  obtain ⟨-, rfl⟩ := hnext
  exact Steady.change h k (fun _ => rfl) (fun _ => rfl) fun _ => rfl

theorem fail_steady (hnext : h.fail k = some h') : Steady h h' := by
  simp only [fail, Option.ite_none_right_eq_some, Option.some.injEq] at hnext
  obtain ⟨-, rfl⟩ := hnext
  exact Steady.close h k

theorem sentTo_append (sent : List (Nat × Event)) (k j : Nat) (ev : Event) :
    ((sent ++ [(j, ev)]).filter fun x => x.1 = k).map Prod.snd =
      (sent.filter fun x => x.1 = k).map Prod.snd ++ if j = k then [ev] else [] := by
  by_cases hjk : j = k
  · simp [hjk]
  · simp [hjk]

/-- A heartbeat is no signal. -/
theorem beat_steady (hnext : h.beat k = some h') : Steady h h' := by
  unfold beat at hnext
  cases hc : h.conns[k]? with
  | none => simp [hc] at hnext
  | some c =>
      simp only [hc, Option.ite_none_right_eq_some, Option.some.injEq] at hnext
      obtain ⟨-, rfl⟩ := hnext
      refine Steady.rest rfl rfl rfl fun j => ?_
      unfold outflow sentTo
      rw [sentTo_append, signals_append, signals_append, signals_append, signals_append,
        signals_append]
      by_cases hkj : k = j
      · rw [if_pos hkj]
        simp [signals, buffer, pending]
      · rw [if_neg hkj, signals_nil, List.append_nil]
        rfl

/-- What is written leaves the buffer. -/
theorem write_steady (hnext : h.write k = some h') : Steady h h' := by
  unfold write at hnext
  cases hc : h.conns[k]? with
  | none => simp [hc] at hnext
  | some c =>
      simp only [hc, Option.ite_none_right_eq_some] at hnext
      obtain ⟨-, hnext⟩ := hnext
      cases hsend : c.send with
      | nil => simp [hsend] at hnext
      | cons ev rest =>
          simp only [hsend, Option.some.injEq] at hnext
          subst hnext
          refine Steady.modify k (f := fun c => { c with send := rest }) (fun _ => rfl)
            (fun _ => rfl) rfl rfl rfl fun j => ?_
          have hbuffer := buffer_modify h k j fun c => { c with send := rest }
          unfold outflow sentTo
          show signals (((h.delivered ++ [(k, ev)]).filter fun x => x.1 = j).map Prod.snd ++
            (h.modify k fun c => { c with send := rest }).buffer j ++ h.pending j) = _
          rw [sentTo_append, hbuffer]
          by_cases hkj : k = j
          · subst hkj
            simp [hc, buffer, hsend]
          · simp [hkj]

/-! ### The fan-out -/

/-- What is still to be sent after one target is done with. -/
theorem pending_filter (ev : Event) (targets : List Nat) (k j : Nat) (hmem : k ∈ targets) :
    (if k = j then [ev] else []) ++
        (if j ∈ targets.filter (fun x => ¬x = k) then [ev] else []) =
      if j ∈ targets then [ev] else [] := by
  by_cases hkj : k = j
  · subst hkj
    simp [hmem]
  · have hjk : ¬j = k := fun h => hkj h.symm
    simp [hkj, hjk]

/-- A send to a target puts the event in its buffer; at a full buffer it is
dropped, and a catch-up is asked for. -/
theorem sendOne_cases (hnext : h.sendOne k = some h') :
    Steady h h' ∧ (∃ c, h.conns[k]? = some c ∧ c.send.length < sendBufferSize) ∨
    ∃ ev targets c, h.loop = .sending ev targets ∧ h.conns[k]? = some c ∧ k ∈ targets ∧
      ¬c.send.length < sendBufferSize ∧
      h' = { h.modify k fun c => { c with dropped := c.dropped + 1 } with
        loop := .sending ev (targets.filter fun x => ¬x = k)
        catchups := h.catchups ++ [c.userId] } := by
  unfold sendOne at hnext
  split at hnext
  · rename_i ev targets c hloop hc
    obtain ⟨hmem, hnext⟩ := Option.ite_none_right_eq_some.mp hnext
    by_cases hroom : c.send.length < sendBufferSize
    · rw [if_pos hroom, Option.some.injEq] at hnext
      subst hnext
      refine .inl ⟨Steady.modify k (f := fun c => { c with send := c.send ++ [ev] })
        (fun _ => rfl) (fun _ => rfl) rfl rfl rfl fun j => ?_, c, hc, hroom⟩
      have hbuffer := buffer_modify h k j fun c => { c with send := c.send ++ [ev] }
      have hpending := pending_filter ev targets k j hmem
      show signals (h.sentTo j ++
        (h.modify k fun c => { c with send := c.send ++ [ev] }).buffer j ++
        if j ∈ targets.filter (fun x => ¬x = k) then [ev] else []) = _
      unfold outflow pending
      rw [hbuffer, hloop]
      simp only
      rw [← hpending]
      by_cases hkj : k = j
      · subst hkj
        simp [hc, buffer]
      · simp [hkj]
    · rw [if_neg hroom, Option.some.injEq] at hnext
      exact .inr ⟨ev, targets, c, hloop, hc, hmem, hroom, hnext.symm⟩
  · cases hnext

/-- The event at the head of the queue is sent to the connections it is for. -/
theorem takeEvent_cases (hnext : h.takeEvent = some h') :
    ∃ ev rest, h.loop = .idle ∧ h.queue = ev :: rest ∧
      h' = { h with queue := rest, loop := .sending ev (h.targets ev) } := by
  unfold takeEvent at hnext
  split at hnext
  · rename_i ev rest hloop hqueue
    rw [Option.some.injEq] at hnext
    refine ⟨ev, rest, hloop, hqueue, hnext.symm.trans ?_⟩
    rfl
  · cases hnext

/-- Only registered connections that an event is for are sent it. -/
theorem mem_targets {ev : Event} (hmem : k ∈ h.targets ev) :
    ∃ c, h.conns[k]? = some c ∧ h.byDevice c.deviceId = some k ∧ c.hears ev = true := by
  obtain ⟨-, hmem⟩ := List.mem_filter.mp hmem
  cases hc : h.conns[k]? with
  | none => simp [hc] at hmem
  | some c =>
      simp only [hc, decide_eq_true_eq] at hmem
      exact ⟨c, rfl, hmem.1, hmem.2⟩

end Hub

/-! ## The books -/

namespace Ledger

variable (l : Ledger) (k : Nat)

/-- The events that the fan-out took for a connection. -/
def fanned : List Event :=
  signals ((l.taken.filter fun t => k ∈ t.2).map Prod.fst)

/-- The events of a connection that were dropped at its buffer. -/
def lost : List Event := signals ((l.dropped.filter fun d => d.1 = k).map Prod.snd)

end Ledger

/-- Every event is accounted for. -/
structure Balanced (h : Hub) (l : Ledger) : Prop where
  accepted : l.accepted.Sublist l.notified
  queue : l.accepted = l.taken.map Prod.fst ++ h.queue
  /-- Events are taken for those they address. -/
  heard : ∀ (k : Nat) (c : Conn), h.conns[k]? = some c → ∀ t ∈ l.taken, k ∈ t.2 → c.hears t.1
  /-- and only for connections there are. -/
  absent : ∀ k : Nat, h.conns[k]? = none → ∀ t ∈ l.taken, k ∉ t.2
  order : ∀ k, (h.outflow k).Sublist (l.fanned k)
  kept : ∀ k, (l.fanned k).Perm (h.outflow k ++ l.lost k)
  catchups : (l.begun ++ h.catchups).map some = l.dropped.map fun d => h.userOf d.1

namespace Balanced

variable {h h' : Hub} {l : Ledger}

theorem empty : Balanced {} {} where
  accepted := .slnil
  queue := rfl
  heard _ _ hk := nomatch hk
  absent _ _ _ ht := nomatch ht
  order _ := .slnil
  kept _ := .nil
  catchups := rfl

/-- Whoever lost an event is known. -/
theorem known (hbal : Balanced h l) {d : Nat × Event} (hd : d ∈ l.dropped) :
    h.conns[d.1]? ≠ none := by
  have hmem : h.userOf d.1 ∈ l.dropped.map fun d => h.userOf d.1 := List.mem_map_of_mem hd
  rw [← hbal.catchups] at hmem
  obtain ⟨u, -, hu⟩ := List.mem_map.mp hmem
  intro hnone
  rw [Hub.userOf, hnone] at hu
  cases hu

theorem steady (hbal : Balanced h l) (hsteady : Hub.Steady h h') : Balanced h' l where
  accepted := hbal.accepted
  queue := by rw [hbal.queue, hsteady.queue]
  heard k c' hk t ht hmem := by
    obtain hnone | ⟨c, hc, hdev, huser⟩ := hsteady.owner k c' hk
    · exact absurd hmem (hbal.absent k hnone t ht)
    · have hold := hbal.heard k c hc t ht hmem
      rw [Conn.hears] at hold ⊢
      rwa [hdev, huser]
  absent k hk := hbal.absent k (hsteady.absent k hk)
  order k := by rw [hsteady.outflow]; exact hbal.order k
  kept k := by rw [hsteady.outflow]; exact hbal.kept k
  catchups := by
    rw [hsteady.catchups, hbal.catchups]
    exact List.map_congr_left fun d hd => (hsteady.stays d.1 (hbal.known hd)).symm

theorem notify (hbal : Balanced h l) (ev : Event) :
    Balanced (h.notify ev) (l.enter h (.notify ev)) := by
  unfold Hub.notify Ledger.enter
  by_cases hroom : h.queue.length < notifyCapacity
  · simp only [if_pos hroom]
    exact ⟨hbal.accepted.append (.refl _), by rw [hbal.queue, List.append_assoc], hbal.heard,
      hbal.absent, hbal.order, hbal.kept, hbal.catchups⟩
  · simp only [if_neg hroom]
    exact ⟨hbal.accepted.trans (List.sublist_append_left _ _), hbal.queue, hbal.heard,
      hbal.absent, hbal.order, hbal.kept, hbal.catchups⟩

theorem takeCatchup (hbal : Balanced h l) (hnext : h.takeCatchup = some h') :
    Balanced h' (l.enter h .takeCatchup) := by
  unfold Hub.takeCatchup at hnext
  cases hcatch : h.catchups with
  | nil => simp [hcatch] at hnext
  | cons user rest =>
      simp only [hcatch, Option.some.injEq] at hnext
      subst hnext
      refine ⟨hbal.accepted, hbal.queue, hbal.heard, hbal.absent, hbal.order, hbal.kept, ?_⟩
      have hold := hbal.catchups
      rw [hcatch] at hold
      rw [Ledger.enter, hcatch]
      show (l.begun ++ [user] ++ rest).map some = _
      rw [List.append_assoc]
      exact hold

theorem fanned_take (l : Ledger) (k : Nat) (ev : Event) (targets : List Nat) :
    ({ l with taken := l.taken ++ [(ev, targets)] } : Ledger).fanned k =
      l.fanned k ++ signals (if k ∈ targets then [ev] else []) := by
  unfold Ledger.fanned
  rw [← signals_append]
  by_cases hk : k ∈ targets
  · simp [hk]
  · simp [hk]

theorem takeEvent (hbal : Balanced h l) (hnext : h.takeEvent = some h') :
    Balanced h' (l.enter h .takeEvent) := by
  obtain ⟨ev, rest, hloop, hqueue, rfl⟩ := Hub.takeEvent_cases hnext
  have hout (k : Nat) : ({ h with queue := rest, loop := .sending ev (h.targets ev) } :
      Hub).outflow k = h.outflow k ++ signals (if k ∈ h.targets ev then [ev] else []) := by
    have hidle : h.pending k = [] := by rw [Hub.pending, hloop]
    unfold Hub.outflow
    rw [hidle, List.append_nil, ← signals_append]
    rfl
  rw [Ledger.enter, hqueue]
  refine ⟨hbal.accepted, ?_, fun k c hk t ht hmem => ?_, fun k hk t ht hmem => ?_, fun k => ?_,
    fun k => ?_, hbal.catchups⟩
  · rw [List.map_append, List.append_assoc]
    simpa [hqueue] using hbal.queue
  · obtain ht | ht := List.mem_append.mp ht
    · exact hbal.heard k c hk t ht hmem
    · cases List.mem_singleton.mp ht
      obtain ⟨c', hc', -, hhears⟩ := Hub.mem_targets hmem
      cases hc'.symm.trans hk
      exact hhears
  · obtain ht | ht := List.mem_append.mp ht
    · exact hbal.absent k hk t ht hmem
    · cases List.mem_singleton.mp ht
      obtain ⟨c', hc', -⟩ := Hub.mem_targets hmem
      exact absurd (hc'.symm.trans hk) nofun
  · rw [hout, fanned_take]
    exact (hbal.order k).append (.refl _)
  · rw [hout, fanned_take]
    show (l.fanned k ++ _).Perm (_ ++ l.lost k)
    rw [List.append_assoc]
    refine ((hbal.kept k).append_right _).trans ?_
    rw [List.append_assoc]
    exact (List.perm_append_comm).append_left _

theorem lost_drop (l : Ledger) (k j : Nat) (ev : Event) :
    ({ l with dropped := l.dropped ++ [(k, ev)] } : Ledger).lost j =
      l.lost j ++ signals (if k = j then [ev] else []) := by
  unfold Ledger.lost
  rw [Hub.sentTo_append, signals_append]

theorem drop (hbal : Balanced h l) {k : Nat} {ev : Event} {targets : List Nat} {c : Conn}
    (hloop : h.loop = .sending ev targets) (hc : h.conns[k]? = some c) (hmem : k ∈ targets) :
    Balanced { h.modify k fun c => { c with dropped := c.dropped + 1 } with
        loop := .sending ev (targets.filter fun x => ¬x = k)
        catchups := h.catchups ++ [c.userId] }
      { l with dropped := l.dropped ++ [(k, ev)] } := by
  have hchange := Hub.Steady.change h k (f := fun c => { c with dropped := c.dropped + 1 })
    (fun _ => rfl) (fun _ => rfl) fun _ => rfl
  have hafter := hbal.steady hchange
  have hpending (j : Nat) : h.pending j = (if k = j then [ev] else []) ++
      if j ∈ targets.filter (fun x => ¬x = k) then [ev] else [] := by
    rw [Hub.pending_filter ev targets k j hmem, Hub.pending, hloop]
  have hout (j : Nat) : h.outflow j = signals (h.sentTo j ++ h.buffer j) ++
      signals (if k = j then [ev] else []) ++
        signals (if j ∈ targets.filter (fun x => ¬x = k) then [ev] else []) := by
    rw [Hub.outflow, hpending, ← signals_append, ← signals_append, List.append_assoc,
      List.append_assoc, List.append_assoc]
  have hbuffer (j : Nat) :
      (h.modify k fun c => { c with dropped := c.dropped + 1 }).buffer j = h.buffer j := by
    rw [Hub.buffer_modify]
    by_cases hkj : k = j
    · rw [if_pos hkj]
      rfl
    · rw [if_neg hkj]
  have hout' (j : Nat) : ({ h.modify k fun c => { c with dropped := c.dropped + 1 } with
      loop := .sending ev (targets.filter fun x => ¬x = k)
      catchups := h.catchups ++ [c.userId] } : Hub).outflow j =
      signals (h.sentTo j ++ h.buffer j) ++
        signals (if j ∈ targets.filter (fun x => ¬x = k) then [ev] else []) := by
    rw [← signals_append, ← hbuffer]
    rfl
  refine ⟨hbal.accepted, hbal.queue, hafter.heard, hafter.absent, fun j => ?_, fun j => ?_, ?_⟩
  · rw [hout']
    have hold := hbal.order j
    rw [hout] at hold
    exact ((List.sublist_append_left _ _).append (.refl _)).trans hold
  · rw [hout', lost_drop]
    have hold := hbal.kept j
    rw [hout] at hold
    refine hold.trans ?_
    rw [List.append_assoc, List.append_assoc, List.append_assoc]
    refine List.Perm.append_left _ ?_
    rw [← List.append_assoc _ (l.lost j)]
    exact List.perm_append_comm
  · have hlast : (h.modify k fun c => { c with dropped := c.dropped + 1 }).userOf k =
        some c.userId := by
      rw [hchange.stays k (by simp [hc]), Hub.userOf, hc]
      rfl
    have hold := hafter.catchups
    have hright : (l.dropped ++ [(k, ev)]).map (fun d =>
        (h.modify k fun c => { c with dropped := c.dropped + 1 }).userOf d.1) =
        l.dropped.map (fun d =>
          (h.modify k fun c => { c with dropped := c.dropped + 1 }).userOf d.1) ++
            [some c.userId] := by
      rw [List.map_append]
      simp only [List.map_cons, List.map_nil, hlast]
    show ((l.begun ++ (h.catchups ++ [c.userId])).map some) = (l.dropped ++ [(k, ev)]).map
      fun d => (h.modify k fun c => { c with dropped := c.dropped + 1 }).userOf d.1
    rw [hright, ← hold, ← List.append_assoc, List.map_append]
    rfl

theorem sendOne (hbal : Balanced h l) {k : Nat} (hnext : h.sendOne k = some h') :
    Balanced h' (l.enter h (.sendOne k)) := by
  obtain ⟨hsteady, c, hc, hroom⟩ | ⟨ev, targets, c, hloop, hc, hmem, hroom, rfl⟩ :=
    Hub.sendOne_cases hnext
  · have hsame : l.enter h (.sendOne k) = l := by
      unfold Ledger.enter
      cases hloop : h.loop with
      | idle => rfl
      | closing stale => rfl
      | sending ev targets => simp only [hc, if_pos hroom]
    rw [hsame]
    exact hbal.steady hsteady
  · have hdrop : l.enter h (.sendOne k) = { l with dropped := l.dropped ++ [(k, ev)] } := by
      simp only [Ledger.enter, hloop, hc, if_neg hroom]
    rw [hdrop]
    exact hbal.drop hloop hc hmem

/-- The books balance after every move. -/
theorem step (hbal : Balanced h l) {m : Move} (hnext : h.next m = some h') :
    Balanced h' (l.enter h m) := by
  cases m with
  | notify ev =>
      cases hnext
      exact hbal.notify ev
  | register deviceId userId lastSeen =>
      cases hnext
      exact hbal.steady (Hub.register_steady h deviceId userId lastSeen)
  | start k =>
      cases hnext
      exact hbal.steady (Hub.Steady.change h k (fun _ => rfl) (fun _ => rfl) fun _ => rfl)
  | unregister deviceId k =>
      cases hnext
      exact hbal.steady (Hub.unregister_steady h deviceId k)
  | takeEvent => exact hbal.takeEvent hnext
  | sendOne k => exact hbal.sendOne hnext
  | tick now => exact hbal.steady (Hub.tick_steady hnext)
  | closeOne k => exact hbal.steady (Hub.closeOne_steady hnext)
  | finish => exact hbal.steady (Hub.finish_steady hnext)
  | recv k now => exact hbal.steady (Hub.recv_steady hnext)
  | write k => exact hbal.steady (Hub.write_steady hnext)
  | beat k => exact hbal.steady (Hub.beat_steady hnext)
  | fail k => exact hbal.steady (Hub.fail_steady hnext)
  | takeCatchup => exact hbal.takeCatchup hnext

theorem run {x x' : Audited} {moves : List Move} (hbal : Balanced x.1 x.2)
    (hrun : follow Audited.next x moves = some x') : Balanced x'.1 x'.2 := by
  induction moves generalizing x with
  | nil =>
      rw [follow, Option.some.injEq] at hrun
      rwa [← hrun]
  | cons m moves ih =>
      obtain ⟨x₁, hnext, hrest⟩ := follow_cons hrun
      obtain ⟨h₁, hmove, rfl⟩ := Option.map_eq_some_iff.mp hnext
      exact ih (hbal.step hmove) hrest

/-- What was written to a connection are events it hears, in the order in which
they were put on the queue, each once. -/
theorem sentTo_sublist (hbal : Balanced h l) {k : Nat} {c : Conn} (hc : h.conns[k]? = some c) :
    (signals (h.sentTo k)).Sublist (signals (l.notified.filter c.hears)) := by
  have hsent : (signals (h.sentTo k)).Sublist (h.outflow k) := by
    unfold Hub.outflow
    rw [signals_append, signals_append, List.append_assoc]
    exact List.sublist_append_left _ _
  have hheard : ((l.taken.filter fun t => k ∈ t.2).map Prod.fst).Sublist
      ((l.taken.map Prod.fst).filter c.hears) := by
    rw [List.filter_map]
    refine List.Sublist.map _ ?_
    have hboth : l.taken.filter (fun t => k ∈ t.2) =
        (l.taken.filter (c.hears ∘ Prod.fst)).filter fun t => k ∈ t.2 := by
      rw [List.filter_filter]
      refine List.filter_congr fun t ht => ?_
      by_cases hmem : k ∈ t.2
      · simp [hmem, hbal.heard k c hc t ht hmem]
      · simp [hmem]
    rw [hboth]
    exact List.filter_sublist
  have hnotified : (l.taken.map Prod.fst).Sublist l.notified :=
    (hbal.queue ▸ List.sublist_append_left _ _ : (l.taken.map Prod.fst).Sublist l.accepted).trans
      hbal.accepted
  exact (hsent.trans (hbal.order k)).trans ((hheard.trans (hnotified.filter _)).filter _)

end Balanced

/-! ## The hub of the backend -/

/-- The hub stays as it is or makes a move. -/
def Moves (h h' : Hub) : Prop := h' = h ∨ ∃ m, h.next m = some h'

theorem exec_moves {i : Nat} {c : Srv} {o : Oracle} {w w' : World} {a : c.Ans}
    (hexec : Srv.exec i c o w = some (w', a)) : Moves w.hub w'.hub := by
  cases c with
  | core c =>
      cases c with
      | pg c =>
          simp only [Srv.exec, Core.exec] at hexec
          split at hexec
          · cases hexec
          · cases hexec
            exact .inl rfl
      | rd c =>
          cases hexec
          exact .inl rfl
      | now =>
          cases hexec
          exact .inl rfl
      | rand n =>
          simp only [Srv.exec, Core.exec, Option.ite_none_right_eq_some] at hexec
          cases hexec.2
          exact .inl rfl
      | notify ev =>
          cases hexec
          exact .inr ⟨.notify ev, rfl⟩
  | enter dev user =>
      cases hexec
      exact .inl rfl
  | accept device =>
      cases hexec
      exact .inl rfl
  | register device user lastSeen =>
      cases hexec
      exact .inr ⟨.register device user lastSeen, rfl⟩
  | start k =>
      cases hexec
      exact .inr ⟨.start k, rfl⟩
  | done k =>
      simp only [Srv.exec] at hexec
      split at hexec
      · simp only [Option.ite_none_left_eq_some] at hexec
        cases hexec.2
        exact .inl rfl
      · cases hexec
  | unregister device k =>
      cases hexec
      exact .inr ⟨.unregister device k, rfl⟩
  | takeCatchup =>
      simp only [Srv.exec] at hexec
      cases hcatch : w.hub.catchups with
      | nil => simp [hcatch] at hexec
      | cons user rest =>
          simp only [hcatch, Option.some.injEq, Prod.mk.injEq] at hexec
          refine .inr ⟨.takeCatchup, ?_⟩
          rw [Hub.next, Hub.takeCatchup, hcatch, ← hexec.1]

theorem withHub_moves {w w' : World} {h : Option Hub} {m : Move} (hm : w.hub.next m = h)
    (hstep : w.withHub h = some w') : Moves w.hub w'.hub := by
  obtain ⟨h', rfl, rfl⟩ := Option.map_eq_some_iff.mp hstep
  exact .inr ⟨m, hm⟩

theorem env_moves {e : Env} {w w' : World} (hstep : e.step w = some w') : Moves w.hub w'.hub := by
  cases e with
  | pass d =>
      simp only [Env.step, Option.ite_none_right_eq_some] at hstep
      cases hstep.2
      exact .inl rfl
  | setClock t =>
      cases hstep
      exact .inl rfl
  | passRedis d =>
      simp only [Env.step, Option.ite_none_right_eq_some] at hstep
      cases hstep.2
      exact .inl rfl
  | hubTakeEvent => exact withHub_moves (m := .takeEvent) rfl hstep
  | hubSendOne k => exact withHub_moves (m := .sendOne k) rfl hstep
  | hubTick => exact withHub_moves (m := .tick w.clock) rfl hstep
  | hubCloseOne k => exact withHub_moves (m := .closeOne k) rfl hstep
  | hubFinish => exact withHub_moves (m := .finish) rfl hstep
  | connRecv k => exact withHub_moves (m := .recv k w.clock) rfl hstep
  | connWrite k => exact withHub_moves (m := .write k) rfl hstep
  | connBeat k => exact withHub_moves (m := .beat k) rfl hstep
  | connFail k => exact withHub_moves (m := .fail k) rfl hstep

/-- The hub of the backend makes one move after another, so it has books. -/
theorem backend_audited {S : Api.Server} {c : Config Api.Task World Srv Srv.Ans Api.Outcome}
    (h : (Api.backend S).Reach (fun _ _ => True) Api.boot c) :
    ∃ moves l, follow Audited.next ({}, {}) moves = some (c.world.hub, l) := by
  have hmoved : ∀ {w w' : World}, Moves w.hub w'.hub →
      (∃ moves l, follow Audited.next ({}, {}) moves = some (w.hub, l)) →
      ∃ moves l, follow Audited.next ({}, {}) moves = some (w'.hub, l) := by
    intro w w' hmoves hbooks
    obtain ⟨moves, led, hrun⟩ := hbooks
    obtain heq | ⟨m, hm⟩ := hmoves
    · exact ⟨moves, led, by rw [heq]; exact hrun⟩
    · refine ⟨moves ++ [m], led.enter w.hub m, ?_⟩
      rw [follow_append, hrun, Option.bind_some, follow, Audited.next, hm]
      rfl
  exact System.Reach.keeps
    (I := fun w => ∃ moves l, follow Audited.next ({}, {}) moves = some (w.hub, l))
    (fun hx => hmoved (exec_moves hx)) (fun hx => hmoved (env_moves hx)) h ⟨[], {}, rfl⟩

/-! ## The results -/

namespace FullQueue

def event (computerId : String) : Event where
  userId := "user"
  type := .attentionPending
  payload := .attention computerId "workflow" "approval"

def phone : Conn where
  deviceId := "phone"
  userId := "user"
  lastSeen := 0
  running := true

/-- One connection that has been sent everything, and `n` events on the queue. -/
def hub (n : Nat) (sent : List (Nat × Event)) : Hub where
  conns := [phone]
  byDevice d := if d = "phone" then some 0 else none
  queue := List.replicate n (event "first")
  delivered := sent

def round : List Move := [.takeEvent, .sendOne 0, .finish, .write 0]

end FullQueue

namespace FullQueue

theorem round_sends (n : Nat) (sent : List (Nat × Event)) (l : Ledger) :
    follow Audited.next (hub (n + 1) sent, l) round =
      some (hub n (sent ++ [(0, event "first")]),
        { l with taken := l.taken ++ [(event "first", [0])] }) := by
  rfl

/-- Ledgers of runs in which no catch-up begins. -/
def Reaches (x : Audited) (moves : List Move) (h : Hub) : Prop :=
  ∃ l, follow Audited.next x moves = some (h, l) ∧ l.begun = x.2.begun

theorem fill (n m : Nat) (l : Ledger) (hroom : n + m ≤ notifyCapacity) :
    Reaches (hub n [], l) (List.replicate m (.notify (event "first"))) (hub (n + m) []) := by
  induction m generalizing n l with
  | zero => exact ⟨l, rfl, rfl⟩
  | succ m ih =>
      have hlt : (hub n []).queue.length < notifyCapacity := by
        show (List.replicate n (event "first")).length < notifyCapacity
        rw [List.length_replicate]
        omega
      have hnotify : (hub n []).notify (event "first") = hub (n + 1) [] := by
        rw [Hub.notify, if_pos hlt]
        unfold hub
        rw [List.replicate_succ']
      obtain ⟨l', hrun, hbegun⟩ := ih (n + 1) ((l.enter (hub n []) (.notify (event "first"))))
        (by omega)
      refine ⟨l', ?_, hbegun⟩
      rw [List.replicate_succ, ← Nat.add_assoc, Nat.add_right_comm, ← hrun]
      show (some (((hub n []).notify (event "first")), _)).bind _ = _
      rw [hnotify]
      rfl

theorem drain (n : Nat) (sent : List (Nat × Event)) (l : Ledger) :
    Reaches (hub n sent, l) (List.replicate n round).flatten
      (hub 0 (sent ++ List.replicate n (0, event "first"))) := by
  induction n generalizing sent l with
  | zero => exact ⟨l, by simp [follow], rfl⟩
  | succ n ih =>
      obtain ⟨l', hrun, hbegun⟩ := ih (sent ++ [(0, event "first")])
        { l with taken := l.taken ++ [(event "first", [0])] }
      refine ⟨l', ?_, hbegun⟩
      rw [List.replicate_succ, List.flatten_cons, follow_append, round_sends]
      simpa [List.replicate_succ] using hrun

end FullQueue

end Calcar.Ws
