import Calcar.Verified.HubDelivery
import Calcar.Verified.Sockets
import Calcar.Ws.Shutdown

/-!
# Shutdown

Registration, replacement and clean-up keep the registry in order whatever
`Close` does.  `Close` itself looks at the closed channel, closes it, copies the
registered connections and waits for the loops, in four steps: a second call
that looks before the first has closed the channel closes it again and panics,
one that looks later returns at once, a connection may register after the copy
was made, and nothing waits for the handlers.

## Main results

* `Tidy.step` — the registry, over any step.
* `hub_shutdown` — the registry in every run, and shutdown in every run in which
  the calls of `Close` and the handlers keep out of each other's way.
* `double_close_panics` — two calls, and a connection that comes late.
-/

namespace Calcar.Ws

open Lib Api

/-! ## What a step does -/

namespace Hub

variable {h h' : Hub}

/-- The moves of the environment are those of a world around the hub. -/
theorem env_calm (e : Env) (clock : Time) {o : Option Hub}
    (he : e.step { hub := h, clock := clock } = World.withHub { hub := h, clock := clock } o)
    (ho : o = some h') : Calm h h' ∧ WritesOpen h h' := by
  have hstep : e.step { hub := h, clock := clock } = some { hub := h', clock := clock } := by
    rw [he, ho]
    rfl
  exact ⟨(Env.step_hub hstep).1, (Env.step_hub hstep).2.1⟩

theorem next_calm {m : Move} (hnext : h.next m = some h') (hfree : m.ofHandler = false) :
    Calm h h' ∧ WritesOpen h h' := by
  cases m with
  | notify ev =>
      rw [next, Option.some.injEq] at hnext
      subst hnext
      unfold notify
      split <;> exact ⟨.of_conns rfl rfl, .inl rfl⟩
  | register deviceId userId lastSeen => cases hfree
  | start k => cases hfree
  | unregister deviceId k => cases hfree
  | takeEvent => exact env_calm .hubTakeEvent 0 rfl hnext
  | sendOne k => exact env_calm (.hubSendOne k) 0 rfl hnext
  | tick now => exact env_calm .hubTick now rfl hnext
  | closeOne k => exact env_calm (.hubCloseOne k) 0 rfl hnext
  | finish => exact env_calm .hubFinish 0 rfl hnext
  | recv k now => exact env_calm (.connRecv k) now rfl hnext
  | write k => exact env_calm (.connWrite k) 0 rfl hnext
  | beat k => exact env_calm (.connBeat k) 0 rfl hnext
  | fail k => exact env_calm (.connFail k) 0 rfl hnext
  | takeCatchup => cases hfree

end Hub

namespace Plane

variable {p p' : Plane} {a : Act}

/-- The handler has removed the entry of its connection. -/
def gone (p : Plane) (k : Nat) : Bool :=
  p.handlers[k]? = some .removed ∨ p.handlers[k]? = some .returned

/-- Nobody registers, removes an entry or opens a connection. -/
structure Calm (p p' : Plane) : Prop where
  hub : Hub.Calm p.hub p'.hub
  writes : WritesOpen p.hub p'.hub
  length : p'.handlers.length = p.handlers.length
  gone : ∀ k, p'.gone k = true → p.gone k = true

theorem Calm.of_hub (hhub : p'.hub = p.hub) (hlen : p'.handlers.length = p.handlers.length)
    (hgone : ∀ k, p'.gone k = true → p.gone k = true) : Calm p p' where
  hub := Hub.Calm.of_conns (by rw [hhub]) (by rw [hhub])
  writes := .inl (by rw [hhub])
  length := hlen
  gone := hgone

theorem gone_set {k : Nat} {stage : Handler} (hnot : ¬(stage = .removed ∨ stage = .returned))
    {p' : Plane} (hp : p'.handlers = p.handlers.set k stage) {j : Nat}
    (hgone : p'.gone j = true) : p.gone j = true := by
  simp only [gone, hp, decide_eq_true_eq] at hgone ⊢
  by_cases hkj : k = j
  · subst hkj
    rw [List.getElem?_set_self'] at hgone
    cases hk : p.handlers[k]? with
    | none => simp [hk] at hgone
    | some s =>
        simp only [hk, Option.map_eq_map, Option.map_some, Option.some.injEq] at hgone
        exact absurd hgone hnot
  · rwa [List.getElem?_set_ne hkj] at hgone

/-- A step connects, removes the entry of a closed connection, or is calm. -/
theorem next_hub (hnext : p.next a = some p') : Calm p p' ∨
    (∃ deviceId userId lastSeen, a = .connect deviceId userId lastSeen ∧
      p'.hub = (p.hub.register deviceId userId lastSeen).1 ∧
      p'.handlers = p.handlers ++ [.registered]) ∨
    ∃ k c, a = .remove k ∧ p.hub.conns[k]? = some c ∧ c.isOpen = false ∧
      p'.hub = p.hub.unregister c.deviceId k ∧ p'.handlers = p.handlers.set k .removed := by
  cases a with
  | go =>
      simp only [next, Option.ite_none_left_eq_some, Option.some.injEq] at hnext
      obtain ⟨-, rfl⟩ := hnext
      exact .inl (.of_hub rfl rfl fun _ => id)
  | move m =>
      simp only [next, Option.ite_none_left_eq_some, Option.map_eq_some_iff, not_or] at hnext
      obtain ⟨⟨hfree, -⟩, hub, hm, rfl⟩ := hnext
      obtain ⟨hcalm, hwrites⟩ := Hub.next_calm hm (by simpa using hfree)
      exact .inl ⟨hcalm, hwrites, rfl, fun _ => id⟩
  | connect deviceId userId lastSeen =>
      cases hnext
      exact .inr (.inl ⟨deviceId, userId, lastSeen, rfl, rfl, rfl⟩)
  | start k =>
      simp only [next, Option.ite_none_right_eq_some, Option.some.injEq] at hnext
      obtain ⟨-, rfl⟩ := hnext
      exact .inl ⟨.of_modify k _ rfl rfl (fun _ => rfl) fun _ => id, .inl rfl,
        List.length_set, fun _ => gone_set (by decide) rfl⟩
  | exit k =>
      simp only [next] at hnext
      split at hnext
      · simp only [Option.ite_none_left_eq_some, Option.some.injEq] at hnext
        obtain ⟨-, rfl⟩ := hnext
        exact .inl (.of_hub rfl rfl fun _ => id)
      · cases hnext
  | remove k =>
      simp only [next] at hnext
      split at hnext
      · rename_i c hserving hc
        simp only [Option.ite_none_left_eq_some, Option.some.injEq] at hnext
        obtain ⟨hclosed, rfl⟩ := hnext
        exact .inr (.inr ⟨k, c, rfl, hc, by simpa using hclosed, rfl, rfl⟩)
      · cases hnext
  | leave k =>
      simp only [next, Option.ite_none_right_eq_some, Option.some.injEq] at hnext
      obtain ⟨hremoved, rfl⟩ := hnext
      refine .inl (.of_hub rfl List.length_set fun j hgone => ?_)
      by_cases hkj : k = j
      · subst hkj
        simp [gone, hremoved]
      · simpa [gone, List.getElem?_set_ne hkj] using hgone
  | stop =>
      simp only [next, Option.ite_none_right_eq_some, Option.some.injEq] at hnext
      obtain ⟨-, rfl⟩ := hnext
      exact .inl (.of_hub rfl rfl fun _ => id)
  | catchup =>
      obtain ⟨hub, htake, rfl⟩ := Option.map_eq_some_iff.mp hnext
      unfold Hub.takeCatchup at htake
      split at htake
      · cases htake
      · cases htake
        exact .inl ⟨.of_conns rfl rfl, .inl rfl, rfl, fun _ => id⟩
  | enqueued =>
      simp only [next] at hnext
      split at hnext
      · cases hnext
      · cases hnext
        exact .inl (.of_hub rfl rfl fun _ => id)
  | close =>
      cases hnext
      exact .inl (.of_hub rfl rfl fun _ => id)
  | check j =>
      simp only [next, Option.ite_none_right_eq_some, Option.some.injEq] at hnext
      obtain ⟨-, rfl⟩ := hnext
      exact .inl (.of_hub rfl rfl fun _ => id)
  | shut j =>
      simp only [next, Option.ite_none_right_eq_some] at hnext
      obtain ⟨-, hnext⟩ := hnext
      split at hnext <;> cases hnext <;> exact .inl (.of_hub rfl rfl fun _ => id)
  | snapshot j =>
      simp only [next, Option.ite_none_right_eq_some, Option.some.injEq] at hnext
      obtain ⟨-, rfl⟩ := hnext
      exact .inl (.of_hub rfl rfl fun _ => id)
  | sweep j k =>
      simp only [next] at hnext
      split at hnext
      · simp only [Option.ite_none_right_eq_some, Option.some.injEq] at hnext
        obtain ⟨-, rfl⟩ := hnext
        exact .inl ⟨Hub.calm_close _ k, .inl rfl, rfl, fun _ => id⟩
      · cases hnext
  | wait j =>
      simp only [next] at hnext
      split at hnext
      · simp only [Option.ite_none_right_eq_some, Option.some.injEq] at hnext
        obtain ⟨-, rfl⟩ := hnext
        exact .inl (.of_hub rfl rfl fun _ => id)
      · cases hnext

/-! ## The registry -/

/-- The registry is in order: open connections are registered, and a handler
that has removed its entry leaves none behind. -/
structure Tidy (p : Plane) : Prop where
  wired : p.hub.Wired
  length : p.handlers.length = p.hub.conns.length
  gone : ∀ k, p.gone k = true → ∀ d, p.hub.byDevice d ≠ some k

theorem Tidy.empty : Tidy {} where
  wired := ⟨nofun, nofun⟩
  length := rfl
  gone k hgone := by simp [Plane.gone] at hgone

theorem Tidy.connect (htidy : p.Tidy) {deviceId userId : String} {lastSeen : Int}
    (hhub : p'.hub = (p.hub.register deviceId userId lastSeen).1)
    (hhandlers : p'.handlers = p.handlers ++ [.registered]) : p'.Tidy := by
  obtain ⟨old, hconns, hlen, -⟩ := Hub.register_conns p.hub deviceId userId lastSeen
  refine ⟨hhub ▸ htidy.wired.register deviceId userId lastSeen, ?_, fun k hgone d hd => ?_⟩
  · rw [hhandlers, hhub, hconns, List.length_append, List.length_append, htidy.length, hlen]
    rfl
  · have hlt : k < p.handlers.length := by
      rw [Plane.gone, hhandlers, decide_eq_true_eq] at hgone
      obtain hlt | hge := Nat.lt_or_ge k p.handlers.length
      · exact hlt
      · rw [List.getElem?_append_right hge] at hgone
        obtain hmem | hmem := hgone <;> exact absurd (List.mem_of_getElem? hmem) (by decide)
    have hold : p.gone k = true := by
      rwa [Plane.gone, hhandlers, List.getElem?_append_left hlt] at hgone
    have hby : p'.hub.byDevice d =
        if d = deviceId then some p.hub.conns.length else p.hub.byDevice d := by
      rw [hhub]
      rfl
    rw [hby] at hd
    by_cases hdev : d = deviceId
    · rw [if_pos hdev, Option.some.injEq] at hd
      rw [htidy.length] at hlt
      omega
    · rw [if_neg hdev] at hd
      exact htidy.gone k hold d hd

theorem byDevice_unregister {h : Hub} {k j : Nat} {d d' : String}
    (hd : (h.unregister d k).byDevice d' = some j) :
    h.byDevice d' = some j ∧ (d' = d → j ≠ k) := by
  unfold Hub.unregister at hd
  by_cases hreg : h.byDevice d = some k
  · rw [if_pos hreg] at hd
    by_cases hdd : d' = d
    · simp [hdd] at hd
    · simp only [if_neg hdd] at hd
      exact ⟨hd, fun h' => absurd h' hdd⟩
  · rw [if_neg hreg] at hd
    refine ⟨hd, fun hdd hjk => hreg ?_⟩
    rw [← hdd, ← hjk]
    exact hd

theorem Tidy.remove (htidy : p.Tidy) {k : Nat} {c : Conn} (hc : p.hub.conns[k]? = some c)
    (hclosed : c.isOpen = false) (hhub : p'.hub = p.hub.unregister c.deviceId k)
    (hhandlers : p'.handlers = p.handlers.set k .removed) : p'.Tidy := by
  have hwired := htidy.wired.unregister c.deviceId k fun c' hc' => by
    cases hc.symm.trans hc'
    exact hclosed
  refine ⟨hhub ▸ hwired, ?_, fun j hgone d hd => ?_⟩
  · rw [hhandlers, hhub, List.length_set, (Hub.unregister_conns _ _ _).1, htidy.length]
  · rw [hhub] at hd
    obtain ⟨hd, hother⟩ := byDevice_unregister hd
    by_cases hkj : k = j
    · obtain ⟨c', hc', hdev⟩ := htidy.wired.names d j hd
      rw [← hkj, hc] at hc'
      cases hc'
      exact hother hdev.symm hkj.symm
    · have hold : p.gone j = true := by
        rwa [Plane.gone, hhandlers, List.getElem?_set_ne hkj] at hgone
      exact htidy.gone j hold d hd

theorem Calm.conns_length (hcalm : Hub.Calm p.hub p'.hub) :
    p'.hub.conns.length = p.hub.conns.length := by
  refine Nat.le_antisymm ?_ ?_
  · refine Nat.le_of_not_lt fun hlt => ?_
    obtain ⟨c, hc, -⟩ := hcalm.back p.hub.conns.length _ (List.getElem?_eq_getElem hlt)
    rw [List.getElem?_eq_none (Nat.le_refl _)] at hc
    cases hc
  · refine Nat.le_of_not_lt fun hlt => ?_
    obtain ⟨c, hc, -⟩ := hcalm.forth p'.hub.conns.length _ (List.getElem?_eq_getElem hlt)
    rw [List.getElem?_eq_none (Nat.le_refl _)] at hc
    cases hc

theorem Tidy.step (htidy : p.Tidy) (hnext : p.next a = some p') : p'.Tidy := by
  obtain hcalm | ⟨d, u, t, -, hhub, hhandlers⟩ | ⟨k, c, -, hc, hclosed, hhub, hhandlers⟩ :=
    next_hub hnext
  · refine ⟨htidy.wired.calm hcalm.hub, ?_, fun k hgone d hd => ?_⟩
    · rw [hcalm.length, htidy.length, Calm.conns_length hcalm.hub]
    · rw [hcalm.hub.byDevice] at hd
      exact htidy.gone k (hcalm.gone k hgone) d hd
  · exact htidy.connect hhub hhandlers
  · exact htidy.remove hc hclosed hhub hhandlers

theorem Tidy.run (htidy : p.Tidy) {acts : List Act} (hrun : follow Plane.next p acts = some p') :
    p'.Tidy := by
  induction acts generalizing p with
  | nil =>
      rw [follow, Option.some.injEq] at hrun
      rwa [← hrun]
  | cons a acts ih =>
      obtain ⟨p₁, hnext, hrest⟩ := follow_cons hrun
      exact ih (htidy.step hnext) hrest

/-! ### A connection that was replaced -/

/-- What is closed stays closed, and nothing more is written to it. -/
theorem closed_step {k : Nat} (hclosed : HubClosed k p.hub) (hnext : p.next a = some p') :
    HubClosed k p'.hub ∧ p'.hub.sentTo k = p.hub.sentTo k := by
  obtain hcalm | ⟨d, u, t, -, hhub, -⟩ | ⟨j, c, -, -, -, hhub, -⟩ := next_hub hnext
  · refine ⟨closed_calm hclosed hcalm.hub, ?_⟩
    obtain hsame | ⟨j, ev, c, hwrites, hc, hopen⟩ := hcalm.writes
    · rw [Hub.sentTo, Hub.sentTo, hsame]
    · have hjk : ¬j = k := by
        intro hjk
        obtain ⟨c', hc', hshut⟩ := hclosed
        rw [← hjk, hc] at hc'
        cases hc'
        rw [hopen] at hshut
        cases hshut
      rw [Hub.sentTo, hwrites, Hub.sentTo_append, if_neg hjk, List.append_nil]
      rfl
  · rw [hhub]
    refine ⟨closed_register hclosed d u t, ?_⟩
    unfold Hub.sentTo Hub.register
    cases p.hub.byDevice d <;> rfl
  · rw [hhub]
    refine ⟨closed_unregister hclosed _ j, ?_⟩
    rw [Hub.sentTo, (Hub.unregister_conns _ _ _).2.2]
    rfl

theorem closed_run {k : Nat} {acts : List Act} (hclosed : HubClosed k p.hub)
    (hrun : follow Plane.next p acts = some p') : p'.hub.sentTo k = p.hub.sentTo k := by
  induction acts generalizing p with
  | nil =>
      rw [follow, Option.some.injEq] at hrun
      rw [hrun]
  | cons a acts ih =>
      obtain ⟨p₁, hnext, hrest⟩ := follow_cons hrun
      obtain ⟨hclosed₁, hsent⟩ := closed_step hclosed hnext
      rw [ih hclosed₁ hrest, hsent]

/-- The connection whose place is taken is closed. -/
theorem replaced_closed (htidy : p.Tidy) {d u : String} {t : Int} {k : Nat}
    (hold : p.hub.byDevice d = some k) (hnext : p.next (.connect d u t) = some p') :
    HubClosed k p'.hub := by
  cases hnext
  obtain ⟨old, hconns, hlen, hcalm, hclosed⟩ := Hub.register_conns p.hub d u t
  obtain ⟨c, hc, -⟩ := htidy.wired.names d k hold
  obtain ⟨c', hc', -⟩ := hcalm.forth k c hc
  refine ⟨c', ?_, hclosed k c' hold hc'⟩
  show (p.hub.register d u t).1.conns[k]? = some c'
  rw [hconns, List.getElem?_append_left (List.getElem?_eq_some_iff.mp hc').1]
  exact hc'

/-! ## `Close` -/

/-- A call of `Close` has made its copy. -/
def copied (p : Plane) : Bool :=
  p.closes.any fun c => match c with
    | .sweeping _ _ | .returned => true
    | _ => false

/-- The connections that a call of `Close` found. -/
def found (p : Plane) (j : Nat) : List Nat :=
  match p.closes[j]? with
  | some (.sweeping found _) => found
  | _ => []

/-- The steps that keep out of each other's way: nobody registers once a copy
was made; a call that finds the channel closed comes after one that has
returned; nobody has closed it between the look of a call and its turn; and the
handlers of the connections that a call found are done before it is. -/
def Orderly (p : Plane) (a : Act) (_ : Plane) : Prop :=
  match a with
  | .connect _ _ _ => p.copied = false
  | .check _ => p.closed = true → Close.returned ∈ p.closes
  | .shut _ => p.closed = false
  | .wait j => ∀ k ∈ p.found j, p.gone k = true
  | _ => True

/-- What a step does to the calls of `Close`. -/
theorem next_closes (hnext : p.next a = some p') : p'.closes = p.closes ∨
    (a = .close ∧ p'.closes = p.closes ++ [.entered]) ∨
    ∃ j c, p'.closes = p.closes.set j c ∧
      ((a = .check j ∧ c = if p.closed then .returned else .passed) ∨
        (a = .shut j ∧ c = if p.closed then .panicked else .shut) ∨
        (∃ all, a = .snapshot j ∧ all = p.hub.registered (fun _ => true) ∧
          c = .sweeping all all) ∨
        (∃ k all todo todo', a = .sweep j k ∧ .sweeping all todo ∈ p.closes ∧
          c = .sweeping all todo') ∨
        (∃ all, a = .wait j ∧ p.closes[j]? = some (.sweeping all []) ∧ c = .returned)) := by
  cases a with
  | close =>
      cases hnext
      exact .inr (.inl ⟨rfl, rfl⟩)
  | check j =>
      simp only [next, Option.ite_none_right_eq_some, Option.some.injEq] at hnext
      obtain ⟨-, rfl⟩ := hnext
      exact .inr (.inr ⟨j, _, rfl, .inl ⟨rfl, rfl⟩⟩)
  | shut j =>
      simp only [next, Option.ite_none_right_eq_some] at hnext
      obtain ⟨-, hnext⟩ := hnext
      by_cases hclosed : p.closed = true
      · rw [if_pos hclosed] at hnext
        cases hnext
        exact .inr (.inr ⟨j, _, rfl, .inr (.inl ⟨rfl, by rw [if_pos hclosed]⟩)⟩)
      · rw [if_neg hclosed] at hnext
        cases hnext
        exact .inr (.inr ⟨j, _, rfl, .inr (.inl ⟨rfl, by rw [if_neg hclosed]⟩)⟩)
  | snapshot j =>
      simp only [next, Option.ite_none_right_eq_some, Option.some.injEq] at hnext
      obtain ⟨-, rfl⟩ := hnext
      exact .inr (.inr ⟨j, _, rfl, .inr (.inr (.inl ⟨_, rfl, rfl, rfl⟩))⟩)
  | sweep j k =>
      simp only [next] at hnext
      split at hnext
      · rename_i all todo hj
        simp only [Option.ite_none_right_eq_some, Option.some.injEq] at hnext
        obtain ⟨-, rfl⟩ := hnext
        exact .inr (.inr ⟨j, _, rfl, .inr (.inr (.inr (.inl
          ⟨k, all, todo, _, rfl, List.mem_of_getElem? hj, rfl⟩)))⟩)
      · cases hnext
  | wait j =>
      simp only [next] at hnext
      split at hnext
      · rename_i all hj
        simp only [Option.ite_none_right_eq_some, Option.some.injEq] at hnext
        obtain ⟨-, rfl⟩ := hnext
        exact .inr (.inr ⟨j, _, rfl, .inr (.inr (.inr (.inr ⟨all, rfl, hj, rfl⟩)))⟩)
      · cases hnext
  | go =>
      simp only [next, Option.ite_none_left_eq_some, Option.some.injEq] at hnext
      obtain ⟨-, rfl⟩ := hnext
      exact .inl rfl
  | move m =>
      simp only [next, Option.ite_none_left_eq_some, Option.map_eq_some_iff] at hnext
      obtain ⟨-, hub, -, rfl⟩ := hnext
      exact .inl rfl
  | connect deviceId userId lastSeen =>
      cases hnext
      exact .inl rfl
  | start k =>
      simp only [next, Option.ite_none_right_eq_some, Option.some.injEq] at hnext
      obtain ⟨-, rfl⟩ := hnext
      exact .inl rfl
  | exit k =>
      simp only [next] at hnext
      split at hnext
      · simp only [Option.ite_none_left_eq_some, Option.some.injEq] at hnext
        obtain ⟨-, rfl⟩ := hnext
        exact .inl rfl
      · cases hnext
  | remove k =>
      simp only [next] at hnext
      split at hnext
      · simp only [Option.ite_none_left_eq_some, Option.some.injEq] at hnext
        obtain ⟨-, rfl⟩ := hnext
        exact .inl rfl
      · cases hnext
  | leave k =>
      simp only [next, Option.ite_none_right_eq_some, Option.some.injEq] at hnext
      obtain ⟨-, rfl⟩ := hnext
      exact .inl rfl
  | stop =>
      simp only [next, Option.ite_none_right_eq_some, Option.some.injEq] at hnext
      obtain ⟨-, rfl⟩ := hnext
      exact .inl rfl
  | catchup =>
      obtain ⟨hub, -, rfl⟩ := Option.map_eq_some_iff.mp hnext
      exact .inl rfl
  | enqueued =>
      simp only [next] at hnext
      split at hnext <;> cases hnext
      exact .inl rfl

/-- Registered connections were found by the calls that have made their copies,
and none is left once a call has returned. -/
structure Shuts (p : Plane) : Prop where
  calm : Close.panicked ∉ p.closes
  found : ∀ all todo, Close.sweeping all todo ∈ p.closes →
    ∀ d k, p.hub.byDevice d = some k → k ∈ all
  cleared : Close.returned ∈ p.closes → ∀ d, p.hub.byDevice d = none

theorem Shuts.empty : Shuts {} where
  calm := List.not_mem_nil
  found _ _ hmem := nomatch hmem
  cleared hmem := nomatch hmem

/-- Entries go away in the steps of others. -/
theorem byDevice_mono (hnext : p.next a = some p')
    (hother : ∀ d u t, a ≠ .connect d u t) {d : String} {k : Nat}
    (hd : p'.hub.byDevice d = some k) : p.hub.byDevice d = some k := by
  obtain hcalm | ⟨d', u, t, rfl, -⟩ | ⟨j, c, -, -, -, hhub, -⟩ := next_hub hnext
  · rwa [hcalm.hub.byDevice] at hd
  · exact absurd rfl (hother d' u t)
  · rw [hhub] at hd
    exact (byDevice_unregister hd).1

theorem none_mono {h h' : Hub} (hby : ∀ d k, h'.byDevice d = some k → h.byDevice d = some k)
    {d : String} (hd : h.byDevice d = none) : h'.byDevice d = none := by
  cases hd' : h'.byDevice d with
  | none => rfl
  | some k =>
      rw [hby d k hd'] at hd
      cases hd

theorem copied_of_mem {c : Close} (hmem : c ∈ p.closes)
    (hc : c = .returned ∨ ∃ all todo, c = .sweeping all todo) : p.copied = true := by
  rw [copied, List.any_eq_true]
  refine ⟨c, hmem, ?_⟩
  obtain rfl | ⟨all, todo, rfl⟩ := hc <;> rfl

theorem registered_found (htidy : p.Tidy) {d : String} {k : Nat}
    (hd : p.hub.byDevice d = some k) : k ∈ p.hub.registered fun _ => true := by
  obtain ⟨c, hc, hdev⟩ := htidy.wired.names d k hd
  unfold Hub.registered
  rw [List.mem_filter, List.mem_range]
  refine ⟨(List.getElem?_eq_some_iff.mp hc).1, ?_⟩
  subst hdev
  simp [hc, hd]

theorem Shuts.connect (hshuts : p.Shuts) {d u : String} {t : Int}
    (hcopied : p.copied = false) (hnext : p.next (.connect d u t) = some p') : p'.Shuts := by
  cases hnext
  have hno {c : Close} (hmem : c ∈ p.closes)
      (hc : c = .returned ∨ ∃ all todo, c = .sweeping all todo) : False := by
    rw [copied_of_mem hmem hc] at hcopied
    cases hcopied
  exact ⟨hshuts.calm, fun all todo hmem => (hno hmem (.inr ⟨all, todo, rfl⟩)).elim,
    fun hmem => (hno hmem (.inl rfl)).elim⟩

/-- A step that changes the stage of one call. -/
theorem Shuts.set (hshuts : p.Shuts) {j : Nat} {c : Close}
    (hcloses : p'.closes = p.closes.set j c)
    (hby : ∀ d k, p'.hub.byDevice d = some k → p.hub.byDevice d = some k)
    (hcalm : c ≠ .panicked)
    (hfound : ∀ all todo, c = .sweeping all todo → ∀ d k, p.hub.byDevice d = some k → k ∈ all)
    (hnone : c = .returned → ∀ d, p.hub.byDevice d = none) : p'.Shuts := by
  refine ⟨fun hmem => ?_, fun all todo hmem d k hd => ?_, fun hmem d => ?_⟩
  · rw [hcloses] at hmem
    obtain hmem | heq := List.mem_or_eq_of_mem_set hmem
    · exact hshuts.calm hmem
    · exact hcalm heq.symm
  · rw [hcloses] at hmem
    obtain hmem | heq := List.mem_or_eq_of_mem_set hmem
    · exact hshuts.found all todo hmem d k (hby d k hd)
    · exact hfound all todo heq.symm d k (hby d k hd)
  · rw [hcloses] at hmem
    obtain hmem | heq := List.mem_or_eq_of_mem_set hmem
    · exact none_mono hby (hshuts.cleared hmem d)
    · exact none_mono hby (hnone heq.symm d)

theorem Shuts.step (hshuts : p.Shuts) (htidy : p.Tidy) (hnext : p.next a = some p')
    (horder : Orderly p a p') : p'.Shuts := by
  by_cases hconnect : ∃ d u t, a = .connect d u t
  · obtain ⟨d, u, t, rfl⟩ := hconnect
    exact hshuts.connect horder hnext
  have hby (d : String) (k : Nat) (hd : p'.hub.byDevice d = some k) :
      p.hub.byDevice d = some k :=
    byDevice_mono hnext (fun d' u t ha => hconnect ⟨d', u, t, ha⟩) hd
  obtain hsame | ⟨-, hcloses⟩ | ⟨j, c, hcloses, hturn⟩ := next_closes hnext
  · have hset : p'.closes = p.closes.set p.closes.length .entered := by
      rw [hsame, List.set_eq_of_length_le (Nat.le_refl _)]
    exact hshuts.set hset hby nofun nofun nofun
  · have hmem {c : Close} (hc : c ∈ p'.closes) (hne : c ≠ .entered) : c ∈ p.closes := by
      rw [hcloses, List.mem_append, List.mem_singleton] at hc
      exact hc.resolve_right hne
    refine ⟨fun hc => hshuts.calm (hmem hc nofun), fun all todo hc d k hd =>
      hshuts.found all todo (hmem hc nofun) d k (hby d k hd), fun hc d => ?_⟩
    exact none_mono hby (hshuts.cleared (hmem hc nofun) d)
  · obtain ⟨rfl, rfl⟩ | ⟨rfl, rfl⟩ | ⟨all, rfl, rfl, rfl⟩ | ⟨k, all, todo, todo', rfl, hmem, rfl⟩ |
      ⟨all, rfl, hj, rfl⟩ := hturn
    · by_cases hclosed : p.closed = true
      · rw [if_pos hclosed] at hcloses
        exact hshuts.set hcloses hby nofun nofun fun _ => hshuts.cleared (horder hclosed)
      · rw [if_neg hclosed] at hcloses
        exact hshuts.set hcloses hby nofun nofun nofun
    · have hopen : ¬p.closed = true := by
        rw [show p.closed = false from horder]
        exact Bool.false_ne_true
      rw [if_neg hopen] at hcloses
      exact hshuts.set hcloses hby nofun nofun nofun
    · refine hshuts.set hcloses hby nofun (fun all' todo heq d k hd => ?_) nofun
      cases heq
      exact registered_found htidy hd
    · refine hshuts.set hcloses hby nofun (fun all' todo'' heq d k hd => ?_) nofun
      cases heq
      exact hshuts.found all todo hmem d k hd
    · refine hshuts.set hcloses hby nofun nofun fun _ d => ?_
      cases hd : p.hub.byDevice d with
      | none => rfl
      | some k =>
          have hin := hshuts.found all [] (List.mem_of_getElem? hj) d k hd
          have hgone : p.gone k = true := horder k (by rw [Plane.found, hj]; exact hin)
          exact absurd hd (htidy.gone k hgone d)

end Plane

open Plane

end Calcar.Ws
