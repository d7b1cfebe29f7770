import Calcar.Ws.Conns

/-!
# Open connections are registered

The hub closes a connection before it forgets it: a new one of the same
device takes the place of the old one only after closing it, and a handler
removes its entry only when its connection is closed.  So every open
connection is the one registered for its device, and a liveness check that
goes through the registered connections goes through all the open ones.

## Main results

* `Wired.calm`, `Wired.register`, `Wired.unregister` — the invariant.
* `Draining.calm`, `Shut.of_draining` — after a liveness check that found
  every open connection of a device silent, the device has none.
-/

namespace Calcar.Ws

namespace Hub

/-- Every open connection is the one its device is registered with. -/
structure Wired (h : Hub) : Prop where
  own : ∀ (k : Nat) (c : Conn), h.conns[k]? = some c → c.isOpen = true → h.byDevice c.deviceId = some k
  names : ∀ d (k : Nat), h.byDevice d = some k → ∃ c : Conn, h.conns[k]? = some c ∧ c.deviceId = d

/-- Nothing is registered or removed, and no connection is opened. -/
structure Calm (h h' : Hub) : Prop where
  byDevice : h'.byDevice = h.byDevice
  back : ∀ (k : Nat) (c' : Conn), h'.conns[k]? = some c' → ∃ c : Conn, h.conns[k]? = some c ∧
    c'.deviceId = c.deviceId ∧ (c'.isOpen = true → c.isOpen = true)
  forth : ∀ (k : Nat) (c : Conn), h.conns[k]? = some c →
    ∃ c' : Conn, h'.conns[k]? = some c' ∧ c'.deviceId = c.deviceId

variable {h h' : Hub}

theorem Calm.of_conns (hb : h'.byDevice = h.byDevice) (hc : h'.conns = h.conns) :
    Calm h h' := by
  constructor
  · exact hb
  · intro k c' hk
    rw [hc] at hk
    exact ⟨c', hk, rfl, id⟩
  · intro k c hk
    rw [← hc] at hk
    exact ⟨c, hk, rfl⟩

/-- Changing one connection without opening it is calm. -/
theorem Calm.of_modify (k : Nat) (f : Conn → Conn) (hb : h'.byDevice = h.byDevice)
    (hc : h'.conns = h.conns.modify k f) (hdev : ∀ c, (f c).deviceId = c.deviceId)
    (hopen : ∀ c, (f c).isOpen = true → c.isOpen = true) : Calm h h' := by
  constructor
  · exact hb
  · intro j c' hj
    rw [hc, List.getElem?_modify] at hj
    obtain ⟨c, hcj, he⟩ := Option.map_eq_some_iff.mp hj
    refine ⟨c, hcj, ?_⟩
    by_cases hjk : k = j
    · simp only [hjk, if_true] at he
      rw [← he]
      exact ⟨hdev c, hopen c⟩
    · simp only [hjk, if_false] at he
      rw [← he]
      exact ⟨rfl, id⟩
  · intro j c hj
    refine ⟨(if k = j then f c else c), ?_, ?_⟩
    · rw [hc, List.getElem?_modify, hj]
      rfl
    · split
      · exact hdev c
      · rfl

theorem calm_close (h : Hub) (k : Nat) : Calm h (h.close k) :=
  Calm.of_modify k _ rfl rfl (fun _ => rfl) (fun _ ho => by cases ho)

/-- A connection that was closed is closed. -/
theorem closed_close {k : Nat} {c : Conn} (hk : (h.close k).conns[k]? = some c) :
    c.isOpen = false := by
  have hk' : (h.conns.modify k fun c => { c with isOpen := false })[k]? = some c := hk
  rw [List.getElem?_modify_eq] at hk'
  obtain ⟨c', _, he⟩ := Option.map_eq_some_iff.mp hk'
  rw [← he]

/-! ## The invariant -/

theorem Wired.calm (hw : Wired h) (hc : Calm h h') : Wired h' := by
  constructor
  · intro k c' hk ho
    obtain ⟨c, hcon, hdev, hopen⟩ := hc.back k c' hk
    rw [hc.byDevice, hdev]
    exact hw.own k c hcon (hopen ho)
  · intro d k hd
    rw [hc.byDevice] at hd
    obtain ⟨c, hcon, hdev⟩ := hw.names d k hd
    obtain ⟨c', hcon', hdev'⟩ := hc.forth k c hcon
    exact ⟨c', hcon', hdev'.trans hdev⟩

/-- What a registration does to the other connections: the one it replaces
is closed. -/
theorem register_conns (h : Hub) (d u : String) (t : Int) :
    ∃ old : Hub, (h.register d u t).1.conns =
        old.conns ++ [{ deviceId := d, userId := u, lastSeen := t }] ∧
      old.conns.length = h.conns.length ∧ Calm h old ∧
      ∀ (k : Nat) (c : Conn), h.byDevice d = some k → old.conns[k]? = some c → c.isOpen = false := by
  unfold register
  cases hb : h.byDevice d with
  | none => exact ⟨h, rfl, rfl, Calm.of_conns rfl rfl, nofun⟩
  | some k =>
      refine ⟨h.close k, rfl, by simp [close, modify], calm_close h k, ?_⟩
      intro k' c hk hc
      obtain rfl := Option.some.inj hk
      exact closed_close hc

theorem Wired.register (hw : Wired h) (d u : String) (t : Int) :
    Wired (h.register d u t).1 := by
  obtain ⟨old, hconns, hlen, hcalm, hclosed⟩ := register_conns h d u t
  have hby : (h.register d u t).1.byDevice =
      fun d' => if d' = d then some h.conns.length else h.byDevice d' := rfl
  have hnew : ∀ k, k < h.conns.length →
      (h.register d u t).1.conns[k]? = old.conns[k]? := by
    intro k hk
    rw [hconns, List.getElem?_append_left (by omega)]
  have hlast : (h.register d u t).1.conns[h.conns.length]? =
      some { deviceId := d, userId := u, lastSeen := t } := by
    rw [hconns, ← hlen, List.getElem?_concat_length]
  constructor
  · intro k c hk ho
    have hlt : k < h.conns.length + 1 := by
      have := (List.getElem?_eq_some_iff.mp hk).1
      rw [hconns, List.length_append, List.length_singleton, hlen] at this
      exact this
    by_cases hkl : k = h.conns.length
    · rw [hkl, hlast] at hk
      rw [← Option.some.inj hk, hby]
      simp [hkl]
    · rw [hnew k (by omega)] at hk
      obtain ⟨c₀, hc₀, hdev, hopen⟩ := hcalm.back k c hk
      have hown := hw.own k c₀ hc₀ (hopen ho)
      rw [hby, hdev]
      by_cases hd : c₀.deviceId = d
      · -- the connection that was registered is closed now
        rw [hd] at hown
        rw [hclosed k c hown hk] at ho
        cases ho
      · simp only [hd, if_false]
        exact hown
  · intro d' k hd
    rw [hby] at hd
    by_cases hdd : d' = d
    · simp only [hdd, if_true] at hd
      rw [← Option.some.inj hd]
      exact ⟨_, hlast, hdd.symm⟩
    · simp only [hdd, if_false] at hd
      obtain ⟨c, hc, hdev⟩ := hw.names d' k hd
      obtain ⟨c', hc', hdev'⟩ := hcalm.forth k c hc
      refine ⟨c', ?_, hdev'.trans hdev⟩
      rw [hnew k (List.getElem?_eq_some_iff.mp hc).1]
      exact hc'

/-- A handler that removes its own entry after its connection was closed. -/
theorem Wired.unregister (hw : Wired h) (d : String) (k : Nat)
    (hk : ∀ c : Conn, h.conns[k]? = some c → c.isOpen = false) : Wired (h.unregister d k) := by
  unfold Hub.unregister
  split
  · rename_i hreg
    constructor
    · intro j c hj ho
      have hown : h.byDevice c.deviceId = some j := hw.own j c hj ho
      by_cases hd : c.deviceId = d
      · rw [hd, hreg] at hown
        rw [← Option.some.inj hown] at hj
        rw [hk c hj] at ho
        cases ho
      · simp only [hd, if_false]
        exact hown
    · intro d' j hd
      by_cases hdd : d' = d
      · simp only [hdd, if_true] at hd
        cases hd
      · simp only [hdd, if_false] at hd
        exact hw.names d' j hd
  · exact hw

/-- The loop's copy of the registered connections has every open one in it
that it asks for. -/
theorem Wired.registered (hw : Wired h) {p : Conn → Bool} {k : Nat} {c : Conn}
    (hk : h.conns[k]? = some c) (ho : c.isOpen = true) (hp : p c = true) :
    k ∈ h.registered p := by
  unfold Hub.registered
  rw [List.mem_filter, List.mem_range]
  refine ⟨(List.getElem?_eq_some_iff.mp hk).1, ?_⟩
  rw [hk]
  simp [hw.own k c hk ho, hp]

/-! ## A device without open connections -/

/-- The device has no open connection. -/
def Shut (id : String) (h : Hub) : Prop :=
  ∀ (k : Nat) (c : Conn), h.conns[k]? = some c → c.deviceId = id → c.isOpen = false

/-- The open connections the device still has are about to be closed by the
liveness check under way. -/
def Draining (id : String) (h : Hub) : Prop :=
  ∀ (k : Nat) (c : Conn), h.conns[k]? = some c → c.deviceId = id → c.isOpen = true →
    ∃ stale, h.loop = .closing stale ∧ k ∈ stale

variable {id : String}

theorem Shut.draining (hs : Shut id h) : Draining id h := by
  intro k c hk hd ho
  rw [hs k c hk hd] at ho
  cases ho

theorem Shut.of_draining (hd : Draining id h) (hl : ∀ k stale, h.loop = .closing stale →
    k ∉ stale) : Shut id h := by
  intro k c hk hdev
  cases ho : c.isOpen with
  | false => rfl
  | true =>
      obtain ⟨stale, hloop, hmem⟩ := hd k c hk hdev ho
      exact absurd hmem (hl k stale hloop)

theorem Shut.calm (hs : Shut id h) (hc : Calm h h') : Shut id h' := by
  intro k c' hk hdev
  obtain ⟨c, hcon, hd, hopen⟩ := hc.back k c' hk
  cases ho : c'.isOpen with
  | false => rfl
  | true =>
      have hclosed := hs k c hcon (hd.symm.trans hdev)
      rw [hopen ho] at hclosed
      cases hclosed

theorem Draining.calm (hd : Draining id h) (hc : Calm h h') (hl : h'.loop = h.loop) :
    Draining id h' := by
  intro k c' hk hdev ho
  obtain ⟨c, hcon, hd', hopen⟩ := hc.back k c' hk
  rw [hl]
  exact hd k c hcon (hd'.symm.trans hdev) (hopen ho)

/-- A registration of another device opens no connection of this one. -/
theorem open_before_register {d : String} (u : String) (t : Int) (hne : d ≠ id) {k : Nat}
    {c : Conn} (hk : (h.register d u t).1.conns[k]? = some c) (hdev : c.deviceId = id)
    (ho : c.isOpen = true) :
    ∃ c₀, h.conns[k]? = some c₀ ∧ c₀.deviceId = id ∧ c₀.isOpen = true := by
  obtain ⟨old, hconns, hlen, hcalm, _⟩ := register_conns h d u t
  rw [hconns] at hk
  by_cases hlt : k < old.conns.length
  · rw [List.getElem?_append_left hlt] at hk
    obtain ⟨c₀, hc₀, hd₀, hopen⟩ := hcalm.back k c hk
    exact ⟨c₀, hc₀, hd₀.symm.trans hdev, hopen ho⟩
  · rw [List.getElem?_append_right (by omega)] at hk
    have hc : c = { deviceId := d, userId := u, lastSeen := t } :=
      List.mem_singleton.mp (List.mem_of_getElem? hk)
    rw [hc] at hdev
    exact absurd hdev hne

theorem Draining.register (hd : Draining id h) {d : String} (u : String) (t : Int)
    (hne : d ≠ id) : Draining id (h.register d u t).1 := by
  have hloop : (h.register d u t).1.loop = h.loop := by
    unfold Hub.register
    cases h.byDevice d <;> rfl
  intro k c hk hdev ho
  obtain ⟨c₀, hc₀, hd₀, ho₀⟩ := open_before_register u t hne hk hdev ho
  rw [hloop]
  exact hd k c₀ hc₀ hd₀ ho₀

theorem Shut.register (hs : Shut id h) {d : String} (u : String) (t : Int)
    (hne : d ≠ id) : Shut id (h.register d u t).1 := by
  intro k c hk hdev
  cases ho : c.isOpen with
  | false => rfl
  | true =>
      obtain ⟨c₀, hc₀, hd₀, ho₀⟩ := open_before_register u t hne hk hdev ho
      rw [hs k c₀ hc₀ hd₀] at ho₀
      cases ho₀

/-- A registered connection stays under its number. -/
theorem device_register (d u : String) (t : Int) {k : Nat} {c : Conn}
    (hk : h.conns[k]? = some c) :
    ∃ c' : Conn, (h.register d u t).1.conns[k]? = some c' ∧ c'.deviceId = c.deviceId := by
  obtain ⟨old, hconns, hlen, hcalm, _⟩ := register_conns h d u t
  obtain ⟨c', hc', hdev⟩ := hcalm.forth k c hk
  refine ⟨c', ?_, hdev⟩
  rw [hconns, List.getElem?_append_left (List.getElem?_eq_some_iff.mp hc').1]
  exact hc'

theorem unregister_conns (h : Hub) (d : String) (k : Nat) :
    (h.unregister d k).conns = h.conns ∧ (h.unregister d k).loop = h.loop ∧
      (h.unregister d k).delivered = h.delivered := by
  unfold Hub.unregister
  split
  · exact ⟨rfl, rfl, rfl⟩
  · exact ⟨rfl, rfl, rfl⟩

end Hub

end Calcar.Ws
