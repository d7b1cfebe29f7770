import Calcar.Verified.Approvals
import Calcar.Verified.PendingRequests
import Mathlib.Data.List.Induction

/-!
# The permission manager

The manager keeps two things for a request: the row in the store, which says
how it ended, and an entry in memory, which says whose it is.  A verdict is
looked up in memory first and decided by the row.  The entries of a process
only come from its own requests, are never dropped, and are marked once.

Runs are lists of calls, each of which may fail at any statement or stop
between two of them.  `PermissionAnswer` says what one verdict does.

## Main results

* `resolve_permission` — the answers of `resolve` are exact.
* `permission_manager_safety` — one verdict is applied, in time and by the
  bound device, and what is refused changes nothing.
-/

namespace Calcar.Agent

open Lib

/-! ## The map -/

/-- An entry stays what it is, but for the mark. -/
inductive PendingEntry.LeadsTo (e : PendingEntry) : PendingEntry → Prop where
  | same : LeadsTo e e
  | marked : LeadsTo e { e with resolved := true }

/-- What is under a key stays there; where nothing is, nothing comes. -/
inductive EntryLeads : Option PendingEntry → Option PendingEntry → Prop where
  | none : EntryLeads none none
  | some {e e' : PendingEntry} (h : e.LeadsTo e') : EntryLeads (some e) (some e')

/-- A map after verdicts. -/
structure Marked (pending pending' : List (String × PendingEntry)) : Prop where
  keys : pending'.map Prod.fst = pending.map Prod.fst
  entries : ∀ key, EntryLeads (entryOf pending key) (entryOf pending' key)

section Map

variable {pending pending' : List (String × PendingEntry)} {key id : String}

theorem PendingEntry.LeadsTo.trans {e e' e'' : PendingEntry} (h : e.LeadsTo e')
    (h' : e'.LeadsTo e'') : e.LeadsTo e'' := by
  cases h with
  | same => exact h'
  | marked =>
      cases h' with
      | same => exact .marked
      | marked => exact .marked

theorem EntryLeads.refl (x : Option PendingEntry) : EntryLeads x x := by
  cases x with
  | none => exact .none
  | some e => exact .some .same

theorem EntryLeads.trans {x y z : Option PendingEntry} (h : EntryLeads x y)
    (h' : EntryLeads y z) : EntryLeads x z := by
  cases h with
  | none => exact h'
  | some hxy =>
      cases h' with
      | some hyz => exact .some (hxy.trans hyz)

theorem Marked.refl (pending : List (String × PendingEntry)) : Marked pending pending :=
  ⟨rfl, fun _ => .refl _⟩

theorem Marked.trans {pending'' : List (String × PendingEntry)} (h : Marked pending pending')
    (h' : Marked pending' pending'') : Marked pending pending'' :=
  ⟨h'.keys.trans h.keys, fun key => (h.entries key).trans (h'.entries key)⟩

theorem entryOf_setEntry_self (e : PendingEntry) :
    entryOf (setEntry pending key e) key = some e := by
  have hnone : (pending.filter fun p => p.1 ≠ key).find? (fun p => p.1 = key) = none := by
    rw [List.find?_eq_none]
    intro p hp
    simpa using (List.mem_filter.mp hp).2
  unfold entryOf setEntry
  rw [List.find?_append, hnone]
  simp

theorem entryOf_setEntry_ne (e : PendingEntry) {k : String} (h : k ≠ key) :
    entryOf (setEntry pending key e) k = entryOf pending k := by
  have hfilter : (pending.filter fun p => p.1 ≠ key).find? (fun p => p.1 = k) =
      pending.find? fun p => p.1 = k := by
    rw [List.find?_filter]
    congr 1
    funext p
    by_cases hp : p.1 = k
    · simp [hp, h]
    · simp [hp]
  have hlast : [(key, e)].find? (fun p => p.1 = k) = none := by
    simp [Ne.symm h]
  unfold entryOf setEntry
  rw [List.find?_append, hfilter, hlast, Option.or_none]

theorem entryOf_markEntry (k : String) :
    entryOf (markEntry pending key) k =
      (entryOf pending k).map fun e => if k = key then { e with resolved := true } else e := by
  have hkeys : ((fun p : String × PendingEntry => decide (p.1 = k)) ∘ fun p =>
      if p.1 = key then (p.1, { p.2 with resolved := true }) else p) = fun p => decide (p.1 = k) := by
    funext p
    show decide ((if p.1 = key then (p.1, { p.2 with resolved := true }) else p).1 = k) = _
    by_cases hp : p.1 = key
    · rw [if_pos hp]
    · rw [if_neg hp]
  unfold entryOf markEntry
  rw [List.find?_map, hkeys]
  cases hfind : pending.find? fun p => p.1 = k with
  | none => rfl
  | some p =>
      have hk : p.1 = k := by simpa using List.find?_some hfind
      simp only [Option.map_some]
      by_cases hp : k = key
      · rw [if_pos hp, if_pos (hk.trans hp)]
      · rw [if_neg hp, if_neg (by rw [hk]; exact hp)]

theorem marked_markEntry (pending : List (String × PendingEntry)) (key : String) :
    Marked pending (markEntry pending key) := by
  constructor
  · unfold markEntry
    rw [List.map_map]
    apply List.map_congr_left
    intro p _
    show (if p.1 = key then (p.1, { p.2 with resolved := true }) else p).1 = p.1
    by_cases hp : p.1 = key
    · rw [if_pos hp]
    · rw [if_neg hp]
  · intro k
    rw [entryOf_markEntry]
    cases entryOf pending k with
    | none => exact .none
    | some e =>
        show EntryLeads (some e) (some (if k = key then { e with resolved := true } else e))
        by_cases hk : k = key
        · rw [if_pos hk]
          exact .some .marked
        · rw [if_neg hk]
          exact .some .same

theorem keys_setEntry (e : PendingEntry) (h : (pending.map Prod.fst).Nodup) :
    ((setEntry pending key e).map Prod.fst).Nodup := by
  have hkept : ((pending.filter fun p => p.1 ≠ key).map Prod.fst).Nodup :=
    h.sublist (List.Sublist.map Prod.fst List.filter_sublist)
  unfold setEntry
  rw [List.map_append, List.nodup_append]
  refine ⟨hkept, by simp, fun a ha b hb hab => ?_⟩
  rw [List.map_singleton, List.mem_singleton] at hb
  obtain ⟨p, hp, hpa⟩ := List.mem_map.mp ha
  have hne : p.1 ≠ key := by simpa using (List.mem_filter.mp hp).2
  exact hne (hpa.trans (hab.trans hb))

/-- With distinct keys the map holds what is looked up. -/
theorem mem_iff_entryOf {e : PendingEntry} (h : (pending.map Prod.fst).Nodup) :
    (key, e) ∈ pending ↔ entryOf pending key = some e := by
  unfold entryOf
  induction pending with
  | nil => simp
  | cons p pending ih =>
      rw [List.map_cons, List.nodup_cons] at h
      by_cases hp : p.1 = key
      · rw [List.find?_cons_of_pos (by simpa using hp), Option.map_some, Option.some.injEq,
          List.mem_cons]
        constructor
        · intro hmem
          cases hmem with
          | inl heq => rw [← heq]
          | inr htail =>
              have hkey : p.1 ∈ pending.map Prod.fst := by
                rw [hp]
                exact List.mem_map_of_mem htail
              exact absurd hkey h.1
        · intro he
          left
          rw [← hp, ← he]
      · rw [List.find?_cons_of_neg (by simpa using hp), List.mem_cons]
        constructor
        · intro hmem
          cases hmem with
          | inl heq =>
              rw [← heq] at hp
              exact absurd rfl hp
          | inr htail => exact (ih h.2).mp htail
        · intro he
          exact .inr ((ih h.2).mpr he)

/-- A key is looked up before any bare id. -/
theorem keyFor_self {e : PendingEntry} (h : entryOf pending key = some e) :
    keyFor pending key = some key := by
  unfold keyFor
  rw [h]
  rfl

theorem entryOf_of_mem {p : String × PendingEntry} (h : p ∈ pending) :
    ∃ e, entryOf pending p.1 = some e := by
  unfold entryOf
  cases hfind : pending.find? fun q => q.1 = p.1 with
  | none =>
      rw [List.find?_eq_none] at hfind
      exact absurd (decide_eq_true rfl) (hfind p h)
  | some q => exact ⟨q.2, rfl⟩

/-- What is looked up is tracked. -/
theorem keyFor_tracked (h : keyFor pending id = some key) :
    ∃ e, entryOf pending key = some e := by
  unfold keyFor at h
  by_cases hid : (entryOf pending id).isSome = true
  · rw [if_pos hid] at h
    obtain rfl := Option.some.inj h
    exact Option.isSome_iff_exists.mp hid
  · rw [if_neg hid] at h
    split at h
    · rename_i hit hhits
      obtain rfl := Option.some.inj h
      have hmem : hit ∈ pending.filter fun p => p.2.requestId = id := by
        rw [hhits]
        exact List.mem_singleton_self hit
      exact entryOf_of_mem (List.mem_filter.mp hmem).1
    · cases h

/-- An id is unclear if it is no key and not the bare id of just one request. -/
theorem keyFor_eq_none :
    keyFor pending id = none ↔
      entryOf pending id = none ∧ pending.countP (fun p => p.2.requestId = id) ≠ 1 := by
  unfold keyFor
  rw [List.countP_eq_length_filter]
  cases hid : entryOf pending id with
  | some e => simp
  | none =>
      rw [if_neg (by simp)]
      generalize pending.filter (fun p => p.2.requestId = id) = hits
      match hits with
      | [] => simp
      | [hit] => simp
      | hit :: hit' :: hits => simp

end Map

/-! ## Programs and the map -/

/-- Commands that leave the map alone. -/
def KeepsMap : Cmd → Prop
  | .track _ _ => False
  | .markResolved _ => False
  | .restart => False
  | _ => True

section Programs

variable {m : Machine} {j : Nat} {α : Type}

theorem KeepsMap.pending {c : Cmd} (h : KeepsMap c) (o : Oracle) (m : Machine) :
    (c.run o m).1.pending = m.pending := by
  cases c with
  | sql s =>
      obtain hm | hm := Cmd.sql_changes s o m
      · rw [hm]
      · rw [hm]
  | saveRegistry =>
      obtain hm | hm := Cmd.saveRegistry_changes o m
      · rw [hm]
      · rw [hm]
  | track key entry => exact absurd h id
  | markResolved key => exact absurd h id
  | restart => exact absurd h id
  | _ => rfl

theorem meets_pending {p : Code α} (hp : p.Only KeepsMap)
    {x : List (String × PendingEntry)} (hm : m.pending = x) :
    p.Meets exec j (fun _ m' => m'.pending = x) (fun m' => m'.pending = x) m :=
  meets_keep hp (I := fun m' => m'.pending = x)
    (fun _ o m' hc hm' => (hc.pending o m').trans hm') hm

theorem RequestCmd.keepsMap {k : String} {kind : Option RequestKind} {c : Cmd}
    (h : RequestCmd k kind c) : KeepsMap c := by
  cases c with
  | track key entry => exact h
  | markResolved key => exact h
  | restart => exact h
  | _ => trivial

theorem resolvePendingRequest_keepsMap (id payload : String) :
    (resolvePendingRequest id payload).Only KeepsMap :=
  (resolvePendingRequest_only id payload none).mono fun _ hc => hc.keepsMap

theorem createPendingRequest_keepsMap (id w : String) (kind : RequestKind)
    (expiresAt : Option Int) : (createPendingRequest id w kind expiresAt).Only KeepsMap :=
  (createPendingRequest_only id w kind expiresAt).mono fun _ hc => hc.keepsMap

end Programs

/-! ## One verdict -/

/-- What the manager makes of the store's answer. -/
def outcomeOf : Except StorageError Unit → Except StorageError ApprovalOutcome
  | .ok () => .ok .applied
  | .error (.alreadyResolved _) => .ok .duplicate
  | .error (.expired _) => .ok .expired
  | .error (.notFound _) => .ok .unknown
  | .error e => .error e

/-- The answers after which the entry is marked. -/
def marks : Except StorageError Unit → Bool
  | .ok () => true
  | .error (.alreadyResolved _) => true
  | .error _ => false

/-- One resolve that reads the clock as `t`: the machine before, the machine
afterwards, the answer. -/
inductive PermissionAnswer (id device : String) (decision : ApprovalDecision) (t : Int)
    (m m' : Machine) : Except StorageError ApprovalOutcome → Prop where
  | unknown
      (hnot : ∀ key e, keyFor m.pending id = some key → entryOf m.pending key = some e →
        e.deviceId ≠ device) (hsame : m' = m) :
      PermissionAnswer id device decision t m m' (.ok .unknown)
  | repeated (key : String) (e : PendingEntry) (hkey : keyFor m.pending id = some key)
      (he : entryOf m.pending key = some e) (hdevice : e.deviceId = device)
      (hmarked : e.resolved = true) (hsame : m' = m) :
      PermissionAnswer id device decision t m m' (.ok .duplicate)
  | answered (key : String) (e : PendingEntry) (a : Except StorageError Unit)
      (hkey : keyFor m.pending id = some key) (he : entryOf m.pending key = some e)
      (hdevice : e.deviceId = device) (hopen : e.resolved = false)
      (hrow : ResolveAnswer key (decisionWord decision ++ ":" ++ e.summary) t
        (m.db.requestOf key) a (m'.db.requestOf key))
      (hpending : m'.pending = if marks a = true then markEntry m.pending key else m.pending) :
      PermissionAnswer id device decision t m m' (outcomeOf a)

section Resolve

variable {m : Machine} {id device key payload : String} {decision : ApprovalDecision}
  {t : Int} {j : Nat}

/-- The mark, if any, is all that the manager adds to the store's answer. -/
theorem settleEntry_meets {Q : Except StorageError ApprovalOutcome → Machine → Prop}
    {C : Machine → Prop} (a : Except StorageError Unit) (hC : C m)
    (hmarked : C { m with pending := markEntry m.pending key })
    (hq : ∀ m', m'.db = m.db →
      m'.pending = (if marks a = true then markEntry m.pending key else m.pending) →
      Q (outcomeOf a) m') :
    (settleEntry key a).Meets exec j Q C m := by
  have hmark : ∀ r : ApprovalOutcome, outcomeOf a = .ok r → marks a = true →
      Prog.Meets exec j Q C (do
        Prog.perform (Cmd.markResolved key)
        return .ok r : Code (Except StorageError ApprovalOutcome)) m := by
    intro r hr hm
    refine Prog.meets_bind (meets_perform hC fun o => ⟨hmarked, fun _ => ⟨hmarked, ?_⟩⟩)
    rw [← hr]
    exact hq _ rfl (by rw [if_pos hm]; rfl)
  match a with
  | .ok () => exact hmark .applied rfl rfl
  | .error (.alreadyResolved _) => exact hmark .duplicate rfl rfl
  | .error (.expired _) => exact ⟨hC, hq m rfl rfl⟩
  | .error (.notFound _) => exact ⟨hC, hq m rfl rfl⟩
  | .error .sqlite => exact ⟨hC, hq m rfl rfl⟩
  | .error (.invalidState _) => exact ⟨hC, hq m rfl rfl⟩

theorem resolveAt_keepsMap (id payload : String) (t : Int) :
    (resolveAt id payload t).Only KeepsMap :=
  (resolvePendingRequest_keepsMap id payload).2 t

/-- One verdict on a tracked request, from the reading of the clock on. -/
theorem resolveEntryAt_answer (key payload : String) (t : Int) (h : DistinctIds m.db) :
    (resolveAt key payload t >>= settleEntry key).Meets exec j
      (fun r m' => ∃ a, r = outcomeOf a ∧
        ResolveAnswer key payload t (m.db.requestOf key) a (m'.db.requestOf key) ∧
        m'.pending = if marks a = true then markEntry m.pending key else m.pending)
      (fun _ => True) m := by
  have hanswers : (resolveAt key payload t).Meets exec j
      (fun a m' => ResolveAnswer key payload t (m.db.requestOf key) a (m'.db.requestOf key))
      (fun _ => True) m := resolveAt_answer h
  have hrow := hanswers.and (meets_pending (resolveAt_keepsMap key payload t) rfl)
  refine Prog.meets_bind (hrow.mono (fun a m' ha _ => ?_) fun _ _ => trivial)
  obtain ⟨hanswer, hpending⟩ := ha
  refine settleEntry_meets a trivial trivial fun m'' hdb hmap => ?_
  refine ⟨a, rfl, ?_, ?_⟩
  · rw [hdb]
    exact hanswer
  · rw [hmap, hpending]

theorem attempt_ret {α : Type} {a r : α} {n : Nat} {os : Nat → Oracle}
    (h : ((.ret a : Code α).attempt exec j n os m).2 = some r) :
    r = a ∧ ((.ret a : Code α).attempt exec j n os m).1 = m := by
  cases n with
  | zero => cases h
  | succ n => exact ⟨(Option.some.inj h).symm, rfl⟩

theorem resolveLocked_none (hkey : keyFor m.pending id = none) :
    resolveLocked m.pending id device decision = .ret (.ok .unknown) := by
  unfold resolveLocked
  rw [hkey]
  rfl

theorem resolveLocked_some (device : String) (decision : ApprovalDecision) {e : PendingEntry}
    (hkey : keyFor m.pending id = some key)
    (he : entryOf m.pending key = some e) :
    resolveLocked m.pending id device decision =
      if e.deviceId ≠ device then .ret (.ok .unknown)
      else if e.resolved then .ret (.ok .duplicate)
      else resolvePendingRequest key (decisionWord decision ++ ":" ++ e.summary) >>=
        settleEntry key := by
  unfold resolveLocked
  rw [hkey]
  simp only [he]
  rfl

theorem resolveLocked_permission (h : DistinctIds m.db) {n : Nat} {os : Nat → Oracle}
    {r : Except StorageError ApprovalOutcome}
    (hr : ((resolveLocked m.pending id device decision).attempt exec j n os m).2 = some r) :
    PermissionAnswer id device decision (os 0).clock m
      ((resolveLocked m.pending id device decision).attempt exec j n os m).1 r := by
  cases hkey : keyFor m.pending id with
  | none =>
      rw [resolveLocked_none hkey] at hr ⊢
      obtain ⟨rfl, hsame⟩ := attempt_ret hr
      refine .unknown (fun key e hsome => ?_) hsame
      rw [hkey] at hsome
      cases hsome
  | some key =>
      obtain ⟨e, he⟩ := keyFor_tracked hkey
      have hcode := resolveLocked_some device decision hkey he
      by_cases hdevice : e.deviceId = device
      · rw [if_neg (not_not_intro hdevice)] at hcode
        by_cases hmarked : e.resolved = true
        · rw [if_pos hmarked] at hcode
          rw [hcode] at hr ⊢
          obtain ⟨rfl, hsame⟩ := attempt_ret hr
          exact .repeated key e hkey he hdevice hmarked hsame
        · rw [if_neg hmarked] at hcode
          rw [hcode] at hr ⊢
          cases n with
          | zero => cases hr
          | succ n =>
              have hmeets := resolveEntryAt_answer (j := j) key
                (decisionWord decision ++ ":" ++ e.summary) (os 0).clock h
              obtain ⟨a, rfl, hrow, hpending⟩ :=
                (Prog.meets_attempt hmeets n fun k => os (k + 1)).2 r hr
              exact .answered key e a hkey he hdevice (by simpa using hmarked) hrow hpending
      · rw [if_pos hdevice] at hcode
        rw [hcode] at hr ⊢
        obtain ⟨rfl, hsame⟩ := attempt_ret hr
        refine .unknown (fun key' e' hsome he' => ?_) hsame
        rw [hkey] at hsome
        obtain rfl := Option.some.inj hsome
        rw [he] at he'
        obtain rfl := Option.some.inj he'
        exact hdevice

/-- **The answers of `resolve` are exact.** -/
theorem resolve_permission (h : DistinctIds m.db) {n : Nat} {os : Nat → Oracle}
    {r : Except StorageError ApprovalOutcome}
    (hr : ((resolveApproval id device decision).attempt exec j n os m).2 = some r) :
    PermissionAnswer id device decision (os 1).clock m
      ((resolveApproval id device decision).attempt exec j n os m).1 r := by
  cases n with
  | zero => cases hr
  | succ n => exact resolveLocked_permission h hr

end Resolve

/-! ## One request -/

/-- The entry of a request made at `t`. -/
def newEntry (w r device summary : String) (ttlMillis : Nat) (t : Int) : PendingEntry where
  workflowId := w
  requestId := r
  deviceId := device
  summary := summary
  expiresAtMillis := saturatingAdd t (min (ttlMillis : Int) maxI64)
  resolved := false

/-- The map and the row of a request as one attempt leaves them: as they
were, or the row alone is new, or both are. -/
def RequestMade (w r device summary : String) (ttlMillis : Nat) (t : Int) (m m' : Machine) :
    Prop :=
  m'.pending = m.pending ∨
    m.db.requestOf (namespacedKey w r) = none ∧
      m'.pending = setEntry m.pending (namespacedKey w r)
        (newEntry w r device summary ttlMillis t) ∧
      ∃ row, m'.db.requestOf (namespacedKey w r) = some row ∧ row.state = .pending ∧
        row.expiresAtMillis = some (newEntry w r device summary ttlMillis t).expiresAtMillis

section Request

variable {m : Machine} {j : Nat}

/-- A request that was created is a new row. -/
theorem create_files (id w : String) (kind : RequestKind) (expiresAt : Option Int) :
    (createPendingRequest id w kind expiresAt).Meets exec j
      (fun a m' => a = .ok () → m.db.requestOf id = none ∧
        ∃ row, m'.db.requestOf id = some row ∧ row.state = .pending ∧
          row.expiresAtMillis = expiresAt) (fun _ => True) m := by
  have hfailed : ∀ {P : Prop} {e : StorageError},
      (Except.error e : Except StorageError Unit) = .ok () → P := by
    intro P e h
    cases h
  unfold createPendingRequest getWorkflow
  refine meets_andThen (meets_sql (C := fun _ => True) trivial (fun _ h => hfailed h)
    ⟨trivial, fun _ => ?_⟩)
  have hread : (Sql.selectWorkflow w).step m.db = (m.db, .ok (m.db.getWorkflow w)) := rfl
  rw [hread]
  cases m.db.getWorkflow w with
  | none => exact ⟨trivial, fun h => hfailed h⟩
  | some row =>
      refine Prog.meets_bind (meets_now trivial fun t _ => ?_)
      refine meets_sql (C := fun _ => True) trivial (fun h => hfailed h) ⟨trivial, ?_⟩
      have hwrite : (Sql.insertRequest id w kind expiresAt t).step m.db =
          Sql.wrote m.db (m.db.insertRequest id w kind expiresAt t) := rfl
      rw [hwrite]
      cases hins : m.db.insertRequest id w kind expiresAt t with
      | error e => exact fun h => hfailed h
      | ok db' =>
          intro _
          obtain ⟨_, hnone, hdb⟩ := insertRequest_ok hins
          have hfound : ∃ row, db'.requestOf id = some row ∧ row.state = .pending ∧
              row.expiresAtMillis = expiresAt := by
            rw [hdb]
            unfold Db.requestOf
            rw [List.find?_append, show m.db.requests.find? _ = none from hnone]
            simp
          exact ⟨hnone, hfound⟩

/-- **What a request leaves**, wherever it stops. -/
theorem request_made (w r device summary : String) (ttlMillis n : Nat) (os : Nat → Oracle) :
    RequestMade w r device summary ttlMillis (os 0).clock m
      ((requestApproval w r device summary ttlMillis).attempt exec j n os m).1 := by
  have hstart : RequestMade w r device summary ttlMillis (os 0).clock m m := .inl rfl
  unfold requestApproval
  by_cases hempty : w = "" ∨ r = "" ∨ device = ""
  · rw [if_pos hempty]
    cases n with
    | zero => exact hstart
    | succ n => exact hstart
  · rw [if_neg hempty]
    cases n with
    | zero => exact hstart
    | succ n =>
        -- the clock has been read
        have hrest : (andThen (createPendingRequest (namespacedKey w r) w .approval
              (some (saturatingAdd (os 0).clock (min (ttlMillis : Int) maxI64)))) fun _ => do
            Prog.perform (Cmd.track (namespacedKey w r)
              (newEntry w r device summary ttlMillis (os 0).clock))
            return .ok () : Code (Except StorageError Unit)).Meets exec j
              (fun _ _ => True)
              (RequestMade w r device summary ttlMillis (os 0).clock m) m := by
          have hcreate := (create_files (m := m) (j := j) (namespacedKey w r) w .approval
            (some (saturatingAdd (os 0).clock (min (ttlMillis : Int) maxI64)))).and
            (meets_pending (createPendingRequest_keepsMap _ w .approval _) rfl)
          refine meets_andThen (hcreate.mono (fun a m' ha _ => ?_) fun m' hm' => .inl hm'.2)
          obtain ⟨hfiled, hpending⟩ := ha
          cases a with
          | error e => trivial
          | ok u =>
              obtain ⟨hnone, row, hrow⟩ := hfiled rfl
              have hmade : ∀ m'' : Machine, m''.db = m'.db →
                  m''.pending = setEntry m'.pending (namespacedKey w r)
                    (newEntry w r device summary ttlMillis (os 0).clock) →
                  RequestMade w r device summary ttlMillis (os 0).clock m m'' := by
                intro m'' hdb hmap
                rw [hpending] at hmap
                rw [← hdb] at hrow
                exact .inr ⟨hnone, hmap, row, hrow⟩
              refine Prog.meets_bind (meets_perform (.inl hpending) fun o => ?_)
              exact ⟨hmade _ rfl rfl, fun _ => ⟨hmade _ rfl rfl, trivial⟩⟩
        exact (Prog.meets_attempt hrest n fun k => os (k + 1)).1

end Request

/-! ## Calls -/

/-- The calls on the permission manager and, beside it, the route by which the
phone resolves approvals. -/
inductive PermissionCall where
  | request (w r device summary : String) (ttlMillis : Nat)
  | resolve (id device : String) (decision : ApprovalDecision)
  | sweep
  | list (w : String)
  | approve (cfg : ConnectConfig) (p : Post)

/-- What they return. -/
inductive PermissionReply where
  | requested (r : Except StorageError Unit)
  | resolved (r : Except StorageError ApprovalOutcome)
  | swept (r : Except StorageError Nat)
  | listed (r : Except StorageError (List String))
  | replied (r : Response)

/-- The program of a call. -/
def PermissionCall.code : PermissionCall → Code PermissionReply
  | .request w r device summary ttlMillis => do
      return .requested (← requestApproval w r device summary ttlMillis)
  | .resolve id device decision => do
      return .resolved (← resolveApproval id device decision)
  | .sweep => do
      return .swept (← sweepExpired)
  | .list w => do
      return .listed (← pendingFor w)
  | .approve cfg p => do
      return .replied (← replyApproval cfg p)

/-- A call, and how far and among what it gets. -/
abbrev PermissionTry : Type := Prog.Try PermissionCall Oracle

/-- The machine after one call. -/
def PermissionTry.after (t : PermissionTry) (m : Machine) : Machine :=
  (t.at exec PermissionCall.code m).1

/-- What a call returns, if it gets so far. -/
def PermissionTry.reply (t : PermissionTry) (m : Machine) : Option PermissionReply :=
  (t.at exec PermissionCall.code m).2

/-- The machine after calls. -/
def machineAfter (m : Machine) (ts : List PermissionTry) : Machine :=
  Prog.afterAll exec PermissionCall.code m ts

section Calls

variable {m : Machine}

theorem machineAfter_snoc (m : Machine) (ts : List PermissionTry) (t : PermissionTry) :
    machineAfter m (ts ++ [t]) = t.after (machineAfter m ts) := by
  unfold machineAfter
  rw [Prog.afterAll_append]
  rfl

theorem machineAfter_append (m : Machine) (ts us : List PermissionTry) :
    machineAfter m (ts ++ us) = machineAfter (machineAfter m ts) us :=
  Prog.afterAll_append m ts us

theorem call_wrapped {α : Type} {p : Code α} {f : α → PermissionReply} {t : PermissionTry}
    (h : t.task.code = (p >>= fun a => .ret (f a))) (m : Machine) :
    t.after m = (p.attempt exec 0 t.steps t.oracles m).1 ∧
      t.reply m = (p.attempt exec 0 t.steps t.oracles m).2.map f := by
  unfold PermissionTry.after PermissionTry.reply Prog.Try.at
  rw [h, attempt_wrapped]
  exact ⟨rfl, rfl⟩

theorem resolve_code {t : PermissionTry} {id device : String} {decision : ApprovalDecision}
    (htask : t.task = .resolve id device decision) :
    t.task.code = (resolveApproval id device decision >>= fun a => .ret (.resolved a)) := by
  rw [htask]
  rfl

theorem replyApproval_keepsMap (cfg : ConnectConfig) (p : Post) :
    (replyApproval cfg p).Only KeepsMap := by
  unfold replyApproval reply
  by_cases hb : bearerOk p cfg.token = true
  · rw [if_pos hb]
    unfold handleApproval
    cases approvalFields p with
    | error r => trivial
    | ok fields =>
        obtain ⟨approvalId, allow⟩ := fields
        refine orInternal_only (fun _ => trivial) (Prog.only_perform trivial) fun _ => ?_
        refine orInternal_only (fun _ => trivial) (Prog.only_perform trivial) fun row => ?_
        cases row with
        | none => trivial
        | some _ =>
            refine orInternal_only (fun _ => trivial) (Prog.only_perform trivial) fun _ => ?_
            refine (resolvePendingRequest_keepsMap approvalId _).bind fun a => ?_
            cases a with
            | error e => exact approvalRefused_only (fun _ => trivial) e
            | ok _ => exact ⟨trivial, fun _ => ⟨trivial, fun _ => ⟨trivial, fun _ => trivial⟩⟩⟩
  · rw [if_neg hb]
    trivial

/-- A call whose commands leave the map alone leaves it alone. -/
theorem quiet_call {α : Type} {p : Code α} {f : α → PermissionReply} {t : PermissionTry}
    (hp : p.Only KeepsMap) (h : t.task.code = (p >>= fun a => .ret (f a))) (m : Machine) :
    (t.after m).pending = m.pending := by
  rw [(call_wrapped h m).1]
  exact (Prog.meets_attempt (meets_pending (j := 0) hp rfl) t.steps t.oracles).1

theorem sweep_quiet {t : PermissionTry} (h : t.task = .sweep) (m : Machine) :
    (t.after m).pending = m.pending := by
  have honly : sweepExpired.Only KeepsMap := ⟨trivial, fun _ => Prog.only_perform trivial⟩
  exact quiet_call (f := .swept) honly (by rw [h]; rfl) m

theorem list_quiet {t : PermissionTry} {w : String} (h : t.task = .list w) (m : Machine) :
    (t.after m).pending = m.pending := by
  have honly : (pendingFor w).Only KeepsMap := ⟨trivial, fun _ => ⟨trivial, fun _ => trivial⟩⟩
  exact quiet_call (f := .listed) honly (by rw [h]; rfl) m

theorem approve_quiet {t : PermissionTry} {cfg : ConnectConfig} {p : Post}
    (h : t.task = .approve cfg p) (m : Machine) : (t.after m).pending = m.pending :=
  quiet_call (f := .replied) (replyApproval_keepsMap cfg p) (by rw [h]; rfl) m

theorem request_code {t : PermissionTry} {w r device summary : String} {ttlMillis : Nat}
    (h : t.task = .request w r device summary ttlMillis) :
    t.task.code = (requestApproval w r device summary ttlMillis >>= fun a =>
      .ret (.requested a)) := by
  rw [h]
  rfl

/-- The commands of a verdict on this key. -/
def VerdictCmd (key : Option String) : Cmd → Prop
  | .now => True
  | .sql s => ∃ k, key = some k ∧ Keyed k none s
  | .markResolved k => key = some k
  | _ => False

theorem settleEntry_only (key : String) (a : Except StorageError Unit) :
    (settleEntry key a).Only (VerdictCmd (some key)) := by
  match a with
  | .ok () => exact ⟨rfl, fun _ => trivial⟩
  | .error (.alreadyResolved _) => exact ⟨rfl, fun _ => trivial⟩
  | .error (.expired _) => trivial
  | .error (.notFound _) => trivial
  | .error .sqlite => trivial
  | .error (.invalidState _) => trivial

theorem resolveLocked_only (id device : String) (decision : ApprovalDecision) (m : Machine) :
    (resolveLocked m.pending id device decision).Only (VerdictCmd (keyFor m.pending id)) := by
  cases hkey : keyFor m.pending id with
  | none =>
      rw [resolveLocked_none hkey]
      trivial
  | some key =>
      obtain ⟨e, he⟩ := keyFor_tracked hkey
      rw [resolveLocked_some device decision hkey he]
      by_cases hdevice : e.deviceId ≠ device
      · rw [if_pos hdevice]
        trivial
      · rw [if_neg hdevice]
        by_cases hmarked : e.resolved = true
        · rw [if_pos hmarked]
          trivial
        · rw [if_neg hmarked]
          refine ((resolvePendingRequest_only key _ none).mono fun c hc => ?_).bind
            fun a => settleEntry_only key a
          cases c with
          | sql s => exact ⟨key, rfl, hc⟩
          | now => trivial
          | _ => exact hc.elim

/-- What the commands of a verdict keep, the verdict keeps to any point. -/
theorem resolve_keeps {I : Machine → Prop} (id device : String) (decision : ApprovalDecision)
    (hm : I m)
    (hstep : ∀ c o m', VerdictCmd (keyFor m.pending id) c → I m' → I (c.run o m').1)
    (n : Nat) (os : Nat → Oracle) :
    I ((resolveApproval id device decision).attempt exec 0 n os m).1 := by
  cases n with
  | zero => exact hm
  | succ n =>
      have hkeep := meets_keep (j := 0) (resolveLocked_only id device decision m) hstep hm
      exact (Prog.meets_attempt hkeep n fun k => os (k + 1)).1

/-- A verdict leaves the map as it was or marks an entry, wherever it stops. -/
theorem resolve_marks (id device : String) (decision : ApprovalDecision) (n : Nat)
    (os : Nat → Oracle) :
    Marked m.pending ((resolveApproval id device decision).attempt exec 0 n os m).1.pending := by
  refine resolve_keeps (I := fun m' => Marked m.pending m'.pending) id device decision
    (.refl _) (fun c o m' hc hm' => ?_) n os
  cases c with
  | markResolved key => exact hm'.trans (marked_markEntry _ _)
  | now => exact hm'
  | sql s =>
      rw [(show KeepsMap (.sql s) from trivial).pending o m']
      exact hm'
  | _ => exact hc.elim

/-- **What a call does to the map**: it leaves the entries, or marks one, or it
is a request and adds its own. -/
theorem call_map (t : PermissionTry) (m : Machine) :
    Marked m.pending (t.after m).pending ∨
      ∃ w r device summary ttlMillis, t.task = .request w r device summary ttlMillis ∧
        m.db.requestOf (namespacedKey w r) = none ∧
        (t.after m).pending = setEntry m.pending (namespacedKey w r)
          (newEntry w r device summary ttlMillis (t.oracles 0).clock) ∧
        ∃ row, (t.after m).db.requestOf (namespacedKey w r) = some row ∧
          row.state = .pending ∧ row.expiresAtMillis =
            some (newEntry w r device summary ttlMillis (t.oracles 0).clock).expiresAtMillis := by
  have hquiet : (t.after m).pending = m.pending → Marked m.pending (t.after m).pending := by
    intro hsame
    rw [hsame]
    exact .refl _
  cases htask : t.task with
  | sweep => exact .inl (hquiet (sweep_quiet htask m))
  | list w => exact .inl (hquiet (list_quiet htask m))
  | approve cfg p => exact .inl (hquiet (approve_quiet htask m))
  | resolve id device decision =>
      rw [(call_wrapped (resolve_code htask) m).1]
      exact .inl (resolve_marks id device decision t.steps t.oracles)
  | request w r device summary ttlMillis =>
      have hmade := request_made (m := m) (j := 0) w r device summary ttlMillis t.steps t.oracles
      rw [← (call_wrapped (request_code htask) m).1] at hmade
      cases hmade with
      | inl hsame => exact .inl (hquiet hsame)
      | inr hnew => exact .inr ⟨w, r, device, summary, ttlMillis, rfl, hnew⟩

/-- What is tracked has its row, with the same deadline. -/
structure Tracked (m : Machine) : Prop where
  distinct : DistinctIds m.db
  keys : (m.pending.map Prod.fst).Nodup
  filed : ∀ key e, entryOf m.pending key = some e →
    ∃ row, m.db.requestOf key = some row ∧ row.expiresAtMillis = some e.expiresAtMillis

theorem RequestRow.LeadsTo.expiresAt {r r' : RequestRow} (h : r.LeadsTo r') :
    r'.expiresAtMillis = r.expiresAtMillis := by
  cases h <;> rfl

/-- An entry comes from before the call, or from the call. -/
theorem entry_origin {t : PermissionTry} {key : String} {e' : PendingEntry}
    (h : entryOf (t.after m).pending key = some e') :
    (∃ e, entryOf m.pending key = some e ∧ e.LeadsTo e') ∨
      ∃ w r device summary ttlMillis, t.task = .request w r device summary ttlMillis ∧
        key = namespacedKey w r ∧
        e' = newEntry w r device summary ttlMillis (t.oracles 0).clock ∧
        ∃ row, (t.after m).db.requestOf key = some row ∧ row.state = .pending ∧
          row.expiresAtMillis = some e'.expiresAtMillis := by
  rcases call_map t m with hmarked | ⟨w, r, device, summary, ttlMillis, htask, _, hmap, hrow⟩
  · have hlead := hmarked.entries key
    rw [h] at hlead
    cases hbefore : entryOf m.pending key with
    | none =>
        rw [hbefore] at hlead
        cases hlead
    | some e =>
        rw [hbefore] at hlead
        cases hlead with
        | some hle => exact .inl ⟨e, rfl, hle⟩
  · rw [hmap] at h
    by_cases hkey : key = namespacedKey w r
    · subst hkey
      rw [entryOf_setEntry_self] at h
      obtain rfl := Option.some.inj h
      exact .inr ⟨w, r, device, summary, ttlMillis, htask, rfl, rfl, hrow⟩
    · rw [entryOf_setEntry_ne _ hkey] at h
      exact .inl ⟨e', h, .same⟩

/-- An entry stays, but for its mark. -/
theorem Tracked.entry_stays (hm : Tracked m) (t : PermissionTry) {key : String}
    {e : PendingEntry} (h : entryOf m.pending key = some e) :
    ∃ e', entryOf (t.after m).pending key = some e' ∧ e.LeadsTo e' := by
  rcases call_map t m with hmarked | ⟨w, r, device, summary, ttlMillis, _, hnone, hmap, _⟩
  · have hlead := hmarked.entries key
    rw [h] at hlead
    cases hafter : entryOf (t.after m).pending key with
    | none =>
        rw [hafter] at hlead
        cases hlead
    | some e' =>
        rw [hafter] at hlead
        cases hlead with
        | some hle => exact ⟨e', rfl, hle⟩
  · have hother : key ≠ namespacedKey w r := by
      intro heq
      obtain ⟨row, hrow, _⟩ := hm.filed key e h
      rw [heq, hnone] at hrow
      cases hrow
    refine ⟨e, ?_, .same⟩
    rw [hmap, entryOf_setEntry_ne _ hother]
    exact h

theorem PendingEntry.LeadsTo.expiresAt {e e' : PendingEntry} (h : e.LeadsTo e') :
    e'.expiresAtMillis = e.expiresAtMillis := by
  cases h <;> rfl

/-- **Every call** keeps what is tracked filed. -/
theorem Tracked.call (hm : Tracked m) (t : PermissionTry) : Tracked (t.after m) := by
  have hrows : ∀ key row, m.db.requestOf key = some row →
      ∃ row', (t.after m).db.requestOf key = some row' ∧ row.LeadsTo row' :=
    fun key row hrow => leadsTo_attempt hrow t.task.code t.steps t.oracles
  have hkeys : ((t.after m).pending.map Prod.fst).Nodup := by
    rcases call_map t m with hmarked | ⟨w, r, device, summary, ttlMillis, _, _, hmap, _⟩
    · rw [hmarked.keys]
      exact hm.keys
    · rw [hmap]
      exact keys_setEntry _ hm.keys
  refine ⟨hm.distinct.attempt t.task.code t.steps t.oracles, hkeys, fun key e' he' => ?_⟩
  rcases entry_origin he' with ⟨e, he, hlead⟩ | ⟨_, _, _, _, _, _, _, _, row, hrow, _, hdue⟩
  · obtain ⟨row, hrow, hdue⟩ := hm.filed key e he
    obtain ⟨row', hrow', hmoved⟩ := hrows key row hrow
    exact ⟨row', hrow', by rw [hmoved.expiresAt, hdue, hlead.expiresAt]⟩
  · exact ⟨row, hrow, hdue⟩

/-- A process that has just started tracks nothing. -/
theorem Tracked.fresh (hm : DistinctIds m.db) (hstart : m.pending = []) : Tracked m := by
  refine ⟨hm, ?_, fun key e he => ?_⟩
  · rw [hstart]
    exact List.nodup_nil
  · rw [hstart] at he
    cases he

theorem Tracked.calls (hm : Tracked m) (ts : List PermissionTry) :
    Tracked (machineAfter m ts) :=
  Prog.afterAll_keep (I := Tracked) (fun t _ _ hw => Tracked.call hw t) hm

/-- An entry stays through any calls, but for its mark. -/
theorem Tracked.entry_stays_calls (hm : Tracked m) (ts : List PermissionTry) {key : String}
    {e : PendingEntry} (h : entryOf m.pending key = some e) :
    ∃ e', entryOf (machineAfter m ts).pending key = some e' ∧ e.LeadsTo e' := by
  have hboth : Tracked (machineAfter m ts) ∧
      ∃ e', entryOf (machineAfter m ts).pending key = some e' ∧ e.LeadsTo e' := by
    refine Prog.afterAll_keep
      (I := fun m' => Tracked m' ∧ ∃ e', entryOf m'.pending key = some e' ∧ e.LeadsTo e')
      (fun t _ w hw => ?_) ⟨hm, e, h, .same⟩
    obtain ⟨htracked, e₁, he₁, hlead⟩ := hw
    obtain ⟨e₂, he₂, hlead'⟩ := htracked.entry_stays t he₁
    exact ⟨htracked.call t, e₂, he₂, hlead.trans hlead'⟩
  exact hboth.2

/-- A resolve call returns what a resolve returns. -/
theorem resolve_reply {t : PermissionTry} {id device : String} {decision : ApprovalDecision}
    {a : PermissionReply} (htask : t.task = .resolve id device decision)
    (ha : t.reply m = some a) : ∃ r, a = .resolved r := by
  rw [(call_wrapped (resolve_code htask) m).2] at ha
  obtain ⟨r, _, rfl⟩ := Option.map_eq_some_iff.mp ha
  exact ⟨r, rfl⟩

/-- What a resolve call returned, it answered. -/
theorem resolve_replied {t : PermissionTry} {id device : String} {decision : ApprovalDecision}
    {r : Except StorageError ApprovalOutcome} (hm : Tracked m)
    (htask : t.task = .resolve id device decision)
    (hr : t.reply m = some (.resolved r)) :
    PermissionAnswer id device decision (t.oracles 1).clock m (t.after m) r := by
  obtain ⟨hafter, hreply⟩ := call_wrapped (resolve_code htask) m
  rw [hreply] at hr
  obtain ⟨a, ha, hwrap⟩ := Option.map_eq_some_iff.mp hr
  obtain rfl := PermissionReply.resolved.inj hwrap
  rw [hafter]
  exact resolve_permission hm.distinct ha

end Calls

/-! ## Runs -/

/-- From machine `m`, the call is a verdict that is applied to `key`. -/
def AppliedTo (m : Machine) (t : PermissionTry) (key : String) : Prop :=
  ∃ id device decision, t.task = .resolve id device decision ∧
    keyFor m.pending id = some key ∧ t.reply m = some (.resolved (.ok .applied))

/-- The id is unknown or ambiguous, or the request is bound to another
device. -/
def Refused (pending : List (String × PendingEntry)) (id device : String) : Prop :=
  (entryOf pending id = none ∧ pending.countP (fun p => p.2.requestId = id) ≠ 1) ∨
    ∃ key e, keyFor pending id = some key ∧ entryOf pending key = some e ∧ e.deviceId ≠ device

/-- The call is a request that is bound and timed like this entry. -/
def Records (t : PermissionTry) (e : PendingEntry) : Prop :=
  ∃ ttlMillis, t.task = .request e.workflowId e.requestId e.deviceId e.summary ttlMillis ∧
    e.expiresAtMillis = saturatingAdd (t.oracles 0).clock (min (ttlMillis : Int) maxI64)

/-- The law of the permission manager, over a run `ts` of a process that
starts on machine `m`. -/
structure PermissionLaw (m : Machine) (ts : List PermissionTry) : Prop where
  /-- An entry comes from a request of the run, and lies under its key. -/
  recorded : ∀ us vs, ts = us ++ vs → ∀ key e,
    entryOf (machineAfter m us).pending key = some e →
    key = namespacedKey e.workflowId e.requestId ∧ ∃ t ∈ us, Records t e
  /-- A verdict is applied for the bound device, before the deadline. -/
  inTime : ∀ us t vs, ts = us ++ t :: vs → ∀ id device decision,
    t.task = .resolve id device decision →
    t.reply (machineAfter m us) = some (.resolved (.ok .applied)) →
    ∃ key e, keyFor (machineAfter m us).pending id = some key ∧
      entryOf (machineAfter m us).pending key = some e ∧ e.deviceId = device ∧
      (t.oracles 1).clock < e.expiresAtMillis
  /-- One verdict is applied to a request at most. -/
  once : ∀ us t vs t' ws, ts = us ++ t :: (vs ++ t' :: ws) → ∀ key,
    AppliedTo (machineAfter m us) t key → ¬AppliedTo (machineAfter m (us ++ t :: vs)) t' key
  /-- Afterwards the bound device is told that it has answered. -/
  repeats : ∀ us t vs t' ws, ts = us ++ t :: (vs ++ t' :: ws) → ∀ key e decision,
    AppliedTo (machineAfter m us) t key → entryOf (machineAfter m us).pending key = some e →
    t'.task = .resolve key e.deviceId decision → ∀ a,
    t'.reply (machineAfter m (us ++ t :: vs)) = some a → a = .resolved (.ok .duplicate)
  /-- What is refused changes nothing, however far it gets. -/
  refused : ∀ us t vs, ts = us ++ t :: vs → ∀ id device decision,
    t.task = .resolve id device decision → Refused (machineAfter m us).pending id device →
    machineAfter m (us ++ [t]) = machineAfter m us ∧
      ∀ a, t.reply (machineAfter m us) = some a → a = .resolved (.ok .unknown)

section Runs

variable {m : Machine} {ts us vs : List PermissionTry} {t : PermissionTry} {key : String}

/-- What an applied verdict finds and leaves. -/
theorem AppliedTo.marks (h : AppliedTo m t key) (hm : Tracked m) :
    ∃ id device decision e, t.task = .resolve id device decision ∧
      keyFor m.pending id = some key ∧ entryOf m.pending key = some e ∧ e.deviceId = device ∧
      (t.oracles 1).clock < e.expiresAtMillis ∧ e.resolved = false ∧
      entryOf (t.after m).pending key = some { e with resolved := true } := by
  obtain ⟨id, device, decision, htask, hkey, hreply⟩ := h
  have hanswer := resolve_replied hm htask hreply
  generalize hr : (Except.ok .applied : Except StorageError ApprovalOutcome) = r at hanswer
  cases hanswer with
  | unknown _ _ => cases hr
  | repeated _ _ _ _ _ _ _ => cases hr
  | answered key' e a hkey' he hdevice hopen hrow hpending =>
      obtain rfl : key' = key := Option.some.inj (hkey'.symm.trans hkey)
      have ha : a = .ok () := by
        match a with
        | .ok () => rfl
        | .error .sqlite => cases hr
        | .error (.invalidState _) => cases hr
        | .error (.notFound _) => cases hr
        | .error (.alreadyResolved _) => cases hr
        | .error (.expired _) => cases hr
      subst ha
      obtain ⟨row, hfiled, hdue⟩ := hm.filed key' e he
      rw [hfiled] at hrow
      have hbefore : (t.oracles 1).clock < e.expiresAtMillis := by
        generalize (t.after m).db.requestOf key' = post at hrow
        cases hrow with
        | applied _ _ hbefore => exact hbefore _ hdue
      refine ⟨id, device, decision, e, htask, hkey, he, hdevice, hbefore, hopen, ?_⟩
      rw [hpending]
      show entryOf (markEntry m.pending key') key' = _
      rw [entryOf_markEntry, he, Option.map_some, if_pos rfl]

/-- An entry that is marked takes no verdict; its device is told so. -/
theorem marked_repeats {e : PendingEntry} (hm : Tracked m)
    (he : entryOf m.pending key = some e) (hmarked : e.resolved = true) :
    ¬AppliedTo m t key ∧ ∀ decision, t.task = .resolve key e.deviceId decision → ∀ a,
      t.reply m = some a → a = .resolved (.ok .duplicate) := by
  constructor
  · intro happlied
    obtain ⟨_, _, _, e', _, _, he', _, _, hopen, _⟩ := happlied.marks hm
    obtain rfl := Option.some.inj (he.symm.trans he')
    rw [hmarked] at hopen
    cases hopen
  · intro decision htask a ha
    obtain ⟨r, rfl⟩ := resolve_reply htask ha
    have hanswer := resolve_replied hm htask ha
    cases hanswer with
    | unknown hnot _ => exact absurd rfl (hnot key e (keyFor_self he) he)
    | repeated _ _ _ _ _ _ _ => rfl
    | answered key' e' _ hkey' he' _ hopen _ _ =>
        obtain rfl : key = key' := Option.some.inj ((keyFor_self he).symm.trans hkey')
        obtain rfl := Option.some.inj (he.symm.trans he')
        rw [hmarked] at hopen
        cases hopen

/-- What is refused stops before the store. -/
theorem refused_inert {id device : String} {decision : ApprovalDecision}
    (htask : t.task = .resolve id device decision) (h : Refused m.pending id device) :
    t.after m = m ∧ ∀ a, t.reply m = some a → a = .resolved (.ok .unknown) := by
  have hlocked : resolveLocked m.pending id device decision = .ret (.ok .unknown) := by
    rcases h with hunclear | ⟨key, e, hkey, he, hdevice⟩
    · exact resolveLocked_none (keyFor_eq_none.mpr hunclear)
    · rw [resolveLocked_some device decision hkey he, if_pos hdevice]
  have hattempt : ∀ n os, ((resolveApproval id device decision).attempt exec 0 n os m).1 = m ∧
      ∀ r, ((resolveApproval id device decision).attempt exec 0 n os m).2 = some r →
        r = .ok .unknown := by
    intro n os
    cases n with
    | zero => exact ⟨rfl, fun r hr => by cases hr⟩
    | succ n =>
        have hread : (resolveApproval id device decision).attempt exec 0 (n + 1) os m =
            (resolveLocked m.pending id device decision).attempt exec 0 n
              (fun k => os (k + 1)) m := rfl
        rw [hread, hlocked]
        cases n with
        | zero => exact ⟨rfl, fun r hr => by cases hr⟩
        | succ n => exact ⟨rfl, fun r hr => (Option.some.inj hr).symm⟩
  obtain ⟨hafter, hreply⟩ := call_wrapped (resolve_code htask) m
  obtain ⟨hsame, hunknown⟩ := hattempt t.steps t.oracles
  refine ⟨hafter.trans hsame, fun a ha => ?_⟩
  rw [hreply] at ha
  obtain ⟨r, hr, rfl⟩ := Option.map_eq_some_iff.mp ha
  rw [hunknown r hr]

/-- What is tracked after some calls was requested in one of them. -/
theorem recorded_calls (hm : m.pending = []) (us : List PermissionTry) :
    ∀ key e, entryOf (machineAfter m us).pending key = some e →
      key = namespacedKey e.workflowId e.requestId ∧ ∃ t ∈ us, Records t e := by
  induction us using List.reverseRecOn with
  | nil =>
      intro key e he
      have hempty : machineAfter m [] = m := rfl
      rw [hempty, hm] at he
      cases he
  | append_singleton us t ih =>
      intro key e' he'
      rw [machineAfter_snoc] at he'
      rcases entry_origin he' with ⟨e, he, hlead⟩ | ⟨w, r, device, summary, ttl, htask, rfl, rfl, _⟩
      · obtain ⟨hkey, t', ht', hrecords⟩ := ih key e he
        cases hlead with
        | same => exact ⟨hkey, t', List.mem_append_left _ ht', hrecords⟩
        | marked => exact ⟨hkey, t', List.mem_append_left _ ht', hrecords⟩
      · exact ⟨rfl, t, List.mem_append_right _ (List.mem_singleton_self t), ttl, htask, rfl⟩

/-- **The permission manager is safe.**  In every run of a process over any
file, whatever fails and wherever a call stops: a verdict is applied to a
request once at most, by the device the request was bound to and before its
deadline; from then on that device is told that it has answered; and what is
unknown, ambiguous or another device's changes nothing. -/
theorem permission_manager_safety (m : Machine) (hm : DistinctIds m.db)
    (hstart : m.pending = []) (ts : List PermissionTry) : PermissionLaw m ts := by
  have hfresh : Tracked m := .fresh hm hstart
  have hthen : ∀ us t vs t' ws, ts = us ++ t :: (vs ++ t' :: ws) → ∀ key e,
      AppliedTo (machineAfter m us) t key → entryOf (machineAfter m us).pending key = some e →
      ∃ e', entryOf (machineAfter m (us ++ t :: vs)).pending key = some e' ∧
        e'.resolved = true ∧ e'.deviceId = e.deviceId := by
    intro us t vs t' ws _ key e happlied he
    have hus := hfresh.calls us
    obtain ⟨_, _, _, e₀, _, _, he₀, _, _, _, hafter⟩ := happlied.marks hus
    obtain rfl := Option.some.inj (he.symm.trans he₀)
    obtain ⟨e', he', hlead⟩ := (hus.call t).entry_stays_calls vs hafter
    have hrun : machineAfter m (us ++ t :: vs) = machineAfter (t.after (machineAfter m us)) vs := by
      rw [machineAfter_append]
      rfl
    rw [hrun]
    refine ⟨e', he', ?_, ?_⟩
    · cases hlead <;> rfl
    · cases hlead <;> rfl
  constructor
  · intro us vs _ key e he
    exact recorded_calls hstart us key e he
  · intro us t vs _ id device decision htask hreply
    have hanswer := resolve_replied (hfresh.calls us) htask hreply
    have hlooked : ∃ key, keyFor (machineAfter m us).pending id = some key := by
      generalize hr : (Except.ok .applied : Except StorageError ApprovalOutcome) = r at hanswer
      cases hanswer with
      | unknown _ _ => cases hr
      | repeated _ _ _ _ _ _ _ => cases hr
      | answered key _ _ hkey _ _ _ _ _ => exact ⟨key, hkey⟩
    obtain ⟨key, hkey⟩ := hlooked
    have happlied : AppliedTo (machineAfter m us) t key :=
      ⟨id, device, decision, htask, hkey, hreply⟩
    obtain ⟨_, _, _, e, htask', _, he, hdevice, hbefore, _⟩ := happlied.marks (hfresh.calls us)
    rw [htask] at htask'
    obtain ⟨_, rfl, _⟩ := PermissionCall.resolve.inj htask'
    exact ⟨key, e, hkey, he, hdevice, hbefore⟩
  · intro us t vs t' ws hts key happlied
    obtain ⟨_, _, _, e, _, _, he, _⟩ := happlied.marks (hfresh.calls us)
    obtain ⟨e', he', hmarked, _⟩ := hthen us t vs t' ws hts key e happlied he
    exact (marked_repeats (hfresh.calls (us ++ t :: vs)) he' hmarked).1
  · intro us t vs t' ws hts key e decision happlied he htask
    obtain ⟨e', he', hmarked, hdevice⟩ := hthen us t vs t' ws hts key e happlied he
    rw [← hdevice] at htask
    exact (marked_repeats (hfresh.calls (us ++ t :: vs)) he' hmarked).2 decision htask
  · intro us t vs _ id device decision htask hrefused
    rw [machineAfter_snoc]
    exact refused_inert htask hrefused

/-- A request, a verdict from another phone, one in time and one too many. -/
def permissionCalls : List PermissionTry :=
  [⟨.request "w" "r" "PH-1" "rm -r" 10, 9, fun _ => {}⟩,
    ⟨.resolve "r" "PH-2" .allow, 9, fun _ => { clock := 5 }⟩,
    ⟨.resolve "r" "PH-1" .allow, 9, fun _ => { clock := 9 }⟩,
    ⟨.resolve "w:r" "PH-1" .reject, 9, fun _ => { clock := 9 }⟩]

theorem permission_manager_safety_sample :
    PermissionLaw (oneWorkflow "w") permissionCalls ∧
      (machineAfter (oneWorkflow "w") permissionCalls).db.requests.map
        RequestRow.resolvePayload = [some "allow:rm -r"] :=
  ⟨permission_manager_safety (oneWorkflow "w") (by decide) rfl permissionCalls,
    by decide⟩

end Runs

end Calcar.Agent
