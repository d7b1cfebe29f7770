import Calcar.Verified.RequestRows

/-!
# Delivering inputs

The row of an input is a latch.  Only the update that settles it lets
`deliver` answer `Delivered`, and it stays settled, so whatever happens between
two statements an input is delivered once at most
(`delivered_at_most_once`).

Two inputs that are kept under different keys do not see each other; two
inputs kept under one key share the latch (`independent_iff`).

## Main results

* `delivered_at_most_once_and_independent_iff` — at most one delivery for each
  pair, and independence exactly where the keys differ.
* `keys_collide` — two inputs of different workflows under one key.
-/

namespace Calcar.Agent

open Lib

/-! ## Rules for programs of the agent -/

section Rules

variable {α β ε : Type} {j : Nat} {m : Machine}

theorem meets_perform {c : Cmd} {Q : c.Ans → Machine → Prop} {C : Machine → Prop} (hC : C m)
    (h : ∀ o, C (c.run o m).1 ∧ Q (c.run o m).2 (c.run o m).1) :
    (Prog.perform c).Meets exec j Q C m := by
  refine ⟨hC, fun o m₁ r hx => ?_⟩
  have hrun : c.run o m = (m₁, r) := Option.some.inj hx
  have hstep := h o
  rw [hrun] at hstep
  exact hstep

/-- A statement fails and changes nothing, or does its step. -/
theorem meets_sql {s : Sql} {Q : Except StorageError s.Ret → Machine → Prop}
    {C : Machine → Prop} (hC : C m) (hfault : Q (.error .sqlite) m)
    (hok : C { m with db := (s.step m.db).1 } ∧
      Q (s.step m.db).2 { m with db := (s.step m.db).1 }) :
    (sql s).Meets exec j Q C m := by
  refine meets_perform hC fun o => ?_
  rw [Cmd.run]
  by_cases hf : o.fault = true
  · rw [if_pos hf]
    exact ⟨hC, hfault⟩
  · rw [if_neg hf]
    exact hok

theorem meets_now {Q : Int → Machine → Prop} {C : Machine → Prop} (hC : C m)
    (h : ∀ t, Q t m) : now.Meets exec j Q C m :=
  meets_perform hC fun o => ⟨hC, h o.clock⟩

theorem meets_andThen {World O : Type} {ex : Exec Cmd Cmd.Ans World O} {x : World}
    {p : Code (Except ε α)} {f : α → Code (Except ε β)}
    {Q : Except ε β → World → Prop} {C : World → Prop}
    (h : p.Meets ex j (fun a x => C x →
      match a with
      | .error e => Q (.error e) x
      | .ok y => (f y).Meets ex j Q C x) C x) :
    (andThen p f).Meets ex j Q C x := by
  unfold andThen
  refine Prog.meets_bind (h.mono (fun a x ha hC => ?_) fun _ hC => hC)
  cases a with
  | error e => exact ⟨hC, ha hC⟩
  | ok y => exact ha hC

theorem andThen_only {P : Cmd → Prop} {p : Code (Except ε α)} {f : α → Code (Except ε β)}
    (hp : p.Only P) (hf : ∀ a, (f a).Only P) : (andThen p f).Only P := by
  unfold andThen
  refine hp.bind fun a => ?_
  cases a with
  | error e => trivial
  | ok x => exact hf x

/-- What every command keeps, a program keeps to any point. -/
theorem meets_keep {I : Machine → Prop} {P : Cmd → Prop} {p : Code α} (hp : p.Only P)
    (hstep : ∀ c o m, P c → I m → I (c.run o m).1) (hm : I m) :
    p.Meets exec j (fun _ => I) I m := by
  refine hp.meets (fun c o w w' r hc hx hw => ?_) hm
  have hrun : c.run o w = (w', r) := Option.some.inj hx
  have hnext := hstep c o w hc hw
  rw [hrun] at hnext
  exact hnext

end Rules

/-! ## The request functions -/

/-- The commands the request functions give for request `k`. -/
def RequestCmd (k : String) (kind : Option RequestKind) : Cmd → Prop
  | .now => True
  | .sql s => Keyed k kind s
  | _ => False

theorem createPendingRequest_only (k w : String) (kind : RequestKind) (expiresAt : Option Int) :
    (createPendingRequest k w kind expiresAt).Only (RequestCmd k (some kind)) := by
  refine andThen_only (Prog.only_perform trivial) fun row => ?_
  cases row with
  | none => trivial
  | some row => exact ⟨trivial, fun t => Prog.only_perform ⟨rfl, rfl⟩⟩

theorem resolvePendingRequest_only (k payload : String) (kind : Option RequestKind) :
    (resolvePendingRequest k payload).Only (RequestCmd k kind) := by
  refine ⟨trivial, fun t => ?_⟩
  refine andThen_only (Prog.only_perform rfl) fun _ => ?_
  refine andThen_only (Prog.only_perform rfl) fun updated => ?_
  by_cases h : updated = 1
  · rw [if_pos h]
    trivial
  · rw [if_neg h]
    refine andThen_only (Prog.only_perform rfl) fun state => ?_
    match state with
    | none => trivial
    | some .pending => trivial
    | some .resolved => trivial
    | some .expired => trivial

theorem deliver_only (w i : String) :
    (deliver w i).Only (RequestCmd (storageKey w i) (some .input)) := by
  unfold deliver
  by_cases hw : w = ""
  · rw [if_pos hw]
    trivial
  · rw [if_neg hw]
    by_cases hi : i = ""
    · rw [if_pos hi]
      trivial
    · rw [if_neg hi]
      refine (createPendingRequest_only _ w .input none).bind fun a => ?_
      cases a with
      | ok _ => exact andThen_only (resolvePendingRequest_only _ _ _) fun _ => trivial
      | error first =>
          refine (resolvePendingRequest_only _ _ _).bind fun b => ?_
          match b with
          | .ok () => trivial
          | .error .sqlite => trivial
          | .error (.invalidState _) => trivial
          | .error (.notFound _) => trivial
          | .error (.alreadyResolved _) => trivial
          | .error (.expired _) => trivial

/-- Every command leaves a settled request settled, a held one held. -/
theorem Settled.run {k : String} {m : Machine} (h : Settled k m.db) (c : Cmd) (o : Oracle) :
    Settled k (c.run o m).1.db :=
  run_db m o h fun s _ => h.step s

theorem Settled.keep {α : Type} {k : String} {m : Machine} {j : Nat} (h : Settled k m.db)
    (p : Code α) : p.Meets exec j (fun _ m => Settled k m.db) (fun m => Settled k m.db) m :=
  meets_keep (Prog.only_of_all (fun _ => trivial) p) (P := fun _ => True)
    (fun c o _ _ hm => hm.run c o) h

section Resolve

variable {k payload : String} {m : Machine} {j : Nat}

/-- What the last statement of `resolve_pending_request` can lead to. -/
theorem meets_state {Q : Except StorageError Unit → Machine → Prop}
    (hfault : Q (.error .sqlite) m)
    (hstate : ∀ r, m.db.requestOf k = some r →
      Q (.error (if r.state = .expired then .expired k else .alreadyResolved k)) m)
    (hnone : m.db.requestOf k = none → Q (.error (.notFound ("request " ++ k))) m) :
    (andThen (sql (.selectRequestState k)) fun state =>
      match state with
      | some .expired => return .error (.expired k)
      | some _ => return .error (.alreadyResolved k)
      | none => return .error (.notFound ("request " ++ k))).Meets exec j Q
        (fun _ => True) m := by
  refine meets_andThen (meets_sql trivial (fun _ => hfault) ⟨trivial, fun _ => ?_⟩)
  have hstep : (Sql.selectRequestState k).step m.db =
      (m.db, .ok ((m.db.requestOf k).map RequestRow.state)) := rfl
  rw [hstep]
  cases hr : m.db.requestOf k with
  | none => exact ⟨trivial, hnone hr⟩
  | some r =>
      have hq := hstate r hr
      simp only [Option.map_some]
      cases hs : r.state with
      | expired =>
          rw [if_pos hs] at hq
          exact ⟨trivial, hq⟩
      | pending =>
          rw [if_neg (by rw [hs]; decide)] at hq
          exact ⟨trivial, hq⟩
      | resolved =>
          rw [if_neg (by rw [hs]; decide)] at hq
          exact ⟨trivial, hq⟩

/-- A settled request is not resolved again. -/
theorem resolve_closed (h : Settled k m.db) :
    (resolvePendingRequest k payload).Meets exec j (fun a _ => a ≠ .ok ()) (fun _ => True) m := by
  refine Prog.meets_bind (meets_now trivial fun t _ => ?_)
  refine meets_andThen (meets_sql trivial (fun _ hc => by cases hc) ⟨trivial, fun _ => ?_⟩)
  have h₁ : Settled k (m.db.updateExpired k t) := h.step (.updateExpired k t)
  have hnone : ((m.db.updateExpired k t).updateResolved k payload t).2 = 0 :=
    updateResolved_settled h₁
  refine meets_andThen (meets_sql trivial (fun _ hc => by cases hc) ⟨trivial, fun _ => ?_⟩)
  show Prog.Meets _ _ _ _ (if ((m.db.updateExpired k t).updateResolved k payload t).2 = 1 then _
    else _) _
  rw [hnone, if_neg (by decide)]
  exact meets_state (fun hc => by cases hc) (fun _ _ hc => by cases hc) fun _ hc => by cases hc

/-- A request that was resolved is settled. -/
theorem resolve_settles :
    (resolvePendingRequest k payload).Meets exec j (fun a m => a = .ok () → Settled k m.db)
      (fun _ => True) m := by
  refine Prog.meets_bind (meets_now trivial fun t _ => ?_)
  refine meets_andThen (meets_sql trivial (fun _ hc => by cases hc) ⟨trivial, fun _ => ?_⟩)
  refine meets_andThen (meets_sql trivial (fun _ hc => by cases hc) ⟨trivial, fun _ => ?_⟩)
  show Prog.Meets _ _ _ _ (if ((m.db.updateExpired k t).updateResolved k payload t).2 = 1 then _
    else _) _
  by_cases hn : ((m.db.updateExpired k t).updateResolved k payload t).2 = 1
  · rw [if_pos hn]
    have hone : ((m.db.updateExpired k t).updateResolved k payload t).2 ≠ 0 := by omega
    exact ⟨trivial, fun _ => settled_updateResolved hone⟩
  · rw [if_neg hn]
    exact meets_state (fun hc => by cases hc) (fun _ _ hc => by cases hc)
      fun _ hc => by cases hc

/-- A request that is held is not unknown. -/
theorem resolve_held (h : Held k m.db) :
    (resolvePendingRequest k payload).Meets exec j
      (fun a _ => ∀ e, a = .error e → e = .sqlite ∨ e = .alreadyResolved k ∨ e = .expired k)
      (fun _ => True) m := by
  have hsqlite : ∀ e, (Except.error StorageError.sqlite : Except StorageError Unit) = .error e →
      e = .sqlite ∨ e = .alreadyResolved k ∨ e = .expired k := by
    intro e he
    cases he
    exact .inl rfl
  refine Prog.meets_bind (meets_now trivial fun t _ => ?_)
  refine meets_andThen (meets_sql trivial (fun _ => hsqlite) ⟨trivial, fun _ => ?_⟩)
  have h₁ : Held k (m.db.updateExpired k t) := h.step (.updateExpired k t)
  refine meets_andThen (meets_sql trivial (fun _ => hsqlite) ⟨trivial, fun _ => ?_⟩)
  have h₂ : Held k ((m.db.updateExpired k t).updateResolved k payload t).1 :=
    h₁.step (.updateResolved k payload t)
  show Prog.Meets _ _ _ _ (if ((m.db.updateExpired k t).updateResolved k payload t).2 = 1 then _
    else _) _
  by_cases hn : ((m.db.updateExpired k t).updateResolved k payload t).2 = 1
  · rw [if_pos hn]
    exact ⟨trivial, fun e he => by cases he⟩
  · rw [if_neg hn]
    refine meets_state hsqlite (fun r _ e he => ?_) fun hno => absurd h₂ (requestOf_eq_none.mp hno)
    by_cases hs : r.state = .expired
    · rw [if_pos hs] at he
      cases he
      exact .inr (.inr rfl)
    · rw [if_neg hs] at he
      cases he
      exact .inr (.inl rfl)

end Resolve

/-! ## What `deliver` answers -/

section Deliver

variable {k w i : String} {m : Machine} {j : Nat}

theorem confirm_closed {first : StorageError} (h : Settled k m.db) :
    (confirmClaim k first).Meets exec j (fun a _ => a ≠ .ok .delivered) (fun _ => True) m := by
  refine Prog.meets_bind ((resolve_closed h).mono (fun a m ha _ => ?_) fun _ _ => trivial)
  match a, ha with
  | .ok (), ha => exact absurd rfl ha
  | .error .sqlite, _ => exact ⟨trivial, fun hc => by cases hc⟩
  | .error (.invalidState _), _ => exact ⟨trivial, fun hc => by cases hc⟩
  | .error (.notFound _), _ => exact ⟨trivial, fun hc => by cases hc⟩
  | .error (.alreadyResolved _), _ => exact ⟨trivial, fun hc => by cases hc⟩
  | .error (.expired _), _ => exact ⟨trivial, fun hc => by cases hc⟩

/-- **A settled input is not delivered again.** -/
theorem deliver_closed (h : Settled (storageKey w i) m.db) :
    (deliver w i).Meets exec j (fun a _ => a ≠ .ok .delivered) (fun _ => True) m := by
  unfold deliver
  by_cases hw : w = ""
  · rw [if_pos hw]
    exact ⟨trivial, fun hc => by cases hc⟩
  · rw [if_neg hw]
    by_cases hi : i = ""
    · rw [if_pos hi]
      exact ⟨trivial, fun hc => by cases hc⟩
    · rw [if_neg hi]
      refine Prog.meets_bind ((h.keep _).mono (fun a m hm _ => ?_) fun _ _ => trivial)
      cases a with
      | error first => exact confirm_closed hm
      | ok _ =>
          refine meets_andThen ((resolve_closed hm).mono (fun b m hb _ => ?_) fun _ hc => hc)
          cases b with
          | error e => exact fun hc => by cases hc
          | ok _ => exact absurd rfl hb

theorem confirm_settles {first : StorageError} :
    (confirmClaim k first).Meets exec j (fun a m => a = .ok .delivered → Settled k m.db)
      (fun _ => True) m := by
  refine Prog.meets_bind (resolve_settles.mono (fun a m ha _ => ?_) fun _ _ => trivial)
  match a, ha with
  | .ok (), ha => exact ⟨trivial, fun _ => ha rfl⟩
  | .error .sqlite, _ => exact ⟨trivial, fun hc => by cases hc⟩
  | .error (.invalidState _), _ => exact ⟨trivial, fun hc => by cases hc⟩
  | .error (.notFound _), _ => exact ⟨trivial, fun hc => by cases hc⟩
  | .error (.alreadyResolved _), _ => exact ⟨trivial, fun hc => by cases hc⟩
  | .error (.expired _), _ => exact ⟨trivial, fun hc => by cases hc⟩

/-- **An input that was delivered is settled.** -/
theorem deliver_settles :
    (deliver w i).Meets exec j
      (fun a m => a = .ok .delivered → Settled (storageKey w i) m.db) (fun _ => True) m := by
  unfold deliver
  by_cases hw : w = ""
  · rw [if_pos hw]
    exact ⟨trivial, fun hc => by cases hc⟩
  · rw [if_neg hw]
    by_cases hi : i = ""
    · rw [if_pos hi]
      exact ⟨trivial, fun hc => by cases hc⟩
    · rw [if_neg hi]
      have hany : (createPendingRequest (storageKey w i) w .input none).Meets exec j
          (fun _ _ => True) (fun _ => True) m :=
        meets_keep (Prog.only_of_all (fun _ => trivial) _) (P := fun _ => True)
          (fun _ _ _ _ _ => trivial) trivial
      refine Prog.meets_bind (hany.mono (fun a m _ _ => ?_) fun _ hc => hc)
      cases a with
      | error first => exact confirm_settles
      | ok _ =>
          refine meets_andThen (resolve_settles.mono (fun b m hb _ => ?_) fun _ hc => hc)
          cases b with
          | error e => exact fun hc => by cases hc
          | ok _ => exact ⟨trivial, fun _ => hb rfl⟩

/-- The errors the routes answer with a 4xx status. -/
def StorageError.Refusal : StorageError → Prop
  | .notFound _ => True
  | .invalidState _ => True
  | _ => False

/-- For a known workflow a claim fails in the database or leaves a row. -/
theorem create_known {kind : RequestKind} {expiresAt : Option Int}
    (hw : (m.db.getWorkflow w).isSome = true) :
    (createPendingRequest k w kind expiresAt).Meets exec j
      (fun a m => (∀ e, a = .error e → e = .sqlite) ∧ (a = .ok () → Held k m.db))
      (fun _ => True) m := by
  have hsqlite : (∀ e, (Except.error StorageError.sqlite : Except StorageError Unit) = .error e →
      e = .sqlite) ∧
      ((Except.error StorageError.sqlite : Except StorageError Unit) = .ok () → Held k m.db) := by
    refine ⟨fun e he => ?_, fun hc => by cases hc⟩
    cases he
    rfl
  refine meets_andThen (p := sql (.selectWorkflow w))
    (meets_sql trivial (fun _ => hsqlite) ⟨trivial, fun _ => ?_⟩)
  obtain ⟨row, hrow⟩ := Option.isSome_iff_exists.mp hw
  have hstep : (Sql.selectWorkflow w).step m.db = (m.db, .ok (some row)) := by
    rw [Sql.step, hrow]
  rw [hstep]
  refine Prog.meets_bind (meets_now trivial fun t _ => ?_)
  refine meets_sql (C := fun _ => True) trivial hsqlite ⟨trivial, ?_⟩
  rw [Sql.step]
  cases hins : m.db.insertRequest k w kind expiresAt t with
  | error e =>
      have hsq : e = .sqlite := by
        unfold Db.insertRequest at hins
        split at hins
        · cases hins
          rfl
        · split at hins <;> cases hins
          rfl
      rw [hsq]
      exact hsqlite
  | ok db' =>
      refine ⟨(fun e he => by cases he), fun _ => ?_⟩
      rw [(insertRequest_ok hins).2.2]
      exact ⟨_, List.mem_append_right _ (List.mem_singleton_self _), rfl⟩

/-- After a claim that failed in the database nothing is refused. -/
theorem confirm_unrefused :
    (confirmClaim k .sqlite).Yields fun a => ∀ e, a = .error e → ¬e.Refusal := by
  have hsqlite : ∀ e, (Except.error StorageError.sqlite : Except StorageError RouteOutcome) =
      .error e → ¬e.Refusal := by
    intro e he
    cases he
    exact id
  unfold confirmClaim
  refine Prog.Yields.bind (fun a => ?_) _
  match a with
  | .ok () => exact fun e he => by cases he
  | .error (.alreadyResolved _) => exact fun e he => by cases he
  | .error (.expired _) => exact fun e he => by cases he
  | .error .sqlite => exact hsqlite
  | .error (.invalidState _) => exact hsqlite
  | .error (.notFound _) => exact hsqlite

/-- **A refused input leaves the machine as it was.** -/
theorem deliver_refused (hw : (m.db.getWorkflow w).isSome = true) :
    (deliver w i).Meets exec j
      (fun a m' => ∀ e, a = .error e → e.Refusal → m' = m) (fun _ => True) m := by
  unfold deliver
  by_cases hw₀ : w = ""
  · rw [if_pos hw₀]
    exact ⟨trivial, fun _ _ _ => rfl⟩
  · rw [if_neg hw₀]
    by_cases hi : i = ""
    · rw [if_pos hi]
      exact ⟨trivial, fun _ _ _ => rfl⟩
    · rw [if_neg hi]
      refine Prog.meets_bind ((create_known hw).mono (fun a m₁ ha _ => ?_) fun _ hc => hc)
      have hgen : ∀ {q : Code (Except StorageError RouteOutcome)} {m₁ : Machine},
          q.Meets exec j (fun a _ => ∀ e, a = .error e → ¬e.Refusal) (fun _ => True) m₁ →
          q.Meets exec j (fun a m' => ∀ e, a = .error e → e.Refusal → m' = m)
            (fun _ => True) m₁ :=
        fun hq => hq.mono (fun a _ hne e he hr => absurd hr (hne e he)) fun _ hc => hc
      cases a with
      | error first =>
          have hfirst : first = .sqlite := ha.1 first rfl
          subst hfirst
          exact hgen confirm_unrefused.meets
      | ok _ =>
          have hheld := ha.2 rfl
          refine hgen (meets_andThen ?_)
          refine ((resolve_held hheld).mono (fun b m hb _ => ?_) fun _ hc => hc)
          cases b with
          | ok _ => exact ⟨trivial, fun e he => by cases he⟩
          | error e₁ =>
              intro e he hr
              cases he
              rcases hb e₁ rfl with h | h | h
              · rw [h] at hr; exact hr
              · rw [h] at hr; exact hr
              · rw [h] at hr; exact hr

end Deliver

/-! ## Deliveries one after another -/

/-- The deliveries of the router, by workflow and input. -/
def deliverPair (p : String × String) : Code (Except StorageError RouteOutcome) := deliver p.1 p.2

/-- The key a pair is kept under. -/
def pairKey (p : String × String) : String := storageKey p.1 p.2

/-- One call of the router, cut short or not. -/
abbrev Delivery : Type := Prog.Try (String × String) Oracle

/-- Whether a call reported `Delivered`. -/
def saysDelivered : Option (Except StorageError RouteOutcome) → Bool
  | some (.ok .delivered) => true
  | _ => false

/-- How often a pair was reported `Delivered`. -/
def timesDelivered (m : Machine) (ts : List Delivery) (p : String × String) : Nat :=
  (Prog.replies exec deliverPair m ts).countP fun r => decide (r.1 = p) && saysDelivered r.2

/-- What the calls for one pair reported. -/
def outcomes (m : Machine) (ts : List Delivery) (p : String × String) :
    List ((String × String) × Option (Except StorageError RouteOutcome)) :=
  (Prog.replies exec deliverPair m ts).filter fun r => decide (r.1 = p)

/-- Calls for `p` make no difference to what the calls for `q` report. -/
def Independent (p q : String × String) : Prop :=
  ∀ m ts, outcomes m ts q = outcomes m (ts.filter fun t => decide (t.task ≠ p)) q

/-- **Every pair is reported `Delivered` at most once.** -/
theorem delivered_at_most_once (m : Machine) (ts : List Delivery) (p : String × String) :
    timesDelivered m ts p ≤ 1 := by
  refine Prog.wins_at_most_once (fun m => Settled (pairKey p) m.db) ?_ ?_ m ts
  · intro t w hw
    exact (Prog.meets_attempt (hw.keep (deliverPair t.task)) t.steps t.oracles).1
  · intro t w hwin
    rw [Bool.and_eq_true, decide_eq_true_eq] at hwin
    obtain ⟨htask, hsays⟩ := hwin
    have hres : (t.at exec deliverPair w).2 = some (.ok .delivered) := by
      cases hr : (t.at exec deliverPair w).2 with
      | none => rw [hr] at hsays; cases hsays
      | some a =>
          rw [hr] at hsays
          match a, hsays with
          | .ok .delivered, _ => rfl
    rw [← htask]
    constructor
    · intro hdone
      have hclosed : (deliverPair t.task).Meets exec 0 (fun a _ => a ≠ .ok .delivered)
          (fun _ => True) w := deliver_closed hdone
      exact (Prog.meets_attempt hclosed t.steps t.oracles).2 _ hres rfl
    · have hsettles : (deliverPair t.task).Meets exec 0
          (fun a m => a = .ok .delivered → Settled (pairKey t.task) m.db) (fun _ => True) w :=
        deliver_settles
      exact (Prog.meets_attempt hsettles t.steps t.oracles).2 _ hres rfl

/-- A command about one request leaves the others alone. -/
theorem RequestCmd.apart {k : String} {kind : Option RequestKind} {c : Cmd}
    (hc : RequestCmd k kind c) (o : Oracle) (m : Machine) :
    others k (c.run o m).1.db = others k m.db := by
  cases c with
  | now => rfl
  | sql s =>
      obtain hm | hm := Cmd.sql_changes s o m
      · rw [hm]
      · rw [hm]
        exact Keyed.apart hc m.db
  | _ => exact absurd hc id

/-- … and does not depend on them. -/
theorem RequestCmd.alike {k k' : String} {kind : Option RequestKind} {c : Cmd}
    (hc : RequestCmd k' kind c) (hk : k' ≠ k) (o : Oracle) {m n : Machine} (h : others k m.db = others k n.db) :
    (c.run o m).2 = (c.run o n).2 ∧ others k (c.run o m).1.db = others k (c.run o n).1.db := by
  cases c with
  | now => exact ⟨rfl, h⟩
  | sql s =>
      rw [Cmd.run, Cmd.run]
      by_cases hf : o.fault = true
      · rw [if_pos hf, if_pos hf]
        exact ⟨rfl, h⟩
      · rw [if_neg hf, if_neg hf]
        exact Keyed.alike hc hk h
  | _ => exact absurd hc id

theorem deliver_apart (t : Delivery) (m : Machine) :
    others (pairKey t.task) (t.at exec deliverPair m).1.db = others (pairKey t.task) m.db :=
  (Prog.meets_attempt
    (meets_keep (deliver_only t.task.1 t.task.2) (I := fun n =>
      others (pairKey t.task) n.db = others (pairKey t.task) m.db)
      (fun _ o n hc hn => (hc.apart o n).trans hn) rfl) t.steps t.oracles).1

theorem deliver_alike {k : String} (t : Delivery) (hk : pairKey t.task ≠ k) {m n : Machine}
    (h : others k m.db = others k n.db) :
    (t.at exec deliverPair m).2 = (t.at exec deliverPair n).2 ∧
      others k (t.at exec deliverPair m).1.db = others k (t.at exec deliverPair n).1.db := by
  refine Prog.attempt_related (R := fun m n : Machine => others k m.db = others k n.db)
    (deliver_only t.task.1 t.task.2) (fun c o w v hc hR => .inr ?_) h t.steps t.oracles
  obtain ⟨hans, hnext⟩ := hc.alike hk o hR
  exact ⟨(c.run o w).1, (c.run o v).1, (c.run o w).2, rfl, by rw [hans]; rfl, hnext⟩

/-- Pairs under different keys are independent. -/
theorem independent_of_keys {p q : String × String} (hpq : p ≠ q) (hk : pairKey q ≠ pairKey p) :
    Independent p q := by
  intro m ts
  have hcongr : ts.filter (fun t => decide (t.task ≠ p)) =
      ts.filter fun t => !decide (t.task = p) := by
    apply List.filter_congr
    intro t _
    simp
  unfold outcomes
  rw [hcongr]
  refine Prog.replies_unseen
    (fun m n : Machine => others (pairKey p) m.db = others (pairKey p) n.db)
    (fun t => decide (t = p)) (fun t => decide (t = q)) ?_ ?_ ?_ ?_ rfl ts
  · intro t w v ht hR
    have htask : t.task = p := of_decide_eq_true ht
    have happart := deliver_apart t w
    rw [htask] at happart
    exact happart.trans hR
  · intro t w v _ hR
    by_cases hkey : pairKey t.task = pairKey p
    · have hw := deliver_apart t w
      have hv := deliver_apart t v
      rw [hkey] at hw hv
      exact hw.trans (hR.trans hv.symm)
    · exact (deliver_alike t hkey hR).2
  · intro t w v ht hR
    have htask : t.task = q := of_decide_eq_true ht
    exact (deliver_alike t (htask ▸ hk) hR).1
  · intro t ht
    have htask : t = q := of_decide_eq_true ht
    exact decide_eq_false fun hp => hpq (hp.symm.trans htask)

/-- The router refuses a pair with an empty id before it looks at the file. -/
def HasEmptyId (p : String × String) : Prop := p.1 = "" ∨ p.2 = ""

instance (p : String × String) : Decidable (HasEmptyId p) := by
  unfold HasEmptyId
  infer_instance

theorem deliver_empty {p : String × String} (h : HasEmptyId p) :
    ∃ e, deliverPair p = .ret (.error (.invalidState e)) := by
  unfold deliverPair deliver
  by_cases hw : p.1 = ""
  · rw [if_pos hw]
    exact ⟨_, rfl⟩
  · rw [if_neg hw, if_pos (h.resolve_left hw)]
    exact ⟨_, rfl⟩

theorem at_empty {t : Delivery} (h : HasEmptyId t.task) (m n : Machine) :
    (t.at exec deliverPair m).1 = m ∧
      (t.at exec deliverPair m).2 = (t.at exec deliverPair n).2 := by
  obtain ⟨e, he⟩ := deliver_empty h
  unfold Prog.Try.at
  rw [he]
  cases t.steps with
  | zero => exact ⟨rfl, rfl⟩
  | succ k => exact ⟨rfl, rfl⟩

/-- A pair with an empty id neither changes other outcomes nor has its own
changed. -/
theorem independent_of_empty {p q : String × String} (hpq : p ≠ q)
    (h : HasEmptyId p ∨ HasEmptyId q) : Independent p q := by
  intro m ts
  have hcongr : ts.filter (fun t => decide (t.task ≠ p)) =
      ts.filter fun t => !decide (t.task = p) := by
    apply List.filter_congr
    intro t _
    simp
  have hapart : ∀ t : String × String, decide (t = q) = true → decide (t = p) = false := by
    intro t ht
    have htask : t = q := of_decide_eq_true ht
    exact decide_eq_false fun hp => hpq (hp.symm.trans htask)
  unfold outcomes
  rw [hcongr]
  rcases h with hp | hq
  · refine Prog.replies_unseen (fun m n => m = n) (fun t => decide (t = p))
      (fun t => decide (t = q)) ?_ ?_ ?_ hapart rfl ts
    · intro t w v ht hR
      have htask : t.task = p := of_decide_eq_true ht
      exact ((at_empty (htask ▸ hp) w v).1).trans hR
    · intro t w v _ hR
      rw [hR]
    · intro t w v _ hR
      rw [hR]
  · refine Prog.replies_unseen (fun _ _ => True) (fun t => decide (t = p))
      (fun t => decide (t = q)) (fun _ _ _ _ _ => trivial)
      (fun _ _ _ _ _ => trivial) ?_ hapart trivial ts
    intro t w v ht _
    have htask : t.task = q := of_decide_eq_true ht
    exact (at_empty (htask ▸ hq) w v).2

/-! ## Two pairs under one key -/

/-- A generic workflow without a session. -/
def genericRow (w : String) : WorkflowRow where
  workflowId := w
  provider := Provider.generic.toI32
  state := WorkflowState.running.toI32
  title := w
  providerSessionId := none
  createdAtMillis := 0
  updatedAtMillis := 0

/-- A file with two workflows and no request. -/
def twoWorkflows (w₁ w₂ : String) : Machine :=
  { db := { workflows := [genericRow w₁, genericRow w₂] } }

/-- A call that is not cut short and meets no fault. -/
def wholeCall (p : String × String) : Delivery := ⟨p, 10, fun _ => {}⟩

theorem twoWorkflows_known {w₁ w₂ w : String} (h : w = w₁ ∨ w = w₂) :
    ((twoWorkflows w₁ w₂).db.getWorkflow w).isSome = true := by
  unfold Db.getWorkflow twoWorkflows
  rw [List.find?_isSome]
  rcases h with rfl | rfl
  · exact ⟨genericRow w, List.mem_cons_self, decide_eq_true rfl⟩
  · exact ⟨genericRow w, List.mem_cons_of_mem _ List.mem_cons_self, decide_eq_true rfl⟩

/-- The first call for a pair on a file without requests is delivered. -/
theorem wholeCall_delivered {p : String × String} {m : Machine} (hp : ¬HasEmptyId p)
    (hw : (m.db.getWorkflow p.1).isSome = true) (hm : m.db.requests = []) :
    ((wholeCall p).at exec deliverPair m).2 = some (.ok .delivered) := by
  obtain ⟨row, hrow⟩ := Option.isSome_iff_exists.mp hw
  have hw₀ : p.1 ≠ "" := fun h => hp (.inl h)
  have hi₀ : p.2 ≠ "" := fun h => hp (.inr h)
  simp [Prog.Try.at, wholeCall, deliverPair, deliver, hw₀, hi₀, createPendingRequest,
    resolvePendingRequest, andThen, getWorkflow, sql, now, Prog.attempt, exec, Cmd.run, Sql.step,
    hrow, hm, Sql.wrote, Db.insertRequest, Db.requestOf, Db.updateExpired, Db.updateResolved,
    Db.modifyRequest, RequestRow.overdue]

/-- With one key for both, a call for `p` takes the delivery from `q`. -/
theorem not_independent {p q : String × String} (hpq : p ≠ q) (hk : pairKey p = pairKey q)
    (hp : ¬HasEmptyId p) (hq : ¬HasEmptyId q) : ¬Independent p q := by
  intro hind
  let m := twoWorkflows p.1 q.1
  have hrun := hind m [wholeCall p, wholeCall q]
  have hfirst : ((wholeCall p).at exec deliverPair m).2 = some (.ok .delivered) :=
    wholeCall_delivered hp (twoWorkflows_known (.inl rfl)) rfl
  have halone : ((wholeCall q).at exec deliverPair m).2 = some (.ok .delivered) :=
    wholeCall_delivered hq (twoWorkflows_known (.inr rfl)) rfl
  have hsettles : (deliverPair p).Meets exec 0
      (fun a m => a = .ok .delivered → Settled (pairKey p) m.db) (fun _ => True) m :=
    deliver_settles
  have hdone : Settled (pairKey q) ((wholeCall p).at exec deliverPair m).1.db :=
    hk ▸ (Prog.meets_attempt hsettles 10 fun _ => {}).2 _ hfirst rfl
  have hclosed : (deliverPair q).Meets exec 0 (fun a _ => a ≠ .ok .delivered) (fun _ => True)
      ((wholeCall p).at exec deliverPair m).1 := deliver_closed hdone
  have hlater : ((wholeCall q).at exec deliverPair ((wholeCall p).at exec deliverPair m).1).2 ≠
      some (.ok .delivered) := fun h => (Prog.meets_attempt hclosed 10 fun _ => {}).2 _ h rfl
  have hp' : (wholeCall p).task = p := rfl
  have hq' : (wholeCall q).task = q := rfl
  have hqp : q ≠ p := fun h => hpq h.symm
  simp only [outcomes, Prog.replies, List.filter, hp', hq', hpq,
    decide_false, decide_true, ne_eq, not_true, not_false_eq_true, hqp, List.cons.injEq,
    Prod.mk.injEq, and_true, true_and] at hrun
  exact hlater (hrun.trans halone)

theorem independent_iff {p q : String × String} (hpq : p ≠ q) :
    Independent p q ↔ pairKey p ≠ pairKey q ∨ HasEmptyId p ∨ HasEmptyId q := by
  constructor
  · intro hind
    by_cases hp : HasEmptyId p
    · exact .inr (.inl hp)
    · by_cases hq : HasEmptyId q
      · exact .inr (.inr hq)
      · exact .inl fun hk => not_independent hpq hk hp hq hind
  · rintro (hk | he)
    · exact independent_of_keys hpq hk.symm
    · exact independent_of_empty hpq he

/-- **Exactly once, and how far apart.**  A pair is reported `Delivered` at
most once, and a different pair is independent of it exactly where the two are
kept under different keys or one is refused outright. -/
theorem delivered_at_most_once_and_independent_iff (p q : String × String) (hpq : p ≠ q) :
    (∀ m ts, timesDelivered m ts p ≤ 1) ∧
      (Independent p q ↔
        storageKey p.1 p.2 ≠ storageKey q.1 q.2 ∨
          (p.1 = "" ∨ p.2 = "") ∨ (q.1 = "" ∨ q.2 = "")) :=
  ⟨fun m ts => delivered_at_most_once m ts p, independent_iff hpq⟩

theorem delivered_and_independent_sample :
    (∀ m ts, timesDelivered m ts ("wf-1", "in-1") ≤ 1) ∧
      Independent ("wf-1", "in-1") ("wf-2", "in-1") := by
  have h := delivered_at_most_once_and_independent_iff ("wf-1", "in-1") ("wf-2", "in-1")
    (by decide)
  exact ⟨h.1, h.2.mpr (.inl (by decide))⟩

/-- **Two workflows, one key**: the input `b:c` of workflow `a` and the input
`c` of workflow `a:b`.  Once the first is delivered the second, never sent
before, is a duplicate. -/
theorem keys_collide :
    outcomes (twoWorkflows "a" "a:b") [wholeCall ("a", "b:c"), wholeCall ("a:b", "c")]
        ("a:b", "c") = [(("a:b", "c"), some (.ok .duplicate))] ∧
      outcomes (twoWorkflows "a" "a:b") [wholeCall ("a:b", "c")] ("a:b", "c") =
        [(("a:b", "c"), some (.ok .delivered))] ∧
      ¬Independent ("a", "b:c") ("a:b", "c") := by
  refine ⟨rfl, rfl, ?_⟩
  exact not_independent (by decide) (by decide) (by decide) (by decide)

end Calcar.Agent
