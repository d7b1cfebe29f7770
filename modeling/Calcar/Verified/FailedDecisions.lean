import Calcar.Lib.Attempt
import Calcar.Verified.TwoStores

/-!
# Decisions that fail

A decision on a pairing session that is refused as a conflict, or that meets a store
that fails, changes nothing: not the row, not the live entry, not the grants.  Only
the terminal answers mark the session consumed.  A decision made later takes effect,
unless it comes in the last part of a second before the deadline, which the live entry
keeps in whole seconds only.

Any statement and any Redis command of the failing call may fail, and time may pass
before each.  A commit that fails has rolled back.

## Main results

* `failed_changes_nothing` — what a failing call leaves.
* `decision_lands_iff` — when a decision takes effect.
* `failed_decision_atomic` — the two together.
-/

namespace Calcar.FailedDecisions

open Lib Pg Rd TwoStores

variable {w w₁ w' v : World} {id : String} {i : Nat}

/-! ## Calls that take time -/

/-- A commit that the caller sees fail was not carried out. -/
def rollsBack : Fault → Core → Bool
  | .unacked, .pg .commit => false
  | _, _ => true

theorem rollsBack_rd (f : Fault) (c : RdCmd) : rollsBack f (.rd c) = true := by
  cases f <;> rfl

/-- A command that is carried out after a while. -/
def execLate : Exec Core Core.Ans World (Oracle × Nat)
  | i, c, o, w =>
      if rollsBack o.1.fault c = true then Core.exec i c o.1 (w.pass o.2) else none

/-- A call whose commands may fail and take their time. -/
abbrev Runs {α : Type} (i : Nat) (p : Core.M α) : World → α → World → Prop :=
  Prog.Runs execLate (fun _ => True) i p

/-- The row, the live entry and the grants are what they were. -/
structure Untouched (w w' : World) : Prop where
  tables : w'.pg.toTables = w.pg.toTables
  entries : w'.rd.pairing = w.rd.pairing
  later : w.rd.now ≤ w'.rd.now

theorem Untouched.refl (w : World) : Untouched w w := ⟨rfl, rfl, Int.le_refl _⟩

theorem Untouched.trans (h : Untouched w w₁) (h' : Untouched w₁ w') : Untouched w w' where
  tables := h'.tables.trans h.tables
  entries := h'.entries.trans h.entries
  later := Int.le_trans h.later h'.later

theorem Untouched.pass (w : World) (d : Nat) : Untouched w (w.pass d) where
  tables := rfl
  entries := rfl
  later := Int.le_add_of_nonneg_right (Int.natCast_nonneg d)

theorem Untouched.session (h : Untouched w w') (x : String) :
    w'.pg.session x = w.pg.session x := by
  show w'.pg.toTables.session x = _
  rw [h.tables]

/-- Time only takes live entries away. -/
theorem Untouched.live (h : Untouched w w') {x : PairingHash} (hx : liveHash w' id = some x) :
    liveHash w id = some x := by
  unfold liveHash at hx ⊢
  rw [h.entries] at hx
  exact TtlMap.get_later h.later hx

/-! ## Programs that change nothing -/

section Clean

variable {α β : Type} {P : α → Prop} {Q : β → Prop}

/-- Every run leaves everything as it was, or returns a value in `P`. -/
def Clean (i : Nat) (P : α → Prop) (p : Core.M α) : Prop :=
  ∀ w a w', Runs i p w a w' → Untouched w w' ∨ P a

/-- Every run leaves everything as it was. -/
abbrev Reads (i : Nat) (p : Core.M α) : Prop := Clean i (fun _ => False) p

theorem Reads.untouched {p : Core.M α} (hp : Reads i p) {a : α} (h : Runs i p w a w') :
    Untouched w w' := (hp w a w' h).resolve_right id

theorem Reads.clean {p : Core.M α} (hp : Reads i p) : Clean i P p :=
  fun _ _ _ h => .inl (hp.untouched h)

theorem clean_ret (a : α) : Clean i P (.ret a : Core.M α) := by
  intro w b w' h
  obtain ⟨-, rfl⟩ := Prog.runs_ret.mp h
  exact .inl (.refl _)

theorem yields_runs {p : Core.M α} (hp : p.Yields P) {a : α} (h : Runs i p w a w') : P a := by
  induction h with
  | ret a w => exact hp
  | call _ _ _ ih => exact ih (hp _)

/-- Where the first part may have changed something, the rest returns a value in `Q`. -/
theorem Clean.bind {p : Core.M α} {f : α → Core.M β} (hp : Clean i P p)
    (hf : ∀ a, Clean i Q (f a)) (hy : ∀ a, P a → (f a).Yields Q) : Clean i Q (p >>= f) := by
  intro w b w' h
  obtain ⟨a, w₁, hrun, hrest⟩ := Prog.runs_bind.mp h
  cases hp w a w₁ hrun with
  | inr ha => exact .inr (yields_runs (hy a ha) hrest)
  | inl hfirst =>
      cases hf a w₁ b w' hrest with
      | inl hsecond => exact .inl (hfirst.trans hsecond)
      | inr hb => exact .inr hb

theorem Reads.bind {p : Core.M α} {f : α → Core.M β} (hp : Reads i p)
    (hf : ∀ a, Clean i Q (f a)) : Clean i Q (p >>= f) :=
  Clean.bind hp hf fun _ h => h.elim

/-- One command: the pause before it changes nothing. -/
theorem reads_perform {c : Core}
    (h : ∀ o w w' r, Core.exec i c o w = some (w', r) → Untouched w w') :
    Reads i (Core.perform c) := by
  intro w r w' hrun
  obtain ⟨o, -, hx⟩ := Prog.runs_perform.mp hrun
  rw [execLate] at hx
  by_cases hback : rollsBack o.1.fault c = true
  · rw [if_pos hback] at hx
    exact .inl ((Untouched.pass w o.2).trans (h o.1 _ _ _ hx))
  · rw [if_neg hback] at hx
    cases hx

/-- A statement of a transaction that is not its end, or a rollback. -/
def holdsBack : PgCmd → Bool
  | .beginTx | .txSelectForUpdate _ | .txExpire _ | .txDeviceByKey _ _ | .txAddGrant _
  | .txDecide _ _ _ _ | .rollback => true
  | _ => false

/-- The statement commits nothing. -/
def Held (c : PgCmd) : Prop := ∀ p i ws, ¬PgCmd.Lands p i c ws

theorem held_of {c : PgCmd} (h : holdsBack c = true) : Held c := by
  intro p i ws hlands
  cases hlands with
  | now hcommits => cases hcommits <;> cases h
  | tx hc => rw [hc] at h; cases h

/-- A statement that has run ran in the tables that stand there. -/
theorem pg_runs {c : PgCmd} {r : Except PgErr c.Ret} (h : Runs i (Postgres.pg c) w r w') :
    ∃ o : Fault, ∃ d : Nat, ∃ p, c.exec i o (w.pass d).pg = some (p, r) := by
  obtain ⟨o, -, hx⟩ := Prog.runs_perform.mp h
  rw [execLate] at hx
  by_cases hback : rollsBack o.1.fault (.pg c) = true
  · rw [if_pos hback] at hx
    simp only [Core.exec] at hx
    split at hx
    · cases hx
    · rename_i p r' he
      simp only [Option.some.injEq, Prod.mk.injEq] at hx
      obtain ⟨-, rfl⟩ := hx
      exact ⟨o.1.fault, o.2, p, he⟩
  · rw [if_neg hback] at hx
    cases hx

theorem reads_pg {c : PgCmd} (hc : Held c) : Reads i (Postgres.pg c) := by
  refine reads_perform fun o w w' r hx => ?_
  simp only [Core.exec] at hx
  split at hx
  · cases hx
  · rename_i p r' he
    simp only [Option.some.injEq, Prod.mk.injEq] at hx
    obtain ⟨rfl, -⟩ := hx
    refine ⟨?_, rfl, Int.le_refl _⟩
    cases PgCmd.exec_tables he with
    | inl h => exact h.1
    | inr h =>
        obtain ⟨ws, hlands, -⟩ := h
        exact absurd hlands (hc _ _ _)

theorem reads_query {c : PgCmd} (hc : Held c) : Reads i (Postgres.query c) := by
  refine (reads_pg hc).bind fun r => ?_
  cases r with
  | error e => exact clean_ret _
  | ok a => exact clean_ret _

theorem reads_now : Reads i (Core.perform .now) := by
  refine reads_perform fun o w w' r hx => ?_
  simp only [Core.exec, Option.some.injEq, Prod.mk.injEq] at hx
  rw [← hx.1]
  exact .refl _

theorem reads_hgetall : Reads i (Redis.rd (.hgetallPairing id)) := by
  refine reads_perform fun o w w' r hx => ?_
  simp only [Core.exec, Option.some.injEq, Prod.mk.injEq] at hx
  have hrd : ((RdCmd.hgetallPairing id).exec i o.fault w.rd).1 = w.rd := by
    cases o.fault <;> rfl
  rw [← hx.1, hrd]
  exact .refl _

theorem failed_commit {f : Fault} {p p' : PgState} {e : PgErr} (hf : f ≠ .unacked)
    (h : (PgCmd.commit).exec i f p = some (p', .error e)) : p'.toTables = p.toTables := by
  have hstep (h : (PgCmd.commit).step i p = some (p', .error e)) : p'.toTables = p.toTables := by
    simp only [PgCmd.step] at h
    cases htx : p.txs i with
    | none =>
        simp only [htx, Option.some.injEq, Prod.mk.injEq] at h
        rw [← h.1]
    | some tx =>
        cases ha : tx.aborted with
        | true =>
            simp only [htx, ha, if_true, Option.some.injEq, Prod.mk.injEq] at h
            rw [← h.1, closeTx_toTables]
        | false => simp [htx, ha] at h
  cases f with
  | unacked => exact absurd rfl hf
  | lost =>
      have hclosed : some (closeTx p i, (.error .other : Except PgErr Unit)) =
          some (p', .error e) := h
      rw [← (Prod.mk.inj (Option.some.inj hclosed)).1, closeTx_toTables]
  | none => exact hstep ((PgCmd.exec_none rfl).symm.trans h)

/-- A commit that does not answer `ok` was rolled back. -/
theorem clean_commit : Clean i (· = .ok ()) (Postgres.pg .commit) := by
  intro w r w' hrun
  obtain ⟨⟨o, d⟩, -, hx⟩ := Prog.runs_perform.mp hrun
  have hback : o.fault ≠ .unacked := by
    intro hf
    simp [execLate, rollsBack, hf] at hx
  have hexec : execLate i (.pg .commit) (o, d) w = Core.exec i (.pg .commit) o (w.pass d) := by
    cases hf : o.fault with
    | none => simp [execLate, rollsBack, hf]
    | lost => simp [execLate, rollsBack, hf]
    | unacked => exact absurd hf hback
  rw [hexec] at hx
  simp only [Core.exec] at hx
  split at hx
  · cases hx
  · rename_i p r' he
    simp only [Option.some.injEq, Prod.mk.injEq] at hx
    obtain ⟨rfl, rfl⟩ := hx
    cases r' with
    | ok a => exact .inr rfl
    | error e =>
        refine .inl ⟨?_, rfl, (Untouched.pass w d).later⟩
        have hsame : p.toTables = (w.pass d).pg.toTables := failed_commit hback he
        exact hsame

theorem clean_query_commit : Clean i (· = .ok ()) (Postgres.query .commit) := by
  refine clean_commit.bind (fun r => ?_) fun r hr => ?_
  · cases r with
    | error e => exact clean_ret _
    | ok a => exact clean_ret _
  · subst hr
    exact rfl

end Clean

/-! ## The failing call -/

section Failing

variable {C : Crypto} {approve : Bool} {pub sig : Bytes} {granter : String}

/-- The answers after which the session is over. -/
def Terminal (r : Except Err Unit) : Prop :=
  r = .ok () ∨ r = .error .expired ∨ r = .error .gone

/-- What Postgres answers when it may have changed something. -/
def Decided (r : Except Err Unit) : Prop := r = .ok () ∨ r = .error .expired

theorem clean_finishDecision {next : Status} :
    Clean i Decided (Postgres.finishDecision id next granter sig) := by
  refine (reads_query (held_of rfl)).bind fun r => ?_
  cases r with
  | error e => exact clean_ret _
  | ok a =>
      refine clean_commit.bind (fun r => ?_) fun r hr => ?_
      · cases r with
        | error e => exact clean_ret _
        | ok a => exact clean_ret _
      · subst hr
        exact .inl rfl

theorem clean_withTx {α : Type} {P : Except Err α → Prop} {body : Core.M (Except Err α)}
    (hbody : Clean i P body) : Clean i P (Postgres.withTx body) := by
  refine (reads_pg (held_of rfl)).bind fun r => ?_
  cases r with
  | error e => exact clean_ret _
  | ok a =>
      refine hbody.bind (fun r => (reads_pg (held_of rfl)).bind fun _ => clean_ret r) ?_
      exact fun r hr _ => hr

theorem clean_pgDecide :
    Clean i Decided (Postgres.decidePairingSession C id approve pub sig granter) := by
  refine clean_withTx ((reads_query (held_of rfl)).bind fun r => ?_)
  match r with
  | .error e => exact clean_ret _
  | .ok none => exact clean_ret _
  | .ok (some row) =>
      refine reads_now.bind fun now => ?_
      by_cases hstatus : row.status ≠ .pending
      · rw [if_pos hstatus]
        exact clean_ret _
      rw [if_neg hstatus]
      by_cases htime : ¬now < row.expiresAt
      · rw [if_pos htime]
        refine (reads_query (held_of rfl)).bind fun r => ?_
        cases r with
        | error e => exact clean_ret _
        | ok a =>
            refine clean_query_commit.bind (fun r => ?_) fun r hr => ?_
            · cases r with
              | error e => exact clean_ret _
              | ok a => exact clean_ret _
            · subst hr
              exact .inr rfl
      rw [if_neg htime]
      by_cases happrove : approve = true
      · rw [if_pos happrove]
        cases row.join with
        | none => exact clean_ret _
        | some j =>
            by_cases hkey : pub = [] ∨ pub ≠ j.pubKey
            · simp only [if_pos hkey]
              exact clean_ret _
            simp only [if_neg hkey]
            refine (reads_pg (held_of rfl)).bind fun found => ?_
            refine (reads_query (held_of rfl)).bind fun r => ?_
            cases r with
            | error e => exact clean_ret _
            | ok a => exact clean_finishDecision
      · rw [if_neg happrove]
        exact clean_finishDecision

theorem reads_readSession : Reads i (Redis.readSession id) := by
  refine reads_hgetall.bind fun r => ?_
  match r with
  | .error e => exact clean_ret _
  | .ok none => exact clean_ret _
  | .ok (some m) => exact clean_ret _

/-- What `CheckPairingLive` makes of the entry it has read. -/
def judged (sess : PairingSession) : Core.M (Except Err Unit) :=
  if sess.status ≠ some .pending then
    return .error .gone
  else do
    let now ← Redis.clock
    if Redis.sessionTTL now sess.expiresAt ≤ 0 then
      return .error .expired
    else
      return .ok ()

theorem reads_judged (sess : PairingSession) : Reads i (judged sess) := by
  unfold judged
  by_cases hstatus : sess.status ≠ some .pending
  · rw [if_pos hstatus]
    exact clean_ret _
  rw [if_neg hstatus]
  refine reads_now.bind fun now => ?_
  by_cases httl : Redis.sessionTTL now sess.expiresAt ≤ 0
  · rw [if_pos httl]
    exact clean_ret _
  · rw [if_neg httl]
    exact clean_ret _

theorem reads_checkPairingLive : Reads i (Redis.checkPairingLive id) := by
  refine reads_readSession.bind fun r => ?_
  cases r with
  | error e => exact clean_ret _
  | ok sess => exact reads_judged sess

/-- Whatever comes of the mark, the answer is terminal. -/
theorem yields_marked {r : Except Err Unit} (hr : Terminal r) (st : Status) :
    (Redis.markPairingConsumed id st >>= fun _ => (.ret r : Core.M _)).Yields Terminal :=
  Prog.Yields.bind (P := Terminal) (f := fun _ => .ret r) (fun _ => hr) _

theorem clean_decideDurably :
    Clean i Terminal (Combined.decideDurably C id approve pub sig granter) := by
  refine clean_pgDecide.bind (fun r => ?_) fun r hr => ?_
  · cases r with
    | error e =>
        by_cases he : e = .expired ∨ e = .gone
        · simp only [if_pos he]
          have hterminal : Terminal (.error e) := by
            obtain rfl | rfl := he
            · exact .inr (.inl rfl)
            · exact .inr (.inr rfl)
          exact fun w a w' h => .inr (yields_runs (yields_marked hterminal _) h)
        · simp only [if_neg he]
          exact clean_ret _
    | ok a => exact fun w a w' h => .inr (yields_runs (yields_marked (.inl rfl) _) h)
  · obtain rfl | rfl := hr
    · exact yields_marked (.inl rfl) _
    · exact yields_marked (.inr (.inl rfl)) _

theorem clean_decide :
    Clean i Terminal (Combined.decidePairingSession C id approve pub sig granter) := by
  refine reads_checkPairingLive.bind fun r => ?_
  cases r with
  | error e =>
      by_cases he : e ≠ .notFound
      · simp only [if_pos he]
        exact clean_ret _
      · simp only [if_neg he]
        exact clean_decideDurably
  | ok a => exact clean_decideDurably

/-- **A call that fails changes nothing**: neither a refusal nor a store that fails. -/
theorem failed_changes_nothing {e : Err}
    (hrun : Runs i (Combined.decidePairingSession C id approve pub sig granter) w (.error e) w')
    (he : e = .conflict ∨ e = .other) : Untouched w w' := by
  refine (clean_decide _ _ _ hrun).resolve_right fun hterminal => ?_
  obtain rfl | rfl := he
  · simp [Terminal] at hterminal
  · simp [Terminal] at hterminal

/-! ### What a conflict says of the session -/

/-- The session waits for its decision, as far as each store knows it. -/
structure Pending (w : World) (id : String) : Prop where
  row : ∃ row, w.pg.session id = some row ∧ row.status = .pending
  entry : ∀ x, liveHash w id = some x → x.status = some .pending

/-- The row that is read is the row that stands there; a failed read is no conflict. -/
theorem exec_select {f : Fault} {p p' : PgState} {r : Except PgErr (Option SessionRow)}
    (h : (PgCmd.txSelectForUpdate id).exec i f p = some (p', r)) :
    r = .error .other ∨ r = .ok (p.session id) := by
  have hstep {q : PgState} {r : Except PgErr (Option SessionRow)}
      (hs : (PgCmd.txSelectForUpdate id).step i p = some (q, r)) :
      r = .error .other ∨ r = .ok (p.session id) := by
    simp only [PgCmd.step] at hs
    obtain ⟨-, hr⟩ | ⟨tx, -, -, hk⟩ := PgCmd.inTx_cases hs
    · exact .inl hr
    · split at hk
      · rename_i hnone
        simp only [Option.some.injEq, Prod.mk.injEq] at hk
        rw [hnone]
        exact .inr hk.2.symm
      · rename_i row hrow
        split at hk
        · simp only [Option.some.injEq, Prod.mk.injEq] at hk
          rw [hrow]
          exact .inr hk.2.symm
        · cases hk
  obtain hs | ho := PgCmd.exec_answer h
  · exact hstep hs
  · exact .inl ho

theorem query_select_runs {r : Except Err (Option SessionRow)}
    (h : Runs i (Postgres.query (.txSelectForUpdate id)) w r w') :
    r = .error .other ∨ r = .ok (w.pg.session id) := by
  obtain ⟨r', w₁, hrun, hrest⟩ := Prog.runs_bind.mp h
  obtain ⟨f, d, p, he⟩ := pg_runs hrun
  obtain rfl | rfl := exec_select he
  · exact .inl (Prog.runs_ret.mp hrest).1
  · exact .inr (Prog.runs_ret.mp hrest).1

/-- A transaction answers what its body answers, or could not begin. -/
theorem withTx_runs {α : Type} {body : Core.M (Except Err α)} {r : Except Err α}
    (h : Runs i (Postgres.withTx body) w r w') :
    r = .error .other ∨ ∃ w₁ w₂, Untouched w w₁ ∧ Runs i body w₁ r w₂ := by
  obtain ⟨begun, w₁, hbegin, hrest⟩ := Prog.runs_bind.mp h
  cases begun with
  | error e => exact .inl (Prog.runs_ret.mp hrest).1
  | ok a =>
      obtain ⟨r', w₂, hbody, hend⟩ := Prog.runs_bind.mp hrest
      obtain ⟨_, w₃, -, hret⟩ := Prog.runs_bind.mp hend
      obtain ⟨rfl, -⟩ := Prog.runs_ret.mp hret
      exact .inr ⟨w₁, w₂, (reads_pg (held_of rfl)).untouched hbegin, hbody⟩

theorem pgDecide_conflict
    (h : Runs i (Postgres.decidePairingSession C id approve pub sig granter) w
      (.error .conflict) w') :
    ∃ row, w.pg.session id = some row ∧ row.status = .pending := by
  obtain hother | ⟨w₁, w₂, hbegun, hbody⟩ := withTx_runs h
  · cases hother
  obtain ⟨r, w₃, hread, hrest⟩ := Prog.runs_bind.mp hbody
  rw [← hbegun.session id]
  obtain rfl | rfl := query_select_runs hread
  · cases (Prog.runs_ret.mp hrest).1
  cases hrow : w₁.pg.session id with
  | none =>
      rw [hrow] at hrest
      cases (Prog.runs_ret.mp hrest).1
  | some row =>
      refine ⟨row, rfl, Decidable.byContradiction fun hstatus => ?_⟩
      rw [hrow] at hrest
      obtain ⟨now, w₄, -, hanswer⟩ := Prog.runs_bind.mp hrest
      rw [if_pos hstatus] at hanswer
      cases (Prog.runs_ret.mp hanswer).1

/-- An entry is read as it stands there; a failed read is no conflict. -/
theorem hgetall_runs {r : Except Err (Option PairingHash)}
    (h : Runs i (Redis.rd (.hgetallPairing id)) w r w') :
    r = .error .other ∨ r = .ok (liveHash w' id) := by
  obtain ⟨⟨o, d⟩, -, hx⟩ := Prog.runs_perform.mp h
  have hexec : execLate i (.rd (.hgetallPairing id)) (o, d) w =
      Core.exec i (.rd (.hgetallPairing id)) o (w.pass d) := by
    rw [execLate, if_pos (rollsBack_rd _ _)]
  rw [hexec] at hx
  simp only [Core.exec, Option.some.injEq, Prod.mk.injEq] at hx
  obtain ⟨rfl, rfl⟩ := hx
  cases o.fault with
  | none => exact .inr rfl
  | lost => exact .inl rfl
  | unacked => exact .inl rfl

/-- An entry that is there after a reading has been read. -/
theorem readSession_runs {r : Except Err PairingSession}
    (h : Runs i (Redis.readSession id) w r w') :
    r = .error .other ∨ (r = .error .notFound ∧ liveHash w' id = none) ∨
      ∃ x, liveHash w' id = some x ∧ r = .ok (Redis.decoded id x) := by
  obtain ⟨r', w₁, hrun, hrest⟩ := Prog.runs_bind.mp h
  obtain rfl | rfl := hgetall_runs hrun
  · exact .inl (Prog.runs_ret.mp hrest).1
  · cases hlive : liveHash w₁ id with
    | none =>
        rw [hlive] at hrest
        obtain ⟨rfl, rfl⟩ := Prog.runs_ret.mp hrest
        exact .inr (.inl ⟨rfl, hlive⟩)
    | some x =>
        rw [hlive] at hrest
        obtain ⟨rfl, rfl⟩ := Prog.runs_ret.mp hrest
        exact .inr (.inr ⟨x, hlive, rfl⟩)

/-- The check is never a conflict, and an entry that it lets pass waits for its
decision. -/
theorem check_runs {r : Except Err Unit} (h : Runs i (Redis.checkPairingLive id) w r w') :
    r ≠ .error .conflict ∧ ((r = .ok () ∨ r = .error .notFound) →
      ∀ x, liveHash w' id = some x → x.status = some .pending) := by
  obtain ⟨r', w₁, hrun, hrest⟩ := Prog.runs_bind.mp h
  obtain rfl | ⟨rfl, hmissing⟩ | ⟨x, hlive, rfl⟩ := readSession_runs hrun
  · obtain ⟨rfl, -⟩ := Prog.runs_ret.mp hrest
    exact ⟨nofun, nofun⟩
  · obtain ⟨rfl, rfl⟩ := Prog.runs_ret.mp hrest
    refine ⟨nofun, fun _ x hx => ?_⟩
    cases hmissing.symm.trans hx
  · have hjudged : Runs i (judged (Redis.decoded id x)) w₁ r w' := hrest
    have hyields : (judged (Redis.decoded id x)).Yields fun r =>
        r ≠ .error .conflict ∧ r ≠ .error .notFound := by
      unfold judged
      split
      · exact ⟨nofun, nofun⟩
      · intro now
        show (if _ then _ else _ : Core.M (Except Err Unit)).Yields _
        split
        · exact ⟨nofun, nofun⟩
        · exact ⟨nofun, nofun⟩
    have hanswer := yields_runs hyields hjudged
    refine ⟨hanswer.1, fun hpassed y hy => Decidable.byContradiction fun hstatus => ?_⟩
    cases ((reads_judged _).untouched hjudged).live hy ▸ hlive
    have hsess : (Redis.decoded id x).status ≠ some .pending := hstatus
    unfold judged at hjudged
    rw [if_pos hsess] at hjudged
    obtain ⟨rfl, -⟩ := Prog.runs_ret.mp hjudged
    cases hpassed <;> contradiction

theorem decideDurably_conflict
    (h : Runs i (Combined.decideDurably C id approve pub sig granter) w
      (.error .conflict) w') :
    ∃ row, w.pg.session id = some row ∧ row.status = .pending := by
  obtain ⟨r, w₁, hpg, hrest⟩ := Prog.runs_bind.mp h
  have hr : r = .error .conflict := by
    cases r with
    | ok a =>
        have hyields : Terminal (.error .conflict) :=
          yields_runs (yields_marked (.inl rfl) _) hrest
        simp [Terminal] at hyields
    | error e =>
        by_cases he : e = .expired ∨ e = .gone
        · simp only [if_pos he] at hrest
          obtain ⟨_, w₂, -, hret⟩ := Prog.runs_bind.mp hrest
          exact (Prog.runs_ret.mp hret).1.symm
        · simp only [if_neg he] at hrest
          exact (Prog.runs_ret.mp hrest).1.symm
  rw [hr] at hpg
  exact pgDecide_conflict hpg

theorem conflict_pending
    (h : Runs i (Combined.decidePairingSession C id approve pub sig granter) w
      (.error .conflict) w') : Pending w' id := by
  have hall : Untouched w w' := failed_changes_nothing h (.inl rfl)
  obtain ⟨r, w₁, hcheck, hrest⟩ := Prog.runs_bind.mp h
  have hstart : Untouched w w₁ := reads_checkPairingLive.untouched hcheck
  have hpassed : (r = .ok () ∨ r = .error .notFound) ∧
      Runs i (Combined.decideDurably C id approve pub sig granter) w₁ (.error .conflict) w' := by
    cases r with
    | ok a => exact ⟨.inl rfl, hrest⟩
    | error e =>
        by_cases he : e ≠ .notFound
        · simp only [if_pos he] at hrest
          cases (Prog.runs_ret.mp hrest).1
          exact absurd rfl (check_runs hcheck).1
        · simp only [if_neg he] at hrest
          obtain rfl : e = .notFound := Decidable.not_not.mp he
          exact ⟨.inr rfl, hrest⟩
  have hdurable : Untouched w₁ w' :=
    (clean_decideDurably _ _ _ hpassed.2).resolve_right fun h => by simp [Terminal] at h
  obtain ⟨row, hrow, hstatus⟩ := decideDurably_conflict hpassed.2
  refine ⟨⟨row, ?_, hstatus⟩, fun x hx => (check_runs hcheck).2 hpassed.1 x (hdurable.live hx)⟩
  rw [hdurable.session id, hrow]

end Failing

/-! ## A later call -/

section Later

variable {C : Crypto} {approve : Bool} {pub sig : Bytes} {granter : String} {row : SessionRow}

theorem answers_withTx {α : Type} {body : Core.M (Except Err α)} {r : Except Err α}
    (h : ∃ w', quietly body (begun w) = some (r, w')) :
    ∃ w', quietly (Postgres.withTx body) w = some (r, w') := by
  obtain ⟨w', hbody⟩ := h
  exact ⟨_, quietly_withTx hbody⟩

/-- A session that is found has a name that a column takes, and so has its user. -/
theorem found_texts (ht : TextIds w.pg) (hrow : w.pg.session id = some row) :
    '\x00' ∉ id.toList ∧ '\x00' ∉ row.userId.toList := by
  obtain ⟨hid, huser⟩ := ht.session row (List.mem_of_find?_eq_some hrow)
  have hsame : row.id = id := by simpa using List.find?_some hrow
  exact ⟨hsame ▸ hid, huser⟩

/-- An approval of the key that joined. -/
theorem pgDecide_approved {j : Join} (ht : TextIds w.pg) (hgranter : '\x00' ∉ granter.toList)
    (hfree : w.pg.locks (.session id) = none)
    (hrow : w.pg.session id = some row) (hstatus : row.status = .pending)
    (htime : w.clock < row.expiresAt) (hjoin : row.join = some j) (hkey : j.pubKey ≠ []) :
    ∃ w', quietly (Postgres.decidePairingSession C id true j.pubKey sig granter) w =
      some (.ok (), w') := by
  let p := lock (begun w).pg 0 (.session id)
  obtain ⟨hid, huser⟩ := found_texts ht hrow
  have hnow : ((begun w).setPg p).clock < row.expiresAt := htime
  have hargs : ¬(j.pubKey = [] ∨ j.pubKey ≠ j.pubKey) := by simp [hkey]
  have hfound : (PgCmd.txDeviceByKey row.userId j.pubKey).step 0 p =
      some (p, .ok ((p.deviceByKey row.userId j.pubKey).map Device.id)) := by
    simp [PgCmd.step, PgCmd.inTx, p, lock, begun, setTx]
  have hgrant (g : TrustGrant) : (PgCmd.txAddGrant g).step 0 p =
      some (stage p 0 {} (.addGrant g), .ok ()) := by
    simp [PgCmd.step, PgCmd.inTx, p, lock, begun, setTx]
  have hdecide (g : TrustGrant) : (PgCmd.txDecide id .approved granter sig).step 0
      (stage p 0 {} (.addGrant g)) =
      some (lock (stage (stage p 0 {} (.addGrant g)) 0 ⟨[.addGrant g], false⟩
        (.decideSession id .approved granter sig)) 0 (.session id), .ok ()) := by
    simp [PgCmd.step, PgCmd.inTx, lockable, p, lock, begun, setTx, stage]
  -- the granted device is no text of the call but one that is stored
  have hsubject : ∀ g : TrustGrant, g.granterDeviceId = granter →
      g.subjectDeviceId = ((p.deviceByKey row.userId j.pubKey).map Device.id).getD "" →
      (PgCmd.txAddGrant g).refused = false := by
    intro g hg hs
    refine taken_pair ?_ (hg ▸ hgranter) rfl
    rw [hs]
    cases hd : p.deviceByKey row.userId j.pubKey with
    | none => decide
    | some d => exact ht.device d (List.mem_of_find?_eq_some hd)
  refine answers_withTx ?_
  rw [quietly_bind (quietly_query (taken_id hid rfl) (step_lock hfree hrow))]
  show ∃ w', quietly (Core.perform .now >>= _) _ = some (_, w')
  rw [quietly_now, if_neg (not_not_intro hstatus), if_neg (not_not_intro hnow), if_pos rfl]
  simp only [hjoin, if_neg hargs]
  rw [quietly_bind (quietly_pg (taken_id huser rfl) hfound)]
  rw [quietly_bind (quietly_query
    (hsubject _ rfl (by cases p.deviceByKey row.userId j.pubKey <;> rfl)) (hgrant _))]
  simp only [Postgres.reported]
  unfold Postgres.finishDecision
  rw [quietly_bind (quietly_query (taken_pair hid hgranter rfl) (hdecide _))]
  show ∃ w', quietly (Postgres.pg .commit >>= _) _ = some (_, w')
  rw [quietly_bind (quietly_pg rfl (step_commit rfl))]
  exact ⟨_, rfl⟩

theorem pgDecide_lands (ht : TextIds w.pg) (hgranter : '\x00' ∉ granter.toList)
    (hfree : w.pg.locks (.session id) = none)
    (hrow : w.pg.session id = some row) (hstatus : row.status = .pending)
    (htime : w.clock < row.expiresAt)
    (hkey : approve = true → ∃ j, row.join = some j ∧ pub = j.pubKey ∧ pub ≠ []) :
    ∃ w', quietly (Postgres.decidePairingSession C id approve pub sig granter) w =
      some (.ok (), w') := by
  cases approve with
  | false =>
      exact ⟨_, pgDecide_rejected (found_texts ht hrow).1 hgranter hfree hrow hstatus htime⟩
  | true =>
      obtain ⟨j, hjoin, rfl, hne⟩ := hkey rfl
      exact pgDecide_approved ht hgranter hfree hrow hstatus htime hjoin hne

/-- A decision that the row allows: before its deadline, an approval of no other key
than the one that joined, and by a granter whose name a column takes. -/
def Correct (w : World) (id : String) (approve : Bool) (pub : Bytes) (granter : String) : Prop :=
  '\x00' ∉ granter.toList ∧ ∀ row, w.pg.session id = some row → w.clock < row.expiresAt ∧
    (approve = true → ∃ j, row.join = some j ∧ pub = j.pubKey ∧ pub ≠ [])

/-- The live entry, if it is still there, is read as open: its deadline in whole
seconds lies ahead. -/
def OnTime (w : World) (id : String) : Prop :=
  ∀ x, liveHash w id = some x → w.clock < (Redis.decoded id x).expiresAt

theorem check_late {x : PairingHash} (hkey : liveHash w id = some x)
    (hstatus : x.status = some .pending) :
    quietly (Redis.checkPairingLive id) w =
      some (if w.clock < (Redis.decoded id x).expiresAt then .ok () else .error .expired, w) := by
  have hsess : ¬(Redis.decoded id x).status ≠ some .pending := not_not_intro hstatus
  unfold Redis.checkPairingLive
  rw [quietly_bind (read_found hkey)]
  simp only [if_neg hsess]
  show quietly (Core.perform .now >>= _) _ = _
  rw [quietly_now]
  by_cases htime : w.clock < (Redis.decoded id x).expiresAt
  · rw [if_neg (ttl_pos htime), if_pos htime]
    rfl
  · have hpast : Redis.sessionTTL w.clock (Redis.decoded id x).expiresAt ≤ 0 := by
      have hzero : Redis.sessionTTL w.clock (Redis.decoded id x).expiresAt = 0 :=
        if_pos (Int.sub_nonpos_of_le (Int.not_lt.mp htime))
      exact Int.le_of_eq hzero
    rw [if_pos hpast, if_neg htime]
    rfl

/-- **When a decision takes effect** that both stores take for possible. -/
theorem decision_lands_iff (ht : TextIds w.pg) (hfree : w.pg.locks (.session id) = none)
    (hpending : Pending w id) (hcorrect : Correct w id approve pub granter) :
    (∃ w', quietly (Combined.decidePairingSession C id approve pub sig granter) w =
      some (.ok (), w')) ↔ OnTime w id := by
  obtain ⟨row, hrow, hstatus⟩ := hpending.row
  obtain ⟨htime, hkey⟩ := hcorrect.2 row hrow
  have hlands : ∃ w', quietly (Postgres.decidePairingSession C id approve pub sig granter) w =
      some (.ok (), w') :=
    pgDecide_lands ht hcorrect.1 hfree hrow hstatus htime hkey
  obtain ⟨w₁, hpg⟩ := hlands
  have hdurably : ∃ w', quietly (Combined.decideDurably C id approve pub sig granter) w =
      some (.ok (), w') := by
    unfold Combined.decideDurably
    rw [quietly_bind hpg]
    exact ⟨_, rfl⟩
  unfold Combined.decidePairingSession
  cases hlive : liveHash w id with
  | none =>
      rw [quietly_bind (rdCheck_missing hlive)]
      exact iff_of_true hdurably fun x hx => by cases hlive.symm.trans hx
  | some x =>
      rw [quietly_bind (check_late hlive (hpending.entry x hlive))]
      by_cases hopen : w.clock < (Redis.decoded id x).expiresAt
      · rw [if_pos hopen]
        refine iff_of_true hdurably fun y hy => ?_
        cases hlive.symm.trans hy
        exact hopen
      · rw [if_neg hopen]
        refine iff_of_false ?_ fun hall => hopen (hall x hlive)
        rintro ⟨w', hw'⟩
        cases hw'

end Later

/-! ## The failing call and what can follow -/

/-- From `w` to `v` nobody decides the session: its row keeps its status, and so does
its live entry as long as it is there. -/
structure Waits (id : String) (w v : World) : Prop where
  row : ∀ row, w.pg.session id = some row →
    ∃ row', v.pg.session id = some row' ∧ row'.status = row.status
  entry : ∀ x, liveHash v id = some x → ∃ y, liveHash w id = some y ∧ x.status = y.status

theorem Pending.waits (h : Pending w id) (hwaits : Waits id w v) : Pending v id := by
  obtain ⟨row, hrow, hstatus⟩ := h.row
  obtain ⟨row', hrow', hsame⟩ := hwaits.row row hrow
  refine ⟨⟨row', hrow', hsame.trans hstatus⟩, fun x hx => ?_⟩
  obtain ⟨y, hy, hxy⟩ := hwaits.entry x hx
  exact hxy.trans (h.entry y hy)

theorem Pending.untouched (h : Pending w id) (hsame : Untouched w w') : Pending w' id := by
  obtain ⟨row, hrow, hstatus⟩ := h.row
  exact ⟨⟨row, (hsame.session id).trans hrow, hstatus⟩, fun x hx => h.entry x (hsame.live hx)⟩

/-- **A decision that fails leaves everything as it was**, and a correct decision can
still be made: after a conflict, and after a failure of a store if the session was
pending before it.  It takes effect unless the live entry is past its whole seconds. -/
theorem failed_decision_atomic (C : Crypto) {approve : Bool} {pub sig : Bytes}
    {granter : String} {e : Err}
    (hrun : Runs i (Combined.decidePairingSession C id approve pub sig granter) w (.error e) w')
    (he : e = .conflict ∨ e = .other) :
    Untouched w w' ∧ ∀ (v : World) (approve' : Bool) (pub' sig' : Bytes) (granter' : String),
      (e = .other → Pending w id) → Waits id w' v → TextIds v.pg →
      v.pg.locks (.session id) = none → Correct v id approve' pub' granter' →
      ((∃ v', quietly (Combined.decidePairingSession C id approve' pub' sig' granter') v =
        some (.ok (), v')) ↔ OnTime v id) := by
  have hsame : Untouched w w' := failed_changes_nothing hrun he
  refine ⟨hsame, fun v approve' pub' sig' granter' hopen hwaits ht hfree hcorrect => ?_⟩
  have hpending : Pending w' id := by
    obtain rfl | rfl := he
    · exact conflict_pending hrun
    · exact (hopen rfl).untouched hsame
  exact decision_lands_iff ht hfree (hpending.waits hwaits) hcorrect

/-! ### A session of ten seconds and a fraction -/

/-- A call that meets no fault and takes no time. -/
theorem quietly_runs {α : Type} {p : Core.M α} {a : α} (h : quietly p w = some (a, w')) :
    Runs 0 p w a w' := by
  have hwork : ∀ n : Nat, Working ((fun _ => {} : Nat → Oracle) n) := fun _ => rfl
  have hrun : Prog.Runs Core.exec Working 0 p w a w' := Prog.eval_runs hwork h
  clear h
  induction hrun with
  | ret a w => exact .ret a w
  | @call c k w w₁ w₂ o r a ho hx _ ih =>
      refine .call (o := (o, 0)) trivial ?_ ih
      have hpass : w.pass ((0 : Nat) : Int) = w := by simp [World.pass]
      have hfault : rollsBack o.fault c = true := by
        rw [show o.fault = .none from ho]
        rfl
      rw [execLate, if_pos hfault]
      show Core.exec 0 c o (w.pass ((0 : Nat) : Int)) = _
      rw [hpass, hx]

/-- Open until 10.9 seconds after the epoch. -/
def brief : PairingSession where
  id := "p"
  userId := "u"
  createdBy := "PH-1"
  status := none
  expiresAt := 10900000000
  qrNonce := "n"

/-- The world after a call. -/
def after {α : Type} (p : Core.M α) (w : World) : World :=
  ((quietly p w).map Prod.snd).getD w

/-- The session is created at 0.9 seconds, and a second later the computer joins. -/
def joined : World :=
  after (Combined.submitJoinRequest "p" computerJoin)
    ((after (Combined.createPairingSession brief) (oneUser.pass 900000000)).pass 1000000000)

/-- A decision of the Owner's phone. -/
def decision (pub : Bytes) : Core.M (Except Err Unit) :=
  Combined.decidePairingSession crypto "p" true pub [2] "PH-1"

/-- The key of another computer is refused. -/
def mismatched : World := after (decision [7]) joined

theorem quietly_after {α : Type} {p : Core.M α} {a : α}
    (h : (quietly p w).map Prod.fst = some a) : quietly p w = some (a, after p w) := by
  unfold after
  cases hq : quietly p w with
  | none => rw [hq] at h; cases h
  | some x =>
      rw [hq] at h
      cases h
      rfl

/-- The row and the live entry after the refusal, and what is answered at 10.6 seconds. -/
private theorem brief_facts :
    (quietly (decision [7]) joined).map Prod.fst = some (.error .conflict) ∧
    mismatched.pg.session "p" = some { Postgres.newRow brief with join := some computerJoin } ∧
    mismatched.clock = 1900000000 ∧
    (liveHash mismatched "p").map (fun x => x.expiresAt) = some (some 10) ∧
    mismatched.pg.locks (.session "p") = none ∧
    (quietly (decision [1]) (mismatched.pass 8700000000)).map Prod.fst =
      some (.error .expired) := by
  decide

theorem Waits.pass (w : World) (d : Nat) : Waits id w (w.pass d) where
  row row hrow := ⟨row, hrow, rfl⟩
  entry x hx := ⟨x, (Untouched.pass w d).live hx, rfl⟩

/-- A call leaves the rows found by texts. -/
theorem texts_after {α : Type} {p : Core.M α} (h : TextIds w.pg) : TextIds (after p w).pg := by
  unfold after
  cases hq : quietly p w with
  | none => exact h
  | some x =>
      obtain ⟨a, w'⟩ := x
      have hwork : ∀ n : Nat, Working ((fun _ => {} : Nat → Oracle) n) := fun _ => rfl
      have hrun : Prog.Runs Core.exec Working 0 p w a w' := Prog.eval_runs hwork hq
      refine Prog.Only.runs (P := fun _ => True) (I := fun w => TextIds w.pg)
        (fun c o w w' r _ hx hi => ?_) (Prog.only_of_all (fun _ => trivial) p) hrun h
      obtain he | ⟨c', r', -, he⟩ := Srv.exec_pg (.core c) hx
      · rw [he]
        exact hi
      · exact hi.exec he

theorem mismatched_texts (d : Nat) : TextIds (mismatched.pass d).pg := by
  have hstart : TextIds oneUser.pg :=
    ⟨fun j tx w hj => (by cases hj), fun d hd => absurd hd List.not_mem_nil,
      fun s hs => absurd hs List.not_mem_nil⟩
  have hpass : ∀ {w : World} {n : Nat}, TextIds w.pg → TextIds (w.pass n).pg := fun h =>
    ⟨h.withheld, h.device, h.session⟩
  exact hpass (texts_after (texts_after (hpass (texts_after (hpass hstart)))))

/-- The key that joined, before the deadline. -/
theorem brief_correct {d : Nat} (hd : d < 9000000000) :
    Correct (mismatched.pass d) "p" true [1] "PH-1" := by
  obtain ⟨-, hrow, hclock, -⟩ := brief_facts
  refine ⟨by decide, fun row hrow' => ?_⟩
  cases hrow.symm.trans hrow'
  refine ⟨?_, fun _ => ⟨computerJoin, rfl, rfl, by decide⟩⟩
  have hexpiry : (Postgres.newRow brief).expiresAt = 10900000000 := by decide
  show mismatched.clock + (d : Int) < (Postgres.newRow brief).expiresAt
  have hsum : (1900000000 : Int) + d < 10900000000 := by omega
  rw [hclock, hexpiry]
  exact hsum

theorem brief_refused :
    Runs 0 (Combined.decidePairingSession crypto "p" true [7] [2] "PH-1") joined
      (.error .conflict) mismatched :=
  quietly_runs (quietly_after brief_facts.1)

theorem failed_decision_atomic_sample :
    Untouched joined mismatched ∧
      ((∃ v', quietly (decision [1]) (mismatched.pass 1000000000) = some (.ok (), v')) ↔
        OnTime (mismatched.pass 1000000000) "p") := by
  have hatomic := failed_decision_atomic crypto brief_refused (.inl rfl)
  exact ⟨hatomic.1, hatomic.2 (mismatched.pass ((1000000000 : Nat) : Int)) true [1] [2] "PH-1"
    nofun (.pass _ _) (mismatched_texts _) brief_facts.2.2.2.2.1 (brief_correct (by decide))⟩

/-- In the last part of the last second a correct decision finds the live entry
expired. -/
theorem last_second_refused :
    ¬∀ (C : Crypto) (id : String) (approve : Bool) (pub sig : Bytes) (granter : String) (i : Nat)
      (w w' : World) (e : Err),
      Runs i (Combined.decidePairingSession C id approve pub sig granter) w (.error e) w' →
      e = .conflict ∨ e = .other →
      Untouched w w' ∧ ∀ (v : World) (approve' : Bool) (pub' sig' : Bytes) (granter' : String),
        (e = .other → Pending w id) → Waits id w' v → TextIds v.pg →
        v.pg.locks (.session id) = none → Correct v id approve' pub' granter' →
        ∃ v', quietly (Combined.decidePairingSession C id approve' pub' sig' granter') v =
          some (.ok (), v') := by
  intro hall
  obtain ⟨-, -, -, -, hfree, hlate⟩ := brief_facts
  have hatomic := hall crypto "p" true [7] [2] "PH-1" 0 _ _ _ brief_refused (.inl rfl)
  obtain ⟨v', hv'⟩ := hatomic.2 (mismatched.pass ((8700000000 : Nat) : Int)) true [1] [2] "PH-1"
    nofun (.pass _ _) (mismatched_texts _) hfree (brief_correct (by decide))
  have hdecided : quietly (decision [1]) (mismatched.pass 8700000000) = some (.ok (), v') := hv'
  rw [hdecided] at hlate
  cases hlate

end Calcar.FailedDecisions
