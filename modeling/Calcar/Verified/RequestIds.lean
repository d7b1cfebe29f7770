import Calcar.Verified.Challenges
import Calcar.Verified.Stores

/-!
# Which request ids are marked

A request marks at most the id it gives: the `X-Request-ID` header, or in a
join the `request_id` of the body.  So a mark that is found in Redis after any
run was set by a request that was started in it with that id.

## Main results

* `task_marks` — a task marks the id it gives and no other.
* `marked_given` — **where marks come from.**
-/

namespace Calcar.Api

open Lib Trust

/-- The task was started for a request that gives the id. -/
def Task.Gives : Task → String → Prop
  | .request r, rid => r.Gives rid
  | _, _ => False

/-! ## Tasks -/

/-- The call marks no other id than these. -/
def Call.Marks (ids : String → Prop) : Call → Prop
  | .store (.checkAndMarkRequest rid _) => ids rid
  | _ => True

theorem Route.CallsAs.marks {route : Route} {ids : String → Prop} {c : Call}
    (h : route.CallsAs ids c) : c.Marks ids := by
  cases c with
  | store s =>
      cases s with
      | checkAndMarkRequest rid ttl => exact h
      | _ => trivial
  | _ => trivial

/-- The command marks no other id than these. -/
def Marking (ids : String → Prop) : Srv → Prop
  | .core (.rd (.setnxReplay rid _)) => ids rid
  | _ => True

section Tasks

variable {S : Server} {ids : String → Prop}

/-- A call marks what the handler asks for. -/
theorem call_marks {C : Crypto} {c : Call} (hc : c.Marks ids) :
    (c.run C).Only fun cmd => Marking ids (.core cmd) := by
  cases c with
  | store s =>
      refine (combined_issues C s).mono fun cmd hissued => ?_
      cases cmd with
      | rd cmd =>
          cases cmd with
          | setnxReplay rid ttl =>
              obtain hreads | hwrites := hissued
              · exact absurd hreads id
              · cases s with
                | checkAndMarkRequest rid' ttl' =>
                    have hsame : rid = rid' := hwrites.1
                    rw [hsame]
                    exact hc
                | issueAccessToken d u t => exact absurd hwrites id
                | issueRefreshToken d u t => exact absurd hwrites id
                | _ => exact absurd hwrites id
          | _ => trivial
      | _ => trivial
  | now => exact Prog.only_perform trivial
  | rand n => exact Prog.only_perform trivial
  | notify ev => exact Prog.only_perform trivial

theorem marks_yields : Yields S (Call.Marks ids) (Marking ids) := by
  intro c hc
  refine (only_toSrv (call_marks hc)).mono fun cmd hcmd => ?_
  obtain ⟨c', rfl, hmark⟩ := hcmd
  exact hmark

theorem marking_outer (c : Srv) (hc : Outer c) : Marking ids c := by
  cases c with
  | core c' => exact absurd rfl (hc c')
  | _ => trivial

/-- **A task marks the id it gives.** -/
theorem task_marks (t : Task) : (t.code S).Only (Marking t.Gives) := by
  cases t with
  | request r =>
      have hauth : HOnly (r.route.CallsAs r.Gives) (authenticate r.authorization) :=
        honly_authenticate _
      have hroutes := (routes_callsAs S r).mono fun _ hc => hc.marks
      have hserve : (serve S r).Only (Marking r.Gives) :=
        marks_yields.serve (fun _ _ => trivial) (hauth.mono fun _ hc => hc.marks) hroutes
      exact hserve.bind fun _ => trivial
  | upgrade u =>
      refine marks_yields.upgrade marking_outer trivial trivial (fun _ => trivial)
        (fun c hc => Route.CallsAs.marks (hc.mono fun _ => False.elim)) u
  | catchup => exact marks_yields.catchup marking_outer fun _ _ => trivial

end Tasks

/-! ## Runs -/

/-- Only the marking command writes marks, and under its own id. -/
theorem step_marks (c : RdCmd) (i : Nat) (r : RdState) {key : String}
    (h : (c.step i r).1.replay key ≠ r.replay key) : ∃ ttl, c = .setnxReplay key ttl := by
  cases c with
  | setnxReplay rid ttl =>
      by_cases hkey : key = rid
      · exact ⟨ttl, by rw [hkey]⟩
      · refine absurd ?_ h
        rw [RdCmd.step]
        split
        · rfl
        · exact if_neg hkey
  | evalConsumeRefresh token device =>
      refine absurd ?_ h
      show (Rd.consumeRefresh r token device).1.replay key = _
      unfold Rd.consumeRefresh
      repeat' split
      all_goals rfl
  | _ =>
      refine absurd ?_ h
      simp only [RdCmd.step]
      repeat' split
      all_goals rfl

/-- Every thread marks only what its task gives, and every mark has been given. -/
structure MarksGiven (c : Config Task World Srv Srv.Ans Outcome) : Prop where
  progs : ∀ (t : Task) p, (t, p) ∈ c.pool → p.Only (Marking t.Gives)
  given : ∀ key, c.world.rd.replay key ≠ none →
    ∃ (i : Nat) (t : Task) (p : Srv.M Outcome), c.pool[i]? = some (t, p) ∧ t.Gives key

/-- What a step leaves of the programs. -/
theorem MarksGiven.progs_step {S : Server} {c c' : Config Task World Srv Srv.Ans Outcome}
    {l : Label Task Oracle Env} (h : MarksGiven c) (hs : (backend S).next c l = some c') {t : Task}
    {p : Srv.M Outcome} (hin : (t, p) ∈ c'.pool) : p.Only (Marking t.Gives) := by
  cases l with
  | spawn t' =>
      cases hs
      obtain hold | hnew := List.mem_append.mp hin
      · exact h.progs t p hold
      · obtain ⟨ht, hp⟩ := Prod.mk.inj (List.mem_singleton.mp hnew)
        rw [ht, hp]
        exact task_marks t'
  | env e =>
      obtain ⟨w, _, hc'⟩ := System.next_env hs
      rw [hc'] at hin
      exact h.progs t p hin
  | act i o =>
      obtain ⟨t', cmd, k, w, r, hi, _, hc'⟩ := System.next_act hs
      rw [hc'] at hin
      obtain hold | hnew := List.mem_or_eq_of_mem_set hin
      · exact h.progs t p hold
      · obtain ⟨ht, hp⟩ := Prod.mk.inj hnew
        rw [ht, hp]
        exact (h.progs t' _ (List.mem_of_getElem? hi)).2 r

/-- A mark a step sets is given by the task of the thread that takes it. -/
theorem MarksGiven.new_mark {S : Server} {c c' : Config Task World Srv Srv.Ans Outcome}
    {l : Label Task Oracle Env} (h : MarksGiven c) (hs : (backend S).next c l = some c')
    {key : String} (hnew : c'.world.rd.replay key ≠ c.world.rd.replay key) :
    ∃ (i : Nat) (t : Task) (p : Srv.M Outcome), c.pool[i]? = some (t, p) ∧ t.Gives key := by
  cases l with
  | spawn t =>
      cases hs
      exact absurd rfl hnew
  | env e =>
      obtain ⟨w, hw, hc'⟩ := System.next_env hs
      obtain ⟨now, _, hrd⟩ := Env.step_rd hw
      rw [hc'] at hnew
      have hsame : w.rd.replay key = c.world.rd.replay key := by rw [hrd]
      exact absurd hsame hnew
  | act i o =>
      obtain ⟨t, cmd, k, w, r, hi, hx, hc'⟩ := System.next_act hs
      rw [hc'] at hnew
      obtain hsame | ⟨cmd', hcmd, _, hstep⟩ := cmd.exec_aof hx
      · exact absurd (by rw [hsame]) hnew
      · have hmoved : (cmd'.step i c.world.rd).1.replay key ≠ c.world.rd.replay key := by
          rw [← hstep]
          exact hnew
        obtain ⟨ttl, hset⟩ := step_marks cmd' i c.world.rd hmoved
        have hallowed := (h.progs t _ (List.mem_of_getElem? hi)).1
        rw [hcmd, hset] at hallowed
        exact ⟨i, t, _, hi, hallowed⟩

/-- **One step** keeps it. -/
theorem MarksGiven.step {S : Server} {c c' : Config Task World Srv Srv.Ans Outcome}
    {l : Label Task Oracle Env} (h : MarksGiven c) (hs : (backend S).next c l = some c') :
    MarksGiven c' := by
  refine ⟨fun t p hin => h.progs_step hs hin, fun key hkey => ?_⟩
  have hthread : ∃ (i : Nat) (t : Task) (p : Srv.M Outcome),
      c.pool[i]? = some (t, p) ∧ t.Gives key := by
    by_cases hsame : c'.world.rd.replay key = c.world.rd.replay key
    · rw [hsame] at hkey
      exact h.given key hkey
    · exact h.new_mark hs hsame
  obtain ⟨i, t, p, hi, hgives⟩ := hthread
  obtain ⟨p', hi'⟩ := System.next_task hs hi
  exact ⟨i, t, p', hi', hgives⟩

/-- **Every mark has been given**: after any run from an empty server, an id
that is marked is the id of a request that was made. -/
theorem marked_given {S : Server} {c : Config Task World Srv Srv.Ans Outcome}
    (h : (backend S).Reach (fun _ _ => True) boot c) : MarksGiven c := by
  induction h with
  | refl => exact ⟨fun t p hin => (by cases hin), fun key hkey => absurd rfl hkey⟩
  | step _ _ hs ih => exact ih.step hs

end Calcar.Api
