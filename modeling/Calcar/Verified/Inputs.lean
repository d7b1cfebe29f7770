import Calcar.Verified.Delivery

/-!
# Running inputs

The input route starts a command only behind the latch of `deliver`.  A pair
whose command was started is settled, so the latch does not open for it again;
that invariant holds wherever a request is cut short (`Latched`).

What the route refuses it refuses before the router changes anything, and a
duplicate never reaches `run_generic`.

## Main results

* `handleInput_latched` — a post keeps the invariant to any point.
* `handleInput_quiet` — refusals leave the machine as it was, duplicates start
  nothing.
* `input_route_laws` — both, for every sequence of posts and restarts.
-/

namespace Calcar.Agent

open Lib

/-! ## Which commands start something -/

/-- Every command but the one that starts a child. -/
def NotSpawn : Cmd → Prop
  | .spawn _ _ _ => False
  | _ => True

theorem NotSpawn.started {c : Cmd} (hc : NotSpawn c) (o : Oracle) (m : Machine) :
    (c.run o m).1.started = m.started := by
  cases c with
  | spawn w i text => exact absurd hc id
  | sql s =>
      obtain hm | hm := Cmd.sql_changes s o m
      · rw [hm]
      · rw [hm]
  | saveRegistry =>
      obtain hm | hm := Cmd.saveRegistry_changes o m
      · rw [hm]
      · rw [hm]
  | _ => rfl

theorem RequestCmd.notSpawn {k : String} {kind : Option RequestKind} {c : Cmd}
    (hc : RequestCmd k kind c) : NotSpawn c := by
  cases c with
  | spawn w i text => exact absurd hc id
  | _ => trivial

/-- Commands that start nothing and leave the requests alone. -/
def Aside : Cmd → Prop
  | .spawn _ _ _ => False
  | .sql s => LeavesRequests s
  | _ => True

theorem Aside.notSpawn {c : Cmd} (hc : Aside c) : NotSpawn c := by
  cases c with
  | spawn w i text => exact absurd hc id
  | _ => trivial

/-- An answer to a failure only asks for its text. -/
theorem internalError_only {P : Cmd → Prop} (hP : ∀ e, P (.describe e)) (e : StorageError) :
    (internalError e).Only P :=
  ⟨hP e, fun _ => trivial⟩

theorem orInternal_only {α : Type} {P : Cmd → Prop} (hP : ∀ e, P (.describe e))
    {p : Code (Except StorageError α)} {f : α → Code Response} (hp : p.Only P)
    (hf : ∀ a, (f a).Only P) : (orInternal p f).Only P := by
  refine hp.bind fun a => ?_
  cases a with
  | error e => exact internalError_only hP e
  | ok x => exact hf x

theorem approvalRefused_only {P : Cmd → Prop} (hP : ∀ e, P (.describe e)) (e : StorageError) :
    (approvalRefused e).Only P := by
  cases e with
  | sqlite => exact internalError_only hP _
  | invalidState _ => exact internalError_only hP _
  | notFound _ => trivial
  | alreadyResolved _ => trivial
  | expired _ => trivial

theorem getWorkflow_only (w : String) : (getWorkflow w).Only Aside :=
  Prog.only_perform trivial

theorem appendEvent_only (d : EventDraft) : (appendEvent d).Only Aside := by
  refine andThen_only (getWorkflow_only _) fun row => ?_
  cases row with
  | none => trivial
  | some _ => exact ⟨trivial, fun _ => ⟨trivial, fun _ => Prog.only_perform trivial⟩⟩

theorem recordRun_only (w i : String) (session : Option String) (outcome : ExecOutcome)
    (destructive : Bool) : (recordRun w i session outcome destructive).Only Aside := by
  refine ⟨trivial, fun tail => ?_⟩
  cases tail with
  | error e => trivial
  | ok tail =>
      refine ⟨trivial, fun startedAt => ⟨trivial, fun completedAt => ?_⟩⟩
      refine (appendEvent_only _).bind fun a => ?_
      cases a with
      | error e => exact ⟨trivial, fun _ => trivial⟩
      | ok _ =>
          refine (appendEvent_only _).bind fun b => ?_
          cases b with
          | error e => exact ⟨trivial, fun _ => trivial⟩
          | ok _ => trivial

theorem recordInput_only (w i : String) (destructive : Bool) (session : Option String)
    (outcome : ExecOutcome) : (recordInput w i destructive session outcome).Only Aside := by
  refine orInternal_only (fun _ => trivial) (Prog.only_perform trivial) fun _ => ?_
  refine (recordRun_only w i session outcome destructive).bind fun a => ?_
  cases a with
  | error message => trivial
  | ok truncated => exact ⟨trivial, fun _ => ⟨trivial, fun _ => trivial⟩⟩

theorem collectChild_only (timeoutSecs : Nat) : (collectChild timeoutSecs).Only Aside := by
  refine ⟨trivial, fun waited => ?_⟩
  match waited with
  | .error _ => trivial
  | .ok false => exact ⟨trivial, fun _ => trivial⟩
  | .ok true =>
      refine ⟨trivial, fun joined => ?_⟩
      cases joined with
      | error _ => trivial
      | ok _ => trivial

/-! ## The latch -/

/-- Every pair was started once at most, and only if its request is settled. -/
structure Latched (m : Machine) : Prop where
  once : ∀ p, m.started.count p ≤ 1
  settled : ∀ p, p ∈ m.started → Settled (pairKey p) m.db

section Rules

variable {α : Type} {m : Machine} {j : Nat} {C : Machine → Prop}

theorem meets_openStore {Q : Except StorageError Unit → Machine → Prop} (hC : C m)
    (hfail : Q (.error .sqlite) m) (hok : Q (.ok ()) m) : openStore.Meets exec j Q C m := by
  refine meets_perform hC fun o => ⟨hC, ?_⟩
  rw [Cmd.run]
  by_cases hf : o.fault = true
  · rw [if_pos hf]
    exact hfail
  · rw [if_neg hf]
    exact hok

theorem meets_orInternal {p : Code (Except StorageError α)} {f : α → Code Response}
    {Q : Response → Machine → Prop}
    (h : p.Meets exec j (fun a m =>
      match a with
      | .error _ => ∀ text, Q (errorBody 500 "INTERNAL" text) m
      | .ok x => (f x).Meets exec j Q C m) C m) :
    (orInternal p f).Meets exec j Q C m := by
  unfold orInternal
  refine Prog.meets_bind (h.mono (fun a m ha hC => ?_) fun _ hC => hC)
  cases a with
  | error e => exact Prog.meets_bind (meets_perform hC fun o => ⟨hC, fun _ => ⟨hC, ha _⟩⟩)
  | ok x => exact ha

end Rules

section Latch

variable {m : Machine} {j : Nat}

theorem Latched.run (h : Latched m) {c : Cmd} (hc : NotSpawn c) (o : Oracle) :
    Latched (c.run o m).1 := by
  have hs := hc.started o m
  refine ⟨hs ▸ h.once, fun p hp => ?_⟩
  rw [hs] at hp
  exact (h.settled p hp).run c o

theorem Latched.keep {α : Type} {q : Code α} (h : Latched m) (hq : q.Only NotSpawn) :
    q.Meets exec j (fun _ => Latched) Latched m :=
  meets_keep hq (fun _ o _ hc hm => hm.run hc o) h

theorem Latched.aside {α : Type} {q : Code α} (h : Latched m) (hq : q.Only Aside) :
    q.Meets exec j (fun _ => Latched) Latched m :=
  h.keep (hq.mono fun _ hc => hc.notSpawn)

/-- **To start** a pair that is settled and was not started keeps the latches. -/
theorem Latched.spawn (h : Latched m) {w i text : String} (hs : Settled (storageKey w i) m.db)
    (hnew : (w, i) ∉ m.started) (o : Oracle) : Latched ((Cmd.spawn w i text).run o m).1 := by
  have hstarted : ((Cmd.spawn w i text).run o m).1.started = m.started ++ [(w, i)] := rfl
  refine ⟨fun p => ?_, fun p hp => ?_⟩
  · rw [hstarted, List.count_append]
    have honce := h.once p
    by_cases hp : p = (w, i)
    · have hnone : m.started.count (w, i) = 0 := List.count_eq_zero_of_not_mem hnew
      have hone : [(w, i)].count (w, i) = 1 := List.count_singleton_self
      rw [hp]
      omega
    · have hzero : [(w, i)].count p = 0 :=
        List.count_eq_zero_of_not_mem fun hmem => hp (List.mem_singleton.mp hmem)
      omega
  · rw [hstarted, List.mem_append, List.mem_singleton] at hp
    rcases hp with hp | hp
    · exact h.settled p hp
    · rw [hp]
      exact hs

/-- The run of a delivered input keeps the latches. -/
theorem runGeneric_latched {w i text : String} {timeoutSecs : Nat} (h : Latched m)
    (hs : Settled (storageKey w i) m.db) (hnew : (w, i) ∉ m.started) :
    (runGeneric w i text timeoutSecs).Meets exec j (fun _ => Latched) Latched m := by
  unfold runGeneric
  by_cases hb : Text.trimSpace text = ""
  · rw [if_pos hb]
    exact ⟨h, h⟩
  · rw [if_neg hb]
    refine Prog.meets_bind (meets_perform h fun o => ?_)
    have hnext : Latched ((Cmd.spawn w i text).run o m).1 := h.spawn hs hnew o
    refine ⟨hnext, fun _ => ?_⟩
    cases ((Cmd.spawn w i text).run o m).2 with
    | error e => exact ⟨hnext, hnext⟩
    | ok _ => exact hnext.aside (collectChild_only timeoutSecs)

theorem executeInput_latched {cfg : ConnectConfig} {w i text : String} {destructive : Bool}
    {session : Option String} (h : Latched m) (hs : Settled (storageKey w i) m.db)
    (hnew : (w, i) ∉ m.started) :
    (executeInput cfg w i text destructive session).Meets exec j (fun _ => Latched)
      Latched m := by
  refine Prog.meets_bind ((runGeneric_latched h hs hnew).mono (fun ran m hm _ => ?_)
    fun _ hc => hc)
  match ran with
  | .error .timeout => exact ⟨hm, hm⟩
  | .error (.spawn _) => exact ⟨hm, hm⟩
  | .error (.join _) => exact ⟨hm, hm⟩
  | .ok outcome => exact hm.aside (recordInput_only w i destructive session outcome)

theorem deliver_notSpawn (w i : String) : (deliver w i).Only NotSpawn :=
  (deliver_only w i).mono fun _ hc => hc.notSpawn

/-- The router starts nothing itself. -/
theorem deliver_started {w i : String} :
    (deliver w i).Meets exec j (fun _ m' => m'.started = m.started)
      (fun m' => m'.started = m.started) m :=
  meets_keep (deliver_notSpawn w i) (I := fun n => n.started = m.started)
    (fun _ o n hc hn => (hc.started o n).trans hn) rfl

/-- **The router delivers only what was never started.** -/
theorem deliver_new {w i : String} (h : Latched m) :
    (deliver w i).Meets exec j (fun a m' => Latched m' ∧
      (a = .ok .delivered → Settled (storageKey w i) m'.db ∧ (w, i) ∉ m'.started))
      Latched m := by
  have hkeep : (deliver w i).Meets exec j (fun _ => Latched) Latched m :=
    h.keep (deliver_notSpawn w i)
  by_cases hin : (w, i) ∈ m.started
  · have hclosed : (deliver w i).Meets exec j (fun a _ => a ≠ .ok .delivered)
        (fun _ => True) m := deliver_closed (h.settled _ hin)
    exact (hkeep.and hclosed).mono (fun a m' ha => ⟨ha.1, fun hd => absurd hd ha.2⟩)
      fun _ hc => hc.1
  · have hsettles : (deliver w i).Meets exec j
        (fun a m' => a = .ok .delivered → Settled (storageKey w i) m'.db) (fun _ => True) m :=
      deliver_settles
    refine ((hkeep.and deliver_started).and hsettles).mono (fun a m' ha => ?_) fun _ hc => hc.1.1
    refine ⟨ha.1.1, fun hd => ⟨ha.2 hd, ?_⟩⟩
    rw [ha.1.2]
    exact hin

theorem duplicateInput_only (w i : String) : (duplicateInput w i).Only Aside :=
  ⟨trivial, fun _ => ⟨trivial, fun _ => trivial⟩⟩

theorem routeInput_latched {cfg : ConnectConfig} {w i text : String} {destructive : Bool}
    {session : Option String} (h : Latched m) :
    (routeInput cfg w i text destructive session).Meets exec j (fun _ => Latched)
      Latched m := by
  refine meets_orInternal (meets_openStore h (fun _ => h) ?_)
  refine Prog.meets_bind ((deliver_new h).mono (fun a m' ha _ => ?_) fun _ hc => hc)
  match a with
  | .error (.notFound _) => exact ⟨ha.1, ha.1⟩
  | .error (.invalidState _) => exact ⟨ha.1, ha.1⟩
  | .error .sqlite => exact ha.1.aside (internalError_only (fun _ => trivial) _)
  | .error (.alreadyResolved _) => exact ha.1.aside (internalError_only (fun _ => trivial) _)
  | .error (.expired _) => exact ha.1.aside (internalError_only (fun _ => trivial) _)
  | .ok .duplicate => exact ha.1.aside (duplicateInput_only w i)
  | .ok .delivered => exact executeInput_latched ha.1 (ha.2 rfl).1 (ha.2 rfl).2

theorem interactiveInput_only (w : String) : (interactiveInput w).Only Aside :=
  orInternal_only (fun _ => trivial) (Prog.only_perform trivial) fun _ =>
    ⟨trivial, fun _ => trivial⟩

/-- **A post keeps the latches**, wherever it is cut short. -/
theorem handleInput_latched {cfg : ConnectConfig} {p : Post} (h : Latched m) :
    (handleInput cfg p).Meets exec j (fun _ => Latched) Latched m := by
  unfold handleInput
  cases inputFields p with
  | error r => exact ⟨h, h⟩
  | ok fields =>
      obtain ⟨inputId, text, destructive⟩ := fields
      refine meets_orInternal (meets_openStore h (fun _ => h) ?_)
      refine meets_orInternal ((h.aside (getWorkflow_only p.workflow)).mono (fun row m hm => ?_)
        fun _ hc => hc)
      match row with
      | .error e => exact fun _ => hm
      | .ok none => exact ⟨hm, hm⟩
      | .ok (some row) =>
          by_cases hprov : Provider.fromI32 row.provider ≠ some .generic
          · simp only [if_pos hprov]
            exact hm.aside (interactiveInput_only p.workflow)
          · simp only [if_neg hprov]
            exact routeInput_latched hm

end Latch

/-! ## Refusals and duplicates -/

namespace Response

/-- A 4xx status, or 501. -/
def Refused (r : Response) : Prop := (400 ≤ r.status ∧ r.status < 500) ∨ r.status = 501

/-- The response says that the input is a duplicate. -/
def SaysDuplicate (r : Response) : Prop :=
  (r.body.bind fun v => v.strField "outcome") = some "duplicate"

/-- Neither. -/
def Plain (r : Response) : Prop := ¬r.Refused ∧ ¬r.SaysDuplicate

end Response

/-- What a response tells of the machine it leaves behind. -/
structure Quiet (m : Machine) (r : Response) (m' : Machine) : Prop where
  refused : r.Refused → m' = m
  duplicate : r.SaysDuplicate → m'.started = m.started

theorem Response.Plain.quiet {r : Response} (h : r.Plain) (m m' : Machine) : Quiet m r m' :=
  ⟨fun hr => absurd hr h.1, fun hd => absurd hd h.2⟩

theorem Quiet.refl (m : Machine) (r : Response) : Quiet m r m := ⟨fun _ => rfl, fun _ => rfl⟩

theorem errorBody_not_duplicate (status : Nat) (code message : String) :
    ¬(errorBody status code message).SaysDuplicate := by
  simp [Response.SaysDuplicate, errorBody, jsonStatus, Value.strField, Value.field]

theorem plain_internal (code text : String) : (errorBody 500 code text).Plain := by
  refine ⟨fun hr => ?_, errorBody_not_duplicate _ _ _⟩
  unfold Response.Refused errorBody jsonStatus at hr
  simp only at hr
  omega

theorem plain_timeout : (errorBody 504 "EXEC_TIMEOUT" "command timed out and was killed").Plain := by
  refine ⟨fun hr => ?_, errorBody_not_duplicate _ _ _⟩
  unfold Response.Refused errorBody jsonStatus at hr
  simp only at hr
  omega

theorem plain_delivered (i : String) (exitCode : Int) (truncated : Bool) :
    (jsonOk (.obj [("input_id", .str i), ("outcome", .str "delivered"),
      ("exit_code", .int exitCode), ("truncated", .bool truncated)])).Plain := by
  refine ⟨fun hr => ?_, ?_⟩
  · unfold Response.Refused jsonOk jsonStatus at hr
    simp only at hr
    omega
  · simp [Response.SaysDuplicate, jsonOk, jsonStatus, Value.strField, Value.field]

theorem internalError_yields (e : StorageError) : (internalError e).Yields Response.Plain :=
  fun _ => plain_internal _ _

theorem orInternal_yields {α : Type} {p : Code (Except StorageError α)} {f : α → Code Response}
    (hf : ∀ a, (f a).Yields Response.Plain) : (orInternal p f).Yields Response.Plain := by
  refine Prog.Yields.bind (fun a => ?_) p
  cases a with
  | error e => exact internalError_yields e
  | ok x => exact hf x

theorem recordInput_yields (w i : String) (destructive : Bool) (session : Option String)
    (outcome : ExecOutcome) :
    (recordInput w i destructive session outcome).Yields Response.Plain := by
  refine orInternal_yields fun _ => Prog.Yields.bind (fun a => ?_) _
  cases a with
  | error message => exact plain_internal _ _
  | ok truncated => exact fun _ _ => plain_delivered _ _ _

/-- A command that ran is answered by neither. -/
theorem executeInput_yields (cfg : ConnectConfig) (w i text : String) (destructive : Bool)
    (session : Option String) :
    (executeInput cfg w i text destructive session).Yields Response.Plain := by
  refine Prog.Yields.bind (fun ran => ?_) _
  match ran with
  | .error .timeout => exact plain_timeout
  | .error (.spawn _) => exact plain_internal _ _
  | .error (.join _) => exact plain_internal _ _
  | .ok outcome => exact recordInput_yields w i destructive session outcome

section Quiet

variable {m : Machine} {j : Nat}

theorem quiet_of_yields {q : Code Response} (h : q.Yields Response.Plain) (n : Machine) :
    q.Meets exec j (Quiet m) (fun _ => True) n :=
  h.meets.mono (fun _ n' hp => hp.quiet m n') fun _ hc => hc

theorem duplicateInput_quiet {w i : String} {n : Machine} (h : n.started = m.started) :
    (duplicateInput w i).Meets exec j (Quiet m) (fun _ => True) n := by
  have hstarted : (duplicateInput w i).Meets exec j (fun _ n' => n'.started = m.started)
      (fun n' => n'.started = m.started) n :=
    meets_keep (duplicateInput_only w i) (I := fun n' => n'.started = m.started)
      (fun _ o _ hc hn => (hc.notSpawn.started o _).trans hn) h
  have hok : (duplicateInput w i).Yields fun r => r.status = 200 := fun _ _ => rfl
  refine (hstarted.and hok.meets).mono (fun r n' hr => ⟨fun href => ?_, fun _ => hr.1⟩)
    fun _ _ => trivial
  have hstatus := hr.2
  unfold Response.Refused at href
  omega

theorem routeInput_quiet {cfg : ConnectConfig} {w i text : String} {destructive : Bool}
    {session : Option String} (hw : (m.db.getWorkflow w).isSome = true) :
    (routeInput cfg w i text destructive session).Meets exec j (Quiet m) (fun _ => True) m := by
  refine meets_orInternal (meets_openStore trivial (fun _ => .refl m _) ?_)
  refine Prog.meets_bind (((deliver_refused hw).and deliver_started).mono
    (fun a m' ha _ => ?_) fun _ _ => trivial)
  match a with
  | .error (.notFound x) =>
      have hsame : m' = m := ha.1 _ rfl trivial
      rw [hsame]
      exact ⟨trivial, .refl m _⟩
  | .error (.invalidState x) =>
      have hsame : m' = m := ha.1 _ rfl trivial
      rw [hsame]
      exact ⟨trivial, .refl m _⟩
  | .error .sqlite => exact quiet_of_yields (internalError_yields _) m'
  | .error (.alreadyResolved _) => exact quiet_of_yields (internalError_yields _) m'
  | .error (.expired _) => exact quiet_of_yields (internalError_yields _) m'
  | .ok .duplicate => exact duplicateInput_quiet ha.2
  | .ok .delivered => exact quiet_of_yields (executeInput_yields ..) m'

theorem interactiveInput_quiet (w : String) :
    (interactiveInput w).Meets exec j (Quiet m) (fun _ => True) m := by
  refine meets_orInternal (meets_openStore trivial (fun _ => .refl m _) ?_)
  exact Prog.meets_bind (p := sql (.selectBinding w))
    (meets_sql trivial (fun _ => ⟨trivial, .refl m _⟩)
      ⟨trivial, fun _ => ⟨trivial, .refl m _⟩⟩)

/-- **What a post refuses it leaves alone, and a duplicate starts nothing.** -/
theorem handleInput_quiet {cfg : ConnectConfig} {p : Post} :
    (handleInput cfg p).Meets exec j (Quiet m) (fun _ => True) m := by
  unfold handleInput
  cases inputFields p with
  | error r => exact ⟨trivial, .refl m r⟩
  | ok fields =>
      obtain ⟨inputId, text, destructive⟩ := fields
      refine meets_orInternal (meets_openStore trivial (fun _ => .refl m _) ?_)
      refine meets_orInternal (p := sql (.selectWorkflow p.workflow))
        (meets_sql trivial (fun _ => .refl m _) ⟨trivial, ?_⟩)
      have hstep : (Sql.selectWorkflow p.workflow).step m.db =
          (m.db, .ok (m.db.getWorkflow p.workflow)) := rfl
      rw [hstep]
      cases hrow : m.db.getWorkflow p.workflow with
      | none => exact ⟨trivial, .refl m _⟩
      | some row =>
          by_cases hprov : Provider.fromI32 row.provider ≠ some .generic
          · simp only [if_pos hprov]
            exact interactiveInput_quiet p.workflow
          · simp only [if_neg hprov]
            exact routeInput_quiet (by rw [hrow]; rfl)

end Quiet

/-! ## Every sequence of posts -/

/-- What reaches the input route: a post, or a new start of the process. -/
inductive Arrival where
  | post (p : Post)
  | restart

/-- The program behind an arrival. -/
def serveInput (cfg : ConnectConfig) : Arrival → Code (Option Response)
  | .post p => do
      let r ← replyInput cfg p
      return some r
  | .restart => do
      Prog.perform Cmd.restart
      return none

theorem replyInput_latched {cfg : ConnectConfig} {p : Post} {m : Machine} {j : Nat}
    (h : Latched m) : (replyInput cfg p).Meets exec j (fun _ => Latched) Latched m := by
  unfold replyInput reply
  by_cases hb : bearerOk p cfg.token = true
  · rw [if_pos hb]
    exact handleInput_latched h
  · rw [if_neg hb]
    exact ⟨h, h⟩

theorem serveInput_latched {cfg : ConnectConfig} (a : Arrival) {m : Machine} (h : Latched m) :
    (serveInput cfg a).Meets exec 0 (fun _ => Latched) Latched m := by
  cases a with
  | post p =>
      exact Prog.meets_bind ((replyInput_latched h).mono (fun _ _ hm _ => ⟨hm, hm⟩)
        fun _ hc => hc)
  | restart =>
      have hnext : ∀ o, Latched (Cmd.restart.run o m).1 := fun o => h.run (c := .restart) trivial o
      exact Prog.meets_bind (p := Prog.perform Cmd.restart)
        (meets_perform h fun o => ⟨hnext o, fun hm => ⟨hm, hm⟩⟩)

theorem serveInput_quiet (cfg : ConnectConfig) (a : Arrival) (m : Machine) :
    (serveInput cfg a).Meets exec 0 (fun r m' => ∀ resp, r = some resp → Quiet m resp m')
      (fun _ => True) m := by
  cases a with
  | post p =>
      have hreply : (replyInput cfg p).Meets exec 0 (Quiet m) (fun _ => True) m := by
        unfold replyInput reply
        by_cases hb : bearerOk p cfg.token = true
        · rw [if_pos hb]
          exact handleInput_quiet
        · rw [if_neg hb]
          exact ⟨trivial, .refl m _⟩
      refine Prog.meets_bind (hreply.mono (fun r m' hr _ => ⟨trivial, fun resp he => ?_⟩)
        fun _ hc => hc)
      rw [← Option.some.inj he]
      exact hr
  | restart =>
      exact Prog.meets_bind (p := Prog.perform Cmd.restart) (meets_perform trivial fun o =>
        ⟨trivial, fun _ => ⟨trivial, fun resp he => by cases he⟩⟩)

/-- The machine after arrivals, with the list of started commands empty at
first. -/
def afterArrivals (cfg : ConnectConfig) (m : Machine) (ts : List (Prog.Try Arrival Oracle)) :
    Machine :=
  Prog.afterAll exec (serveInput cfg) { m with started := [] } ts

theorem afterArrivals_latched (cfg : ConnectConfig) (m : Machine)
    (ts : List (Prog.Try Arrival Oracle)) : Latched (afterArrivals cfg m ts) := by
  have hstart : Latched { m with started := [] } :=
    ⟨fun p => Nat.zero_le 1, fun p hp => absurd hp List.not_mem_nil⟩
  have hstep : ∀ t : Prog.Try Arrival Oracle, t ∈ ts → ∀ w, Latched w →
      Latched (t.at exec (serveInput cfg) w).1 := fun t _ w hw =>
    (Prog.meets_attempt (serveInput_latched t.task hw) t.steps t.oracles).1
  exact Prog.afterAll_keep hstep hstart

/-- **The laws of the input route**, for any file to start from and any
sequence of posts and restarts, each cut short anywhere: no command is started
twice; and a post that comes next leaves the machine as it was if its answer
is a 4xx or a 501, and starts nothing if its answer says duplicate. -/
theorem input_route_laws (cfg : ConnectConfig) (m : Machine)
    (ts : List (Prog.Try Arrival Oracle)) :
    (∀ w i, (afterArrivals cfg m ts).started.count (w, i) ≤ 1) ∧
      ∀ (t : Prog.Try Arrival Oracle) (r : Response) (m' : Machine),
        t.at exec (serveInput cfg) (afterArrivals cfg m ts) = (m', some (some r)) →
          ((400 ≤ r.status ∧ r.status < 500) ∨ r.status = 501 → m' = afterArrivals cfg m ts) ∧
            (r.SaysDuplicate → m'.started = (afterArrivals cfg m ts).started) := by
  refine ⟨fun w i => (afterArrivals_latched cfg m ts).once (w, i), fun t r m' hr => ?_⟩
  have hmeets := Prog.meets_attempt (serveInput_quiet cfg t.task (afterArrivals cfg m ts))
    t.steps t.oracles
  have hat : (serveInput cfg t.task).attempt exec 0 t.steps t.oracles (afterArrivals cfg m ts) =
      (m', some (some r)) := hr
  rw [hat] at hmeets
  have hquiet : Quiet (afterArrivals cfg m ts) r m' := hmeets.2 (some r) rfl r rfl
  exact ⟨hquiet.refused, hquiet.duplicate⟩

/-- A well-formed post of one input. -/
def samplePost (w i : String) : Post where
  headers := [("authorization", "Bearer token"), ("x-request-id", i)]
  workflow := w
  body := .text (some (.obj [("input_id", .str i), ("body", .str "dir"),
    ("destructive", .bool false)]))

/-- That post, served to its end. -/
def sampleArrival (w i : String) : Prog.Try Arrival Oracle := ⟨.post (samplePost w i), 60, fun _ => {}⟩

def sampleConfig : ConnectConfig := ⟨"token", 60⟩

/-- The command runs once; the retry is answered as a duplicate and an input
for a workflow that does not exist with 404. -/
theorem input_route_sample :
    let w := afterArrivals sampleConfig (twoWorkflows "wf-1" "wf-2") [sampleArrival "wf-1" "in-1"]
    w.started = [("wf-1", "in-1")] ∧
      ((sampleArrival "wf-1" "in-1").at exec (serveInput sampleConfig) w).1.started = w.started ∧
      ((sampleArrival "wf-3" "in-1").at exec (serveInput sampleConfig) w).1 = w := by
  intro w
  have laws := (input_route_laws sampleConfig (twoWorkflows "wf-1" "wf-2")
    [sampleArrival "wf-1" "in-1"]).2
  have hdup : ((sampleArrival "wf-1" "in-1").at exec (serveInput sampleConfig) w).2 =
      some (some (jsonOk (.obj [("input_id", .str "in-1"), ("outcome", .str "duplicate")]))) := rfl
  have hunknown : ((sampleArrival "wf-3" "in-1").at exec (serveInput sampleConfig) w).2 =
      some (some (errorBody 404 "WORKFLOW_UNKNOWN" "unknown workflow")) := rfl
  exact ⟨rfl, (laws _ _ _ (Prod.ext rfl hdup)).2 rfl, (laws _ _ _ (Prod.ext rfl hunknown)).1 (by decide)⟩

end Calcar.Agent
