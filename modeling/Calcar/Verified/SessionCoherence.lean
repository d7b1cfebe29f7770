import Calcar.Verified.TerminalStages

/-!
# Which session an add-computer flow shows and decides

A record is put up whatever session it is of, and a join or a record that comes in
during a decision takes the flow back to the card, where the next decision may be
asked for.  What a decision is sent for is safe: it is what was shown at the tap.

## Main results

* `Tidy` — what ties the joins and the calls to the session shown.
* `Tidy.create`, `Tidy.socket`, `Tidy.tap`, `Tidy.answered` — each step keeps it.
* `session_coherence` — a run whose records and joins are of the session shown, and
  in which nothing but its answer comes in between a decision and its end, is
  coherent.
-/

namespace Calcar.Phone.Coherence

open Lib AddComputerController

/-! ## Calls under way -/

/-- A call of a decision: for the signature, or the decision itself. -/
def isDecision : Awaited → Bool
  | .sign _ _ => true
  | .decide _ => true
  | .create _ => false
  | .read _ => false

/-- The decision itself. -/
def isRequest : Awaited → Bool
  | .decide _ => true
  | .sign _ _ => false
  | .create _ => false
  | .read _ => false

def isCreate : Awaited → Bool
  | .create _ => true
  | .sign _ _ => false
  | .decide _ => false
  | .read _ => false

/-- No decision is under way. -/
def NoDecision (c : AddComputerController) : Prop := c.awaited.countP isDecision = 0

/-- The record is of an open session with a join. -/
def Joined (record : PairingSession) : Prop :=
  record.status ≠ some .expired ∧ ¬record.settled ∧ record.joinRequestId.getD "" ≠ ""

/-- The calls left once one of them is answered. -/
theorem countP_eraseIdx (p : Awaited → Bool) {calls : List Awaited} {i : Nat} {call : Awaited}
    (hcall : calls[i]? = some call) :
    calls.countP p = (calls.eraseIdx i).countP p + if p call = true then 1 else 0 := by
  induction calls generalizing i with
  | nil => cases hcall
  | cons first calls ih =>
      cases i with
      | zero =>
          cases hcall
          rw [List.eraseIdx_cons_zero, List.countP_cons]
      | succ i =>
          rw [List.eraseIdx_cons_succ, List.countP_cons, List.countP_cons, ih hcall]
          omega

theorem isRequest_le (calls : List Awaited) : calls.countP isRequest ≤ calls.countP isDecision := by
  refine List.countP_mono_left fun call _ h => ?_
  cases call with
  | decide call => rfl
  | sign sessionId join => rfl
  | create requestId => cases h
  | read sessionId => cases h

/-! ## The law -/

/-- After the step a join that is shown is of the session shown, one decision
request at most is under way, and what was sent is for the session and the join
that were shown at the tap: a reject at once, an approval by way of its
signature. -/
structure Coherent (c : AddComputerController) (_ : AddComputerController.Event)
    (c' : AddComputerController) : Prop where
  shown : ∀ join, c'.state.join = some join → join.sessionId = c'.state.sessionId
  single : c'.awaited.countP isRequest ≤ 1
  tapped : ∀ sessionId join, Awaited.sign sessionId join ∈ c'.awaited →
    Awaited.sign sessionId join ∈ c.awaited ∨
      (c.state.sessionId = sessionId ∧ c.state.join = some join)
  sent : ∀ call, Awaited.decide call ∈ c'.awaited →
    Awaited.decide call ∈ c.awaited ∨
      ∃ join, call.subjectPubkeyB64 = join.pubkeyB64 ∧
        (Awaited.sign call.sessionId join ∈ c.awaited ∨
          (c.state.sessionId = call.sessionId ∧ c.state.join = some join))

/-- A record with a join, and a join of the socket, is of the session shown and
does not come in during a decision; a new session is not asked for while the
decision of the last one is under way; and nothing is decided after `dispose`. -/
structure InSession (c : AddComputerController) (e : AddComputerController.Event)
    (_ : AddComputerController) : Prop where
  record (i : Nat) (record : PairingSession) : e = .answer i (.session record) →
    Joined record → c.gone = false →
      c.state.sessionId ≠ "" ∧ record.sessionId = c.state.sessionId ∧ NoDecision c
  socket (join : PairingJoin) : e = .applyJoin join → c.gone = false →
    c.state.sessionId ≠ "" → c.state.isTerminal = false →
      join.sessionId = c.state.sessionId ∧ NoDecision c
  create (now : Int) : e = .createSession now → c.state.isTerminal = true → NoDecision c
  tap (approve signer : Bool) (now : Int) : e = .decide approve signer now → c.gone = false

/-! ## The invariant -/

/-- What ties the joins and the calls to the session shown. -/
structure Tidy (c : AddComputerController) : Prop where
  shown : ∀ join, c.state.join = some join →
    c.state.sessionId ≠ "" ∧ join.sessionId = c.state.sessionId
  single : c.awaited.countP isDecision ≤ 1
  guarded : c.gone = false → c.awaited.countP isDecision ≠ 0 →
    c.state.sessionId ≠ "" ∧ (c.state.deciding = true ∨ c.state.isTerminal = true)
  creating : c.gone = false → c.awaited.countP isCreate ≠ 0 →
    c.state.join = none ∧ c.state.sessionId = "" ∧ c.state.busy = true ∧ NoDecision c
  once : c.gone = false → c.awaited.countP isCreate ≤ 1

section Steps

variable {c c' : AddComputerController}

/-- What is awaited after one more call. -/
theorem mem_snoc {call last : Awaited} {calls : List Awaited} (h : call ∈ calls ++ [last]) :
    call ∈ calls ∨ call = last :=
  (List.mem_append.1 h).imp_right List.mem_singleton.1

theorem emit_open (h : c.gone = false) (build : AddComputerState → AddComputerState) :
    c.emit build = { c with state := build c.state } := by
  simp [AddComputerController.emit, h]

/-- The session and its join stay, and so do the calls or fewer of them. -/
structure SameSession (c c' : AddComputerController) : Prop where
  join : c'.state.join = c.state.join
  sessionId : c'.state.sessionId = c.state.sessionId
  busy : c'.state.busy = c.state.busy
  gone : c'.gone = c.gone
  decisions : c'.awaited.countP isDecision ≤ c.awaited.countP isDecision
  creates : c'.awaited.countP isCreate ≤ c.awaited.countP isCreate

theorem Tidy.same (hc : Tidy c) (h : SameSession c c')
    (hguard : c'.gone = false → c'.awaited.countP isDecision ≠ 0 →
      c'.state.deciding = true ∨ c'.state.isTerminal = true) : Tidy c' where
  shown := by
    rw [h.join, h.sessionId]
    exact hc.shown
  single := Nat.le_trans h.decisions hc.single
  guarded := by
    intro hlive hsome
    have hbefore : c.awaited.countP isDecision ≠ 0 := by
      have := h.decisions
      omega
    refine ⟨?_, hguard hlive hsome⟩
    rw [h.sessionId]
    exact (hc.guarded (h.gone ▸ hlive) hbefore).1
  creating := by
    intro hlive hsome
    have hbefore : c.awaited.countP isCreate ≠ 0 := by
      have := h.creates
      omega
    obtain ⟨hjoin, hsession, hbusy, hnone⟩ := hc.creating (h.gone ▸ hlive) hbefore
    refine ⟨h.join.trans hjoin, h.sessionId.trans hsession, h.busy.trans hbusy, ?_⟩
    have := h.decisions
    unfold NoDecision at hnone ⊢
    omega
  once := fun hlive => Nat.le_trans h.creates (hc.once (h.gone ▸ hlive))

/-- Nothing new is awaited. -/
theorem Tidy.coherent {e : AddComputerController.Event} (h : Tidy c')
    (hsub : ∀ call ∈ c'.awaited, isDecision call = true → call ∈ c.awaited) :
    Coherent c e c' where
  shown := fun join hjoin => (h.shown join hjoin).2
  single := Nat.le_trans (isRequest_le c'.awaited) h.single
  tapped := fun _ _ hmem => .inl (hsub _ hmem rfl)
  sent := fun _ hmem => .inl (hsub _ hmem rfl)

/-- No decision is under way where the state is not deciding, unless it is terminal. -/
theorem Tidy.undecided (h : Tidy c) (hgone : c.gone = false) (hdeciding : ¬c.state.deciding = true)
    (hterminal : c.state.isTerminal = true → NoDecision c) : c.awaited.countP isDecision = 0 := by
  by_cases hsome : c.awaited.countP isDecision = 0
  · exact hsome
  · cases (h.guarded hgone hsome).2 with
    | inl hd => exact absurd hd hdeciding
    | inr ht => exact hterminal ht

/-! ### Calls -/

/-- A new session that is asked for. -/
structure Asked (c c' : AddComputerController) (requestId : String) : Prop where
  idle : ¬c.state.busy = true ∧ ¬c.state.deciding = true
  spent : ¬(c.state.sessionId ≠ "" ∧ c.state.isTerminal = false)
  awaited : c'.awaited = c.awaited ++ [.create requestId]
  gone : c'.gone = c.gone
  kept : c.gone = true → c'.state = c.state
  cleared : c.gone = false → c'.state = { stage := .create, busy := true }

theorem createSession_cases (c : AddComputerController) (now : Int) :
    c.createSession now = c ∨ ∃ requestId, Asked c (c.createSession now) requestId := by
  unfold AddComputerController.createSession
  by_cases hbusy : c.state.busy = true ∨ c.state.deciding = true
  · rw [if_pos hbusy]
    exact .inl rfl
  · rw [if_neg hbusy]
    by_cases hlive : c.state.sessionId ≠ "" ∧ c.state.isTerminal = false
    · rw [if_pos hlive]
      exact .inl rfl
    · rw [if_neg hlive]
      right
      dsimp only
      cases hgone : c.gone with
      | true =>
          rw [emit_gone (c := { c.stopPolling with attempts := c.attempts + 1 }) hgone]
          exact ⟨_, not_or.1 hbusy, hlive, rfl, rfl, fun _ => rfl,
            fun hopen => by cases hgone.symm.trans hopen⟩
      | false =>
          rw [emit_open (c := { c.stopPolling with attempts := c.attempts + 1 }) hgone]
          exact ⟨_, not_or.1 hbusy, hlive, rfl, rfl,
            (fun hclosed => by cases hgone.symm.trans hclosed), fun _ => rfl⟩

theorem Asked.decisions {requestId : String} (h : Asked c c' requestId) :
    c'.awaited.countP isDecision = c.awaited.countP isDecision := by
  rw [h.awaited, List.countP_append]
  rfl

theorem Asked.sub {requestId : String} (h : Asked c c' requestId) :
    ∀ call ∈ c'.awaited, isDecision call = true → call ∈ c.awaited := by
  intro call hmem hdecision
  rw [h.awaited] at hmem
  cases mem_snoc hmem with
  | inl hold => exact hold
  | inr hnew =>
      rw [hnew] at hdecision
      cases hdecision

theorem Asked.tidy {requestId : String} {now : Int} {c'' : AddComputerController}
    (h : Asked c c' requestId) (hc : Tidy c) (hin : InSession c (.createSession now) c'') :
    Tidy c' := by
  cases hgone : c.gone with
  | true =>
      have hclosed : c'.gone = true := h.gone.trans hgone
      refine ⟨?_, ?_, ?_, ?_, ?_⟩
      · rw [h.kept hgone]
        exact hc.shown
      · rw [h.decisions]
        exact hc.single
      all_goals
        intro hopen
        cases hclosed.symm.trans hopen
  | false =>
      have hnone := hc.undecided hgone h.idle.2 (hin.create now rfl)
      have hcreates : c.awaited.countP isCreate = 0 := by
        by_cases hsome : c.awaited.countP isCreate = 0
        · exact hsome
        · exact absurd (hc.creating hgone hsome).2.2.1 h.idle.1
      have hzero : c'.awaited.countP isDecision = 0 := h.decisions.trans hnone
      refine ⟨?_, ?_, ?_, ?_, ?_⟩
      · intro join hjoin
        rw [h.cleared hgone] at hjoin
        cases hjoin
      · rw [hzero]
        exact Nat.zero_le 1
      · intro _ hsome
        exact absurd hzero hsome
      · intro _ _
        rw [h.cleared hgone]
        exact ⟨rfl, rfl, rfl, hzero⟩
      · intro _
        rw [h.awaited, List.countP_append, hcreates]
        exact Nat.le_refl 1

theorem Tidy.create {now : Int} (h : Tidy c) (hin : InSession c (.createSession now) c') :
    Tidy (c.createSession now) ∧ Coherent c (.createSession now) (c.createSession now) := by
  cases createSession_cases c now with
  | inl hsame =>
      rw [hsame]
      exact ⟨h, h.coherent fun call hmem _ => hmem⟩
  | inr hasked =>
      obtain ⟨requestId, hasked⟩ := hasked
      have htidy := hasked.tidy h hin
      exact ⟨htidy, htidy.coherent hasked.sub⟩

theorem Tidy.socket {join : PairingJoin} (h : Tidy c) (hin : InSession c (.applyJoin join) c') :
    Tidy (c.emit fun state => Phone.applyJoin state join) := by
  cases hgone : c.gone with
  | true =>
      rw [emit_gone hgone]
      exact h
  | false =>
      rw [emit_open hgone]
      unfold Phone.applyJoin
      by_cases hguard : c.state.sessionId = "" ∨ c.state.isTerminal = true
      · rw [if_pos hguard]
        exact h
      · rw [if_neg hguard]
        rw [not_or] at hguard
        obtain ⟨hsession, hnone⟩ := hin.socket join rfl hgone hguard.1 (Bool.eq_false_iff.2 hguard.2)
        refine ⟨?_, h.single, ?_, ?_, h.once⟩
        · intro join' hjoin
          cases hjoin
          exact ⟨hguard.1, hsession⟩
        · intro _ hsome
          exact absurd hnone hsome
        · intro _ hsome
          exact absurd (h.creating hgone hsome).2.1 hguard.1

theorem Tidy.tick (h : Tidy c) (now : Int) : Tidy (c.tick now) := by
  unfold AddComputerController.tick
  by_cases hguard : c.state.isTerminal = true ∨ c.state.expiresAtMillis = 0
  · rw [if_pos hguard]
    exact h
  · rw [if_neg hguard]
    by_cases hopen : c.state.expiresAtMillis > now
    · rw [if_pos hopen]
      exact h
    · rw [if_neg hopen]
      cases hgone : c.gone with
      | true =>
          rw [emit_gone (c := c.stopPolling) hgone]
          exact h.same ⟨rfl, rfl, rfl, rfl, Nat.le_refl _, Nat.le_refl _⟩
            fun hlive => by cases hgone.symm.trans hlive
      | false =>
          rw [emit_open (c := c.stopPolling) hgone]
          exact h.same ⟨rfl, rfl, rfl, rfl, Nat.le_refl _, Nat.le_refl _⟩
            fun _ _ => .inr (by rfl)

theorem Tidy.read (h : Tidy c) : Tidy c.readSession ∧
    ∀ call ∈ c.readSession.awaited, isDecision call = true → call ∈ c.awaited := by
  unfold AddComputerController.readSession
  by_cases hguard : c.state.sessionId = "" ∨ c.state.isTerminal = true ∨ c.state.deciding = true
  · rw [if_pos hguard]
    exact ⟨h, fun call hmem _ => hmem⟩
  · rw [if_neg hguard]
    have hcount (p : Awaited → Bool) (hp : p (.read c.state.sessionId) = false) :
        (c.await (.read c.state.sessionId)).awaited.countP p = c.awaited.countP p := by
      show (c.awaited ++ [_]).countP p = _
      rw [List.countP_append, List.countP_singleton, hp]
      rfl
    refine ⟨h.same ⟨rfl, rfl, rfl, rfl, Nat.le_of_eq (hcount isDecision rfl),
      Nat.le_of_eq (hcount isCreate rfl)⟩ ?_, ?_⟩
    · intro hlive hsome
      rw [hcount isDecision rfl] at hsome
      exact (h.guarded hlive hsome).2
    · intro call hmem hdecision
      cases mem_snoc hmem with
      | inl hold => exact hold
      | inr hnew =>
          rw [hnew] at hdecision
          cases hdecision

/-- A decision that is asked for on a card. -/
theorem Tidy.asks (h : Tidy c) (hgone : c.gone = false) (hsession : c.state.sessionId ≠ "")
    (hdeciding : ¬c.state.deciding = true) (hterminal : ¬c.state.isTerminal = true)
    (stage : AddComputerStage) (hstage : stage = .approving ∨ stage = .rejecting)
    (call : Awaited) (hcall : isDecision call = true) (hcreate : isCreate call = false) :
    Tidy (({ c with state := { c.state with stage := stage, error := "" } } :
      AddComputerController).await call) := by
  have hnone := h.undecided hgone hdeciding fun ht => absurd ht hterminal
  have hcreates : (c.awaited ++ [call]).countP isCreate = 0 := by
    rw [List.countP_append, List.countP_singleton, hcreate]
    by_cases hsome : c.awaited.countP isCreate = 0
    · rw [hsome]
      rfl
    · exact absurd (h.creating hgone hsome).2.1 hsession
  refine ⟨h.shown, ?_, ?_, ?_, ?_⟩
  · show (c.awaited ++ [call]).countP isDecision ≤ 1
    rw [List.countP_append, List.countP_singleton, hnone, hcall]
    exact Nat.le_refl 1
  · intro _ _
    refine ⟨hsession, .inl ?_⟩
    show decide (stage = .approving ∨ stage = .rejecting) = true
    exact decide_eq_true hstage
  · intro _ hsome
    exact absurd hcreates hsome
  · intro _
    show (c.awaited ++ [call]).countP isCreate ≤ 1
    rw [hcreates]
    exact Nat.zero_le 1

theorem Tidy.tap {approve signer : Bool} {now : Int} (h : Tidy c)
    (hin : InSession c (.decide approve signer now) c') :
    Tidy (c.decide approve signer now) ∧
      Coherent c (.decide approve signer now) (c.decide approve signer now) := by
  have hgone := hin.tap approve signer now rfl
  have hsame : Tidy c ∧ Coherent c (.decide approve signer now) c :=
    ⟨h, h.coherent fun call hmem _ => hmem⟩
  unfold AddComputerController.decide
  cases hjoin : c.state.join with
  | none => exact hsame
  | some join =>
      dsimp only
      by_cases hguard : c.state.sessionId = "" ∨ c.state.deciding = true ∨
          c.state.isTerminal = true
      · rw [if_pos hguard]
        exact hsame
      · rw [if_neg hguard]
        rw [not_or, not_or] at hguard
        by_cases hkey : approve = true ∧ (signer = false ∨ join.pubkeyB64 = "")
        · rw [if_pos hkey, emit_open hgone]
          have htidy : Tidy { c with state := { c.state with
              error := "Cannot approve: the join public key never arrived. " ++
                "Scan again with the phone online." } } :=
            h.same ⟨rfl, rfl, rfl, rfl, Nat.le_refl _, Nat.le_refl _⟩
              fun hlive hsome => (h.guarded hlive hsome).2
          exact ⟨htidy, htidy.coherent fun call hmem _ => hmem⟩
        · rw [if_neg hkey, emit_open hgone]
          cases approve with
          | true =>
              have htidy := h.asks hgone hguard.1 hguard.2.1 hguard.2.2 .approving
                (.inl rfl) (.sign c.state.sessionId join) rfl rfl
              refine ⟨htidy, fun join' hshown => (htidy.shown join' hshown).2,
                Nat.le_trans (isRequest_le _) htidy.single, ?_, ?_⟩
              · intro sessionId join' hmem
                cases mem_snoc hmem with
                | inl hold => exact .inl hold
                | inr hnew =>
                    cases hnew
                    exact .inr ⟨rfl, hjoin⟩
              · intro call hmem
                cases mem_snoc hmem with
                | inl hold => exact .inl hold
                | inr hnew => cases hnew
          | false =>
              have htidy (call : DecisionCall) := h.asks hgone hguard.1 hguard.2.1 hguard.2.2
                .rejecting (.inr rfl) (.decide call) rfl rfl
              refine ⟨htidy _, fun join' hshown => ((htidy _).shown join' hshown).2,
                Nat.le_trans (isRequest_le _) (htidy _).single, ?_, ?_⟩
              · intro sessionId join' hmem
                cases mem_snoc hmem with
                | inl hold => exact .inl hold
                | inr hnew => cases hnew
              · intro call hmem
                cases mem_snoc hmem with
                | inl hold => exact .inl hold
                | inr hnew =>
                    cases hnew
                    exact .inr ⟨join, rfl, .inr ⟨rfl, hjoin⟩⟩

/-! ### Answers -/

@[simp] theorem emit_closed (build : AddComputerState → AddComputerState) :
    (c.emit build).gone = c.gone := by
  unfold AddComputerController.emit
  split <;> rfl

theorem SameSession.trans {c'' : AddComputerController} (h : SameSession c c')
    (h' : SameSession c' c'') : SameSession c c'' where
  join := h'.join.trans h.join
  sessionId := h'.sessionId.trans h.sessionId
  busy := h'.busy.trans h.busy
  gone := h'.gone.trans h.gone
  decisions := Nat.le_trans h'.decisions h.decisions
  creates := Nat.le_trans h'.creates h.creates

/-- A state that is emitted with its session and its join. -/
theorem emit_same {build : AddComputerState → AddComputerState}
    (hjoin : ∀ state, (build state).join = state.join)
    (hsession : ∀ state, (build state).sessionId = state.sessionId)
    (hbusy : ∀ state, (build state).busy = state.busy) : SameSession c (c.emit build) := by
  unfold AddComputerController.emit
  split
  · exact ⟨rfl, rfl, rfl, rfl, Nat.le_refl _, Nat.le_refl _⟩
  · exact ⟨hjoin _, hsession _, hbusy _, rfl, Nat.le_refl _, Nat.le_refl _⟩

theorem stopPolling_same : SameSession c c.stopPolling :=
  ⟨rfl, rfl, rfl, rfl, Nat.le_refl _, Nat.le_refl _⟩

theorem failDecision_same (error : Thrown) :
    SameSession c (c.failDecision error) ∧ (c.failDecision error).awaited = c.awaited := by
  unfold failDecision
  dsimp only
  split
  · exact ⟨stopPolling_same.trans (emit_same (fun _ => rfl) (fun _ => rfl) fun _ => rfl),
      emit_awaited _ _⟩
  · split
    · exact ⟨stopPolling_same.trans (emit_same (fun _ => rfl) (fun _ => rfl) fun _ => rfl),
        emit_awaited _ _⟩
    · exact ⟨stopPolling_same.trans (emit_same (fun _ => rfl) (fun _ => rfl) fun _ => rfl),
        emit_awaited _ _⟩

theorem decided_same (subjectDeviceId : Option String) :
    SameSession c (c.decided subjectDeviceId) ∧
      (c.decided subjectDeviceId).awaited = c.awaited :=
  ⟨stopPolling_same.trans (emit_same (fun _ => rfl) (fun _ => rfl) fun _ => rfl), emit_awaited _ _⟩

theorem readFailed_same (error : Thrown) :
    SameSession c (c.readFailed error) ∧ (c.readFailed error).awaited = c.awaited := by
  unfold readFailed
  split
  · exact ⟨stopPolling_same.trans (emit_same (fun _ => rfl) (fun _ => rfl) fun _ => rfl),
      emit_awaited _ _⟩
  · exact ⟨⟨rfl, rfl, rfl, rfl, Nat.le_refl _, Nat.le_refl _⟩, rfl⟩

/-- What a call that is answered leaves of the others. -/
def left (c : AddComputerController) (i : Nat) : AddComputerController :=
  { c with awaited := c.awaited.eraseIdx i }

theorem left_same {i : Nat} {call : Awaited} (hcall : c.awaited[i]? = some call) :
    SameSession c (left c i) := by
  have hdecisions := countP_eraseIdx isDecision hcall
  have hcreates := countP_eraseIdx isCreate hcall
  exact ⟨rfl, rfl, rfl, rfl, Nat.le.intro hdecisions.symm, Nat.le.intro hcreates.symm⟩

theorem left_sub {i : Nat} : ∀ call ∈ (left c i).awaited, call ∈ c.awaited :=
  fun _ hmem => List.mem_of_mem_eraseIdx hmem

/-- The end of a decision leaves no decision under way. -/
theorem Tidy.decisionOver {i : Nat} {call : Awaited} (h : Tidy c)
    (hcall : c.awaited[i]? = some call) (hdecision : isDecision call = true)
    (hsame : SameSession (left c i) c') : Tidy c' := by
  refine h.same ((left_same hcall).trans hsame) fun _ hsome => ?_
  have hcount := countP_eraseIdx isDecision hcall
  rw [if_pos hdecision] at hcount
  have hleft : (left c i).awaited.countP isDecision = (c.awaited.eraseIdx i).countP isDecision := rfl
  have hless := hsame.decisions
  have hsingle := h.single
  omega

/-- The end of a creation, whatever it shows. -/
theorem Tidy.creationOver {i : Nat} {requestId : String} (h : Tidy c) (hgone : c.gone = false)
    (hcall : c.awaited[i]? = some (.create requestId))
    (hawaited : c'.awaited = c.awaited.eraseIdx i) (hjoin : c'.state.join = c.state.join) :
    Tidy c' := by
  have hcreates := countP_eraseIdx isCreate hcall
  have hdecisions := countP_eraseIdx isDecision hcall
  rw [if_pos (show isCreate (.create requestId) = true from rfl)] at hcreates
  have honce := h.once hgone
  have hsome : c.awaited.countP isCreate ≠ 0 := by omega
  obtain ⟨hnone, -, -, hidle⟩ := h.creating hgone hsome
  unfold NoDecision at hidle
  have hzero : c'.awaited.countP isDecision = 0 := by
    rw [hawaited]
    omega
  have hleft : c'.awaited.countP isCreate = 0 := by
    rw [hawaited]
    omega
  refine ⟨?_, ?_, fun _ hd => absurd hzero hd, fun _ hc => absurd hleft hc, ?_⟩
  · intro join hshown
    rw [hjoin, hnone] at hshown
    cases hshown
  · rw [hzero]
    exact Nat.zero_le 1
  · intro _
    rw [hleft]
    exact Nat.zero_le 1

/-- The record of a session that was read. -/
theorem Tidy.polled {i : Nat} {sessionId : String} {session : PairingSession} (h : Tidy c)
    (hcall : c.awaited[i]? = some (.read sessionId))
    (hin : Joined session → c.gone = false →
      c.state.sessionId ≠ "" ∧ session.sessionId = c.state.sessionId ∧ NoDecision c) :
    Tidy ((left c i).polled session) := by
  have hleft := left_same hcall
  have hdecisions := countP_eraseIdx isDecision hcall
  have hkept : (c.awaited.eraseIdx i).countP isDecision = c.awaited.countP isDecision := by
    rw [if_neg (show ¬isDecision (.read sessionId) = true by simp [isDecision])] at hdecisions
    omega
  have hopen (d : AddComputerController) (hd : SameSession (left c i) d)
      (hstate : d.state = c.state) : Tidy (d.emit fun state => applySession c.deviceId state session) := by
    have hsame := hleft.trans hd
    cases hgone : c.gone with
    | true =>
        rw [emit_gone (hd.gone.trans hgone)]
        exact h.same hsame fun hlive => by cases (hsame.gone.trans hgone).symm.trans hlive
    | false =>
        rw [emit_open (hd.gone.trans hgone), hstate]
        unfold applySession
        by_cases hexpired : session.status = some .expired
        · rw [if_pos hexpired]
          exact h.same ⟨rfl, rfl, rfl, hsame.gone, hsame.decisions, hsame.creates⟩
            fun _ _ => .inr (by rfl)
        · rw [if_neg hexpired]
          by_cases hover : session.settled
          · rw [if_pos (show _ ∨ _ ∨ _ from hover)]
            exact h.same ⟨rfl, rfl, rfl, hsame.gone, hsame.decisions, hsame.creates⟩
              fun _ _ => .inr (by rfl)
          · rw [if_neg (show ¬(_ ∨ _ ∨ _) from hover)]
            by_cases hblank : session.joinRequestId.getD "" = ""
            · simp only [if_pos hblank]
              refine h.same ⟨rfl, rfl, rfl, hsame.gone, hsame.decisions, hsame.creates⟩
                fun _ hsome => ?_
              have hbefore : c.awaited.countP isDecision ≠ 0 := by
                have hless := hsame.decisions
                intro hzero
                rw [hzero] at hless
                exact hsome (Nat.le_zero.1 hless)
              exact (h.guarded hgone hbefore).2
            · simp only [if_neg hblank]
              obtain ⟨hsession, hsameId, hnone⟩ := hin ⟨hexpired, hover, hblank⟩ hgone
              have hzero : d.awaited.countP isDecision = 0 := by
                have hless := hsame.decisions
                unfold NoDecision at hnone
                omega
              refine ⟨?_, ?_, fun _ hsome => absurd hzero hsome, ?_, ?_⟩
              · intro join hjoin
                cases hjoin
                exact ⟨hsession, hsameId⟩
              · show d.awaited.countP isDecision ≤ 1
                rw [hzero]
                exact Nat.zero_le 1
              · intro _ hsome
                have hbefore : c.awaited.countP isCreate ≠ 0 := by
                  have hless := hsame.creates
                  intro hzero'
                  rw [hzero'] at hless
                  exact hsome (Nat.le_zero.1 hless)
                exact absurd (h.creating hgone hbefore).2.1 hsession
              · intro _
                exact Nat.le_trans hsame.creates (h.once hgone)
  unfold AddComputerController.polled
  split
  · exact hopen _ stopPolling_same rfl
  · exact hopen _ ⟨rfl, rfl, rfl, rfl, Nat.le_refl _, Nat.le_refl _⟩ rfl

theorem polled_awaited (session : PairingSession) : (c.polled session).awaited = c.awaited := by
  unfold AddComputerController.polled
  split <;> exact emit_awaited _ _

/-- The signature is there, and the decision is sent. -/
theorem Tidy.signed {i : Nat} {sessionId : String} {join : PairingJoin} (h : Tidy c)
    (hcall : c.awaited[i]? = some (.sign sessionId join)) (authorization : PairingAuthorization)
    (now : Int) : Tidy ((left c i).signed sessionId join authorization now) := by
  have hdecisions := countP_eraseIdx isDecision hcall
  have hcreates := countP_eraseIdx isCreate hcall
  rw [if_pos (show isDecision (.sign sessionId join) = true from rfl)] at hdecisions
  have hcount (p : Awaited → Bool) (call : Awaited) :
      (c.awaited.eraseIdx i ++ [call]).countP p =
        (c.awaited.eraseIdx i).countP p + if p call = true then 1 else 0 := by
    rw [List.countP_append, List.countP_singleton]
  unfold AddComputerController.signed
  refine h.same ⟨rfl, rfl, rfl, rfl, ?_, ?_⟩ fun hlive _ => ?_
  · show (c.awaited.eraseIdx i ++ [_]).countP isDecision ≤ _
    rw [hcount, hdecisions]
    exact Nat.le_refl _
  · show (c.awaited.eraseIdx i ++ [_]).countP isCreate ≤ _
    rw [hcount, hcreates]
    exact Nat.le_refl _
  · exact (h.guarded hlive (by omega)).2

theorem signed_coherent {i : Nat} {sessionId : String} {join : PairingJoin} (h : Tidy c)
    (hcall : c.awaited[i]? = some (.sign sessionId join)) (authorization : PairingAuthorization)
    (now : Int) {e : AddComputerController.Event} :
    Coherent c e ((left c i).signed sessionId join authorization now) := by
  have htidy := h.signed hcall authorization now
  refine ⟨fun join' hshown => (htidy.shown join' hshown).2,
    Nat.le_trans (isRequest_le _) htidy.single, ?_, ?_⟩
  · intro sessionId' join' hmem
    cases mem_snoc hmem with
    | inl hold => exact .inl (left_sub _ hold)
    | inr hnew => cases hnew
  · intro call hmem
    cases mem_snoc hmem with
    | inl hold => exact .inl (left_sub _ hold)
    | inr hnew =>
        cases hnew
        exact .inr ⟨join, rfl, .inl (List.mem_of_getElem? hcall)⟩

theorem Tidy.answered {i : Nat} {a : Answer} {call : Awaited} (h : Tidy c)
    (hcall : c.awaited[i]? = some call) (hanswer : (left c i).answer call a = some c')
    (hin : InSession c (.answer i a) c') : Tidy c' ∧ Coherent c (.answer i a) c' := by
  have hdone (htidy : Tidy c') (hawaited : c'.awaited = (left c i).awaited) :
      Tidy c' ∧ Coherent c (.answer i a) c' :=
    ⟨htidy, htidy.coherent fun call' hmem _ => left_sub call' (hawaited ▸ hmem)⟩
  cases call with
  | create requestId =>
      have hover (hjoin : c.gone = false → c'.state.join = c.state.join)
          (hkept : c.gone = true → SameSession (left c i) c')
          (hawaited : c'.awaited = (left c i).awaited) :
          Tidy c' ∧ Coherent c (.answer i a) c' := by
        cases hgone : c.gone with
        | true =>
            have hsame := (left_same hcall).trans (hkept hgone)
            refine hdone (h.same hsame fun hlive => ?_) hawaited
            cases (hsame.gone.trans hgone).symm.trans hlive
        | false => exact hdone (h.creationOver hgone hcall hawaited (hjoin hgone)) hawaited
      cases a with
      | created session =>
          cases hanswer
          refine hover ?_ ?_ ?_
          · intro hgone
            unfold AddComputerController.created
            rw [emit_open (c := left c i) hgone]
            rfl
          · intro hgone
            unfold AddComputerController.created
            rw [emit_gone (c := left c i) hgone]
            exact ⟨rfl, rfl, rfl, rfl, Nat.le_refl _, Nat.le_refl _⟩
          · exact emit_awaited (c := left c i) _
      | threw error =>
          cases hanswer
          refine hover ?_ ?_ (emit_awaited _ _)
          · intro hgone
            unfold AddComputerController.createFailed
            rw [emit_open (c := left c i) hgone]
            rfl
          · intro hgone
            unfold AddComputerController.createFailed
            rw [emit_gone (c := left c i) hgone]
            exact ⟨rfl, rfl, rfl, rfl, Nat.le_refl _, Nat.le_refl _⟩
      | signed authorization now => cases hanswer
      | decided subjectDeviceId => cases hanswer
      | session record => cases hanswer
  | sign sessionId join =>
      cases a with
      | signed authorization now =>
          cases hanswer
          exact ⟨h.signed hcall authorization now, signed_coherent h hcall authorization now⟩
      | threw error =>
          cases hanswer
          obtain ⟨hsame, hawaited⟩ := failDecision_same (c := left c i) error
          exact hdone (h.decisionOver hcall rfl hsame) hawaited
      | created session => cases hanswer
      | decided subjectDeviceId => cases hanswer
      | session record => cases hanswer
  | decide request =>
      cases a with
      | decided subjectDeviceId =>
          cases hanswer
          obtain ⟨hsame, hawaited⟩ := decided_same (c := left c i) subjectDeviceId
          exact hdone (h.decisionOver hcall rfl hsame) hawaited
      | threw error =>
          cases hanswer
          obtain ⟨hsame, hawaited⟩ := failDecision_same (c := left c i) error
          exact hdone (h.decisionOver hcall rfl hsame) hawaited
      | created session => cases hanswer
      | signed authorization now => cases hanswer
      | session record => cases hanswer
  | read sessionId =>
      cases a with
      | session record =>
          cases hanswer
          exact hdone (h.polled hcall (hin.record i record rfl)) (polled_awaited record)
      | threw error =>
          cases hanswer
          obtain ⟨hsame, hawaited⟩ := readFailed_same (c := left c i) error
          have hboth := (left_same hcall).trans hsame
          refine hdone (h.same hboth fun hlive hsome => ?_) hawaited
          have hopen : c.gone = false := hboth.gone.symm.trans hlive
          have hbefore : c.awaited.countP isDecision ≠ 0 := by
            have hless := hboth.decisions
            intro hzero
            rw [hzero] at hless
            exact hsome (Nat.le_zero.1 hless)
          unfold readFailed
          split
          · rw [emit_open (c := (left c i).stopPolling) hopen]
            exact .inr (by rfl)
          · exact (h.guarded hopen hbefore).2
      | created session => cases hanswer
      | signed authorization now => cases hanswer
      | decided subjectDeviceId => cases hanswer

/-! ### Steps -/

theorem Tidy.step {e : AddComputerController.Event} (h : Tidy c) (hin : InSession c e c')
    (hnext : c.next e = some c') : Tidy c' ∧ Coherent c e c' := by
  cases e with
  | createSession now =>
      cases hnext
      exact h.create hin
  | applyJoin join =>
      cases hnext
      have htidy := h.socket hin
      exact ⟨htidy, htidy.coherent fun call hmem _ => (emit_awaited _ _) ▸ hmem⟩
  | decide approve signer now =>
      cases hnext
      exact h.tap hin
  | tick now =>
      cases hnext
      have hawaited : (c.tick now).awaited = c.awaited := by
        unfold AddComputerController.tick
        split
        · rfl
        · split
          · rfl
          · exact emit_awaited _ _
      exact ⟨h.tick now, (h.tick now).coherent fun call hmem _ => hawaited ▸ hmem⟩
  | readSession =>
      cases hnext
      exact ⟨h.read.1, h.read.1.coherent h.read.2⟩
  | fire =>
      rw [AddComputerController.next] at hnext
      split at hnext
      · cases hnext
        exact ⟨h.read.1, h.read.1.coherent h.read.2⟩
      · cases hnext
  | answer i a =>
      obtain ⟨call, hcall, hanswer⟩ := Option.bind_eq_some_iff.1 hnext
      exact h.answered hcall hanswer hin
  | device deviceId =>
      cases hnext
      have htidy : Tidy { c with deviceId := deviceId } :=
        ⟨h.shown, h.single, h.guarded, h.creating, h.once⟩
      exact ⟨htidy, htidy.coherent fun call hmem _ => hmem⟩
  | dispose =>
      cases hnext
      have htidy : Tidy c.dispose :=
        ⟨h.shown, h.single, fun hlive => (by cases hlive), fun hlive => (by cases hlive),
          fun hlive => by cases hlive⟩
      exact ⟨htidy, htidy.coherent fun call hmem _ => hmem⟩

end Steps

/-- **Session coherence.** A run of a new controller is coherent if the records with
a join and the joins of the socket that come in are of the session shown and come in
outside decisions, no session is asked for during the decision of the last one, and
nothing is decided after `dispose`. -/
theorem session_coherence (flowId deviceId : String) (events : List AddComputerController.Event)
    (hin : Every AddComputerController.next InSession (.initial flowId deviceId) events) :
    Every AddComputerController.next Coherent (.initial flowId deviceId) events := by
  refine hin.carry (Q := Coherent) Tidy ?_ ?_
  · intro c e c' h hnext hstep
    obtain ⟨htidy, hcoherent⟩ := h.step hstep hnext
    exact ⟨hcoherent, htidy⟩
  · refine ⟨?_, Nat.zero_le 1, fun _ hsome => absurd rfl hsome, fun _ hsome => absurd rfl hsome,
      fun _ => Nat.zero_le 1⟩
    intro join hjoin
    cases hjoin

namespace TwoSessions

def session (sessionId : String) (expiresAtMillis : Int) : PairingSession where
  sessionId := sessionId
  status := some .pending
  ownerDeviceId := "owner"
  expiresAtMillis := expiresAtMillis
  qrNonce := "nonce"

/-- The record of a session with the join that came in. -/
def joined (sessionId : String) : Answer :=
  .session { session sessionId 1000 with joinRequestId := some "J-1" }

/-- A session is read, joined and rejected. -/
def rejected : List AddComputerController.Event :=
  [.createSession 1, .answer 0 (.created (session "PS-1" 1000)), .fire,
    .answer 0 (joined "PS-1"), .decide false true 9, .answer 0 (.decided none)]

/-- A session expires while it is read, and a second one is opened. -/
def reopened : List AddComputerController.Event :=
  [.createSession 1, .answer 0 (.created (session "PS-1" 1000)), .fire, .tick 1000,
    .createSession 1001, .answer 1 (.created (session "PS-2" 2000))]

def shown : AddComputerController where
  flowId := "flow"
  deviceId := "owner"
  state := {
    stage := .qr
    sessionId := "PS-2"
    qrNonce := "nonce"
    expiresAtMillis := 2000 }
  poll := true
  attempts := 2
  awaited := [.read "PS-1"]

/-- `InSession`, computed where no join comes by the socket. -/
def inSession (c : AddComputerController) : AddComputerController.Event → Bool
  | .answer _ (.session record) =>
      decide (c.state.sessionId ≠ "" ∧ record.sessionId = c.state.sessionId) &&
        c.awaited.countP isDecision == 0
  | .createSession _ => c.awaited.countP isDecision == 0
  | .decide _ _ _ => !c.gone
  | .applyJoin _ => false
  | _ => true

theorem inSession_spec (c : AddComputerController) (e : AddComputerController.Event)
    (c' : AddComputerController) (h : inSession c e = true) : InSession c e c' where
  record := by
    rintro i record rfl _ _
    simpa [inSession, and_assoc, NoDecision] using h
  socket := by
    rintro join rfl
    cases h
  create := by
    rintro now rfl _
    simpa [inSession, NoDecision] using h
  tap := by
    rintro approve signer now rfl
    simpa [inSession] using h

theorem in_session : Every AddComputerController.next InSession (.initial "flow" "owner") rejected :=
  every_of_passes inSession_spec (by decide)

end TwoSessions

/-- The session that is rejected. -/
theorem session_coherence_sample :
    Every AddComputerController.next Coherent (.initial "flow" "owner") TwoSessions.rejected :=
  session_coherence "flow" "owner" TwoSessions.rejected TwoSessions.in_session

/-- A record of the last session puts its join on the card of the new one. -/
theorem join_of_last_session :
    ¬∀ (flowId deviceId : String) (events : List AddComputerController.Event),
      Every AddComputerController.next Coherent (.initial flowId deviceId) events := by
  intro h
  have hrun : follow AddComputerController.next (.initial "flow" "owner") TwoSessions.reopened =
      some TwoSessions.shown := by decide
  have hstep : TwoSessions.shown.next (.answer 0 (TwoSessions.joined "PS-1")) =
      some ((TwoSessions.shown.next (.answer 0 (TwoSessions.joined "PS-1"))).get
        (by decide)) := by
    rw [Option.some_get]
  have hcoherent := (h "flow" "owner"
    (TwoSessions.reopened ++ [.answer 0 (TwoSessions.joined "PS-1")])).last hrun hstep
  have hsession := hcoherent.shown (((TwoSessions.shown.next
    (.answer 0 (TwoSessions.joined "PS-1"))).get (by decide)).state.join.get
      (by decide)) (by rw [Option.some_get])
  exact absurd hsession (by decide)

end Calcar.Phone.Coherence
