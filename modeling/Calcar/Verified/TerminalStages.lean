import Calcar.Phone.AddComputer

/-!
# The terminal stages of the add-computer flow

`done` and `expired` are guarded where a call is issued and not where its
answer comes in.  An answer that comes in at a terminal stage is harmless if it
reports that stage, or nothing (`Answer.AgreesWith`); everything else the
controller is told leaves the stage alone.

## Main results

* `answer_stage` — an answer at a terminal stage keeps it if and only if it
  agrees with it.
* `terminal_stages` — in a run the terminal stages are kept exactly where the
  answers that come in at them agree with them.
-/

namespace Calcar.Phone

open Lib

theorem isTerminal_iff {state : AddComputerState} :
    state.isTerminal = true ↔ state.stage = .done ∨ state.stage = .expired := by
  simp [AddComputerState.isTerminal]

/-! ## Answers -/

/-- The record is of a session that was decided. -/
def PairingSession.settled (session : PairingSession) : Prop :=
  session.status = some .consumed ∨ session.status = some .approved ∨
    session.status = some .rejected

instance (session : PairingSession) : Decidable session.settled :=
  inferInstanceAs (Decidable (_ ∨ _))

/-- The error says that the session is gone. -/
def Thrown.gone (error : Thrown) : Prop :=
  error.code = ApiCodes.pairingExpired ∨ error.code = ApiCodes.unknownSession

instance (error : Thrown) : Decidable error.gone := inferInstanceAs (Decidable (_ ∨ _))

/-- What may come in at a terminal stage without moving it.  A new session may
not, nor a failed decision that left its session open, nor the record of an
open session with a join; whatever tells of the end of a session has to tell of
the end that is shown. -/
def Answer.AgreesWith (stage : AddComputerStage) : Awaited → Answer → Prop
  | .create _, .created _ => False
  | .decide _, .decided _ => stage = .done
  | .sign _ _, .threw error | .decide _, .threw error =>
      (error.code = ApiCodes.pairingConsumed ∧ stage = .done) ∨ (error.gone ∧ stage = .expired)
  | .read _, .session record =>
      (record.status = some .expired → stage = .expired) ∧
        (record.settled → stage = .done) ∧
        (record.status ≠ some .expired → ¬record.settled →
          record.joinRequestId.getD "" = "")
  | .read _, .threw error => error.gone → stage = .expired
  | _, _ => True

section Stages

variable {c : AddComputerController}

/-- The stage after an update of the state. -/
theorem emit_stage (h : c.gone = false) (build : AddComputerState → AddComputerState) :
    (c.emit build).state = build c.state := by
  simp [AddComputerController.emit, h]

theorem emit_gone (h : c.gone = true) (build : AddComputerState → AddComputerState) :
    c.emit build = c := by
  simp [AddComputerController.emit, h]

theorem waiting_ne {state : AddComputerState} (h : state.isTerminal = true) :
    AddComputerStage.waiting ≠ state.stage := by
  intro heq
  rw [isTerminal_iff, ← heq] at h
  simp at h

/-- The stage the record of a session puts a controller in. -/
theorem applySession_stage (deviceId : String) (state : AddComputerState)
    (session : PairingSession) :
    (applySession deviceId state session).stage =
      if session.status = some .expired then .expired
      else if session.settled then .done
      else if session.joinRequestId.getD "" = "" then state.stage
      else .waiting := by
  unfold applySession
  by_cases hexpired : session.status = some .expired
  · rw [if_pos hexpired, if_pos hexpired]
  · rw [if_neg hexpired, if_neg hexpired]
    by_cases hover : session.settled
    · rw [if_pos hover, if_pos (show _ ∨ _ ∨ _ from hover)]
    · rw [if_neg hover, if_neg (show ¬(_ ∨ _ ∨ _) from hover)]
      by_cases hjoin : session.joinRequestId.getD "" = ""
      · simp only [if_pos hjoin]
      · simp only [if_neg hjoin]

theorem polled_stage (h : c.gone = false) (session : PairingSession) :
    (c.polled session).state.stage =
      (applySession c.deviceId c.state session).stage := by
  unfold AddComputerController.polled
  split
  · exact congrArg _ (emit_stage (c := c.stopPolling) h _)
  · exact congrArg _ (emit_stage h _)

theorem failDecision_stage (h : c.gone = false) (error : Thrown) :
    (c.failDecision error).state.stage =
      if error.code = ApiCodes.pairingConsumed then .done
      else if error.gone then .expired
      else .waiting := by
  have hstop : c.stopPolling.gone = false := h
  unfold AddComputerController.failDecision
  by_cases hconsumed : error.code = ApiCodes.pairingConsumed
  · simp only [if_pos hconsumed, emit_stage hstop]
  · by_cases hgone : error.gone
    · simp only [if_neg hconsumed, if_pos hgone, if_pos (show _ ∨ _ from hgone),
        emit_stage hstop]
    · simp only [if_neg hconsumed, if_neg hgone, if_neg (show ¬(_ ∨ _) from hgone),
        emit_stage hstop]

theorem readFailed_stage (h : c.gone = false) (error : Thrown) :
    (c.readFailed error).state.stage = if error.gone then .expired else c.state.stage := by
  have hstop : c.stopPolling.gone = false := h
  unfold AddComputerController.readFailed
  by_cases hgone : error.gone
  · rw [if_pos hgone, if_pos (show _ ∨ _ from hgone), emit_stage hstop]
  · rw [if_neg hgone, if_neg (show ¬(_ ∨ _) from hgone)]

/-! ### An answer to each call, at a terminal stage -/

theorem failDecision_keeps (h : c.gone = false) (hterm : c.state.isTerminal = true)
    (error : Thrown) :
    (c.failDecision error).state.stage = c.state.stage ↔
      (error.code = ApiCodes.pairingConsumed ∧ c.state.stage = .done) ∨
        (error.gone ∧ c.state.stage = .expired) := by
  rw [failDecision_stage h]
  by_cases hconsumed : error.code = ApiCodes.pairingConsumed
  · have hopen : ¬error.gone := by
      rw [Thrown.gone, hconsumed]
      decide
    rw [if_pos hconsumed]
    constructor
    · intro hstage
      exact .inl ⟨hconsumed, hstage.symm⟩
    · rintro (⟨-, hstage⟩ | ⟨hgone, -⟩)
      · exact hstage.symm
      · exact absurd hgone hopen
  · rw [if_neg hconsumed]
    by_cases hgone : error.gone
    · rw [if_pos hgone]
      constructor
      · intro hstage
        exact .inr ⟨hgone, hstage.symm⟩
      · rintro (⟨hcode, -⟩ | ⟨-, hstage⟩)
        · exact absurd hcode hconsumed
        · exact hstage.symm
    · have hwait := waiting_ne hterm
      simp [hconsumed, hgone, hwait]

theorem polled_keeps (h : c.gone = false) (hterm : c.state.isTerminal = true)
    (session : PairingSession) :
    (c.polled session).state.stage = c.state.stage ↔
      (session.status = some .expired → c.state.stage = .expired) ∧
        (session.settled → c.state.stage = .done) ∧
        (session.status ≠ some .expired → ¬session.settled →
          session.joinRequestId.getD "" = "") := by
  rw [polled_stage h, applySession_stage]
  by_cases hexpired : session.status = some .expired
  · have hopen : ¬session.settled := by simp [PairingSession.settled, hexpired]
    rw [if_pos hexpired]
    constructor
    · intro hstage
      exact ⟨fun _ => hstage.symm, fun h => absurd h hopen, fun h => absurd hexpired h⟩
    · intro hagree
      exact (hagree.1 hexpired).symm
  · rw [if_neg hexpired]
    by_cases hover : session.settled
    · rw [if_pos hover]
      constructor
      · intro hstage
        exact ⟨fun h => absurd h hexpired, fun _ => hstage.symm, fun _ h => absurd hover h⟩
      · intro hagree
        exact (hagree.2.1 hover).symm
    · have hwait := waiting_ne hterm
      by_cases hjoin : session.joinRequestId.getD "" = ""
      · simp [hexpired, hover, hjoin]
      · simp [hexpired, hover, hjoin, hwait]

theorem readFailed_keeps (h : c.gone = false) (error : Thrown) :
    (c.readFailed error).state.stage = c.state.stage ↔
      (error.gone → c.state.stage = .expired) := by
  rw [readFailed_stage h]
  by_cases hgone : error.gone
  · rw [if_pos hgone]
    exact ⟨fun hstage _ => hstage.symm, fun hagree => (hagree hgone).symm⟩
  · simp [hgone]

theorem created_keeps (h : c.gone = false) (hterm : c.state.isTerminal = true)
    (session : PairingSession) : (c.created session).state.stage ≠ c.state.stage := by
  have hqr : (c.created session).state.stage = .qr := by
    unfold AddComputerController.created AddComputerController.startPolling
    rw [show ∀ d : AddComputerController, ({ d with poll := true } : AddComputerController).state =
      d.state from fun _ => rfl, emit_stage h]
  rw [hqr]
  intro heq
  rw [isTerminal_iff, ← heq] at hterm
  simp at hterm

/-- **An answer at a terminal stage keeps it if and only if it agrees with it.** -/
theorem answer_stage (h : c.gone = false) (hterm : c.state.isTerminal = true) {call : Awaited}
    {a : Answer} {c' : AddComputerController} (hanswer : c.answer call a = some c') :
    c'.state.stage = c.state.stage ↔ a.AgreesWith c.state.stage call := by
  cases call with
  | create requestId =>
      cases a with
      | created session =>
          cases hanswer
          exact iff_of_false (created_keeps h hterm session) id
      | threw error =>
          cases hanswer
          refine iff_of_true ?_ trivial
          unfold AddComputerController.createFailed
          rw [emit_stage h]
      | _ => cases hanswer
  | sign sessionId join =>
      cases a with
      | signed authorization now =>
          cases hanswer
          exact iff_of_true rfl trivial
      | threw error =>
          cases hanswer
          exact failDecision_keeps h hterm error
      | _ => cases hanswer
  | decide request =>
      cases a with
      | decided subjectDeviceId =>
          cases hanswer
          have hdone : (c.decided subjectDeviceId).state.stage = .done := by
            unfold AddComputerController.decided
            rw [emit_stage (c := c.stopPolling) h]
          rw [hdone, Answer.AgreesWith, eq_comm]
      | threw error =>
          cases hanswer
          exact failDecision_keeps h hterm error
      | _ => cases hanswer
  | read sessionId =>
      cases a with
      | session record =>
          cases hanswer
          exact polled_keeps h hterm record
      | threw error =>
          cases hanswer
          exact readFailed_keeps h error
      | _ => cases hanswer

/-- A controller that was disposed of shows nothing any more. -/
theorem answer_gone (h : c.gone = true) {call : Awaited} {a : Answer}
    {c' : AddComputerController} (hanswer : c.answer call a = some c') :
    c'.state = c.state := by
  have hstop : c.stopPolling.gone = true := h
  have hfail (error : Thrown) : (c.failDecision error).state = c.state := by
    unfold AddComputerController.failDecision
    simp only [emit_gone hstop]
    split
    · rfl
    · split <;> rfl
  cases call <;> cases a <;> cases hanswer
  case create.created session =>
    show (c.emit _).state = c.state
    rw [emit_gone h]
  case create.threw error => exact congrArg _ (emit_gone h _)
  case sign.signed => rfl
  case sign.threw error => exact hfail error
  case decide.decided =>
    unfold AddComputerController.decided
    rw [emit_gone hstop]
    rfl
  case decide.threw error => exact hfail error
  case read.session record =>
    unfold AddComputerController.polled
    split
    · rw [emit_gone hstop]
      rfl
    · rw [emit_gone h]
  case read.threw error =>
    unfold AddComputerController.readFailed
    split
    · rw [emit_gone hstop]
      rfl
    · rfl

/-! ## Everything else -/

/-- What is not an answer finds its guard closed. -/
theorem guarded_state (hterm : c.state.isTerminal = true) (e : AddComputerController.Event)
    {c' : AddComputerController} (hnext : c.next e = some c')
    (hnew : ∀ now, e ≠ .createSession now) (hreply : ∀ i a, e ≠ .answer i a) :
    c'.state = c.state := by
  cases e with
  | createSession now => exact absurd rfl (hnew now)
  | answer i a => exact absurd rfl (hreply i a)
  | applyJoin join =>
      cases hnext
      have hsame : applyJoin c.state join = c.state := by simp [applyJoin, hterm]
      unfold AddComputerController.emit
      split
      · rfl
      · exact hsame
  | decide approve signer now =>
      cases hnext
      unfold AddComputerController.decide
      cases c.state.join with
      | none => rfl
      | some join => simp [hterm]
  | tick now =>
      cases hnext
      simp [AddComputerController.tick, hterm]
  | readSession =>
      cases hnext
      simp [AddComputerController.readSession, hterm]
  | fire =>
      rw [AddComputerController.next] at hnext
      split at hnext
      · cases hnext
        simp [AddComputerController.readSession, hterm]
      · cases hnext
  | device deviceId =>
      cases hnext
      rfl
  | dispose =>
      cases hnext
      rfl

/-! ## Runs -/

/-- The step keeps a terminal stage, or is a new session. -/
def KeepsTerminal (c : AddComputerController) (e : AddComputerController.Event)
    (c' : AddComputerController) : Prop :=
  c.state.isTerminal = true → (∀ now, e ≠ .createSession now) → c'.state.stage = c.state.stage

/-- The step does not answer a call at a terminal stage, on a screen still open,
with anything else than that stage. -/
def AgreesAtTerminal (c : AddComputerController) (e : AddComputerController.Event)
    (_ : AddComputerController) : Prop :=
  c.state.isTerminal = true → c.gone = false →
    ∀ i a call, e = .answer i a → c.awaited[i]? = some call → a.AgreesWith c.state.stage call

theorem keepsTerminal_iff {c' : AddComputerController} {e : AddComputerController.Event}
    (hnext : c.next e = some c') : KeepsTerminal c e c' ↔ AgreesAtTerminal c e c' := by
  by_cases hreply : ∃ i a, e = .answer i a
  · obtain ⟨i, a, rfl⟩ := hreply
    obtain ⟨call, hcall, hanswer⟩ := Option.bind_eq_some_iff.1 hnext
    constructor
    · intro h hterm hopen i' a' call' heq hcall'
      cases heq
      have hsame : call' = call := Option.some.inj (hcall'.symm.trans hcall)
      rw [hsame]
      exact (answer_stage (c := { c with awaited := c.awaited.eraseIdx i }) hopen hterm
        hanswer).1 (h hterm fun now => AddComputerController.Event.noConfusion)
    · intro h hterm _
      cases hgone : c.gone with
      | true =>
          rw [answer_gone (c := { c with awaited := c.awaited.eraseIdx i }) hgone hanswer]
      | false =>
          exact (answer_stage (c := { c with awaited := c.awaited.eraseIdx i }) hgone hterm
            hanswer).2 (h hterm hgone i a call rfl hcall)
  · constructor
    · intro _ _ _ i a call heq _
      exact absurd ⟨i, a, heq⟩ hreply
    · intro _ hterm hnew
      rw [guarded_state hterm e hnext hnew fun i a heq => hreply ⟨i, a, heq⟩]

end Stages

/-- **Terminal stages.** In a run from a new controller every step but a new
session keeps a terminal stage if and only if every answer that comes in at one
agrees with it; and as long as the answers agree, a stage that was reached stays
until a new session is asked for. -/
theorem terminal_stages (flowId deviceId : String)
    (events : List AddComputerController.Event) :
    (Every AddComputerController.next KeepsTerminal (.initial flowId deviceId) events ↔
      Every AddComputerController.next AgreesAtTerminal (.initial flowId deviceId) events) ∧
      ∀ c later c', follow AddComputerController.next (.initial flowId deviceId) events = some c →
        c.state.isTerminal = true →
        Every AddComputerController.next AgreesAtTerminal c later →
        (∀ e ∈ later, ∀ now, e ≠ .createSession now) →
        follow AddComputerController.next c later = some c' →
        c'.state.stage = c.state.stage := by
  constructor
  · exact every_congr (P := KeepsTerminal) (Q := AgreesAtTerminal)
      (fun c e c' hnext => keepsTerminal_iff hnext) _ events
  · intro c later c' _ hterm hagree hnew hrun
    refine Every.keeps (fun d => d.state.stage = c.state.stage)
      (fun e => ∀ now, e ≠ .createSession now) ?_ hagree hnew rfl hrun
    intro d e d' hsame hallowed hnext hstep
    have hd : d.state.isTerminal = true := by
      rw [isTerminal_iff, hsame, ← isTerminal_iff]
      exact hterm
    rw [← hsame]
    exact (keepsTerminal_iff hnext).2 hstep hd hallowed

namespace LatePoll

def session : PairingSession where
  sessionId := "PS-1"
  status := some .pending
  ownerDeviceId := "owner"
  expiresAtMillis := 1000
  qrNonce := "nonce"

/-- A session is opened, the poll timer reads it, and the countdown runs out
before the record is there. -/
def before : List AddComputerController.Event :=
  [.createSession 1, .answer 0 (.created session), .fire, .tick 1000]

/-- The record, with the join that had come in. -/
def record : AddComputerController.Event :=
  .answer 0 (.session { session with joinRequestId := some "J-1" })

def expired : AddComputerController where
  flowId := "flow"
  deviceId := "owner"
  state := {
    stage := .expired
    sessionId := "PS-1"
    qrNonce := "nonce"
    expiresAtMillis := 1000 }
  attempts := 1
  awaited := [.read "PS-1"]

end LatePoll

/-- The record of a poll takes an expired flow back to the card. -/
theorem late_poll_reopens :
    ¬∀ (flowId deviceId : String) (events : List AddComputerController.Event),
      Every AddComputerController.next KeepsTerminal (.initial flowId deviceId) events := by
  intro h
  have hrun : follow AddComputerController.next (.initial "flow" "owner") LatePoll.before =
      some LatePoll.expired := by decide
  have hstep : LatePoll.expired.next LatePoll.record =
      some ((LatePoll.expired.next LatePoll.record).get (by decide)) := by
    rw [Option.some_get]
  have hkeep := (h "flow" "owner" (LatePoll.before ++ [LatePoll.record])).last hrun hstep
    (by decide) (fun now => AddComputerController.Event.noConfusion)
  have hwait : ((LatePoll.expired.next LatePoll.record).get (by decide)).state.stage =
      .waiting := by decide
  rw [hwait] at hkeep
  exact absurd hkeep (by decide)

end Calcar.Phone
