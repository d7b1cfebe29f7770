import Calcar.Lib.Decimal
import Calcar.Lib.Segments
import Calcar.Phone.AddComputer

/-!
# The keys of decisions

Every decision the controller posts carries a key made of its flow, the decision
and the millisecond it is posted in.  Two keys are equal only if all three are:
the digits stand behind the last hyphen, and what is before them ends in a
different letter for each decision.

## Main results

* `decisionKey_inj` — what a key determines.
* `postedBy_key` — the keys of every flow, over every run of it.
* `keys_iff` — when equal keys mean the same session and decision.
* `retry_new_key` — a retry with a key of its own.
-/

namespace Calcar.Phone.AddComputerController

open Lib

/-! ## Keys -/

/-- The step of a decision. -/
def stepOf (approve : Bool) : String := if approve then "approve" else "reject"

/-- The key a flow gives a decision in a millisecond. -/
def decisionKey (flowId : String) (approve : Bool) (millis : Int) : String :=
  (initial flowId "").requestId (stepOf approve) 0 millis

/-- The text between the flow and the number. -/
def stepText : Bool → List Char
  | true => ['-', 'a', 'p', 'p', 'r', 'o', 'v', 'e', '-', '0']
  | false => ['-', 'r', 'e', 'j', 'e', 'c', 't', '-', '0']

theorem decisionKey_text (flowId : String) (approve : Bool) (millis : Int) :
    (decisionKey flowId approve millis).toList =
      (flowId.toList ++ stepText approve ++ signText millis) ++
        '-' :: Nat.toDigits 10 millis.natAbs := by
  have hkey : (decisionKey flowId approve millis).toList =
      flowId.toList ++ stepText approve ++ '-' :: (toString millis).toList := by
    cases approve <;> simp [decisionKey, requestId, initial, stepOf, stepText]
  rw [hkey, int_text]
  by_cases h : millis < 0 <;> simp [signText, h]

theorem sign_last (flow : List Char) (approve : Bool) (n : Int) :
    (flow ++ stepText approve ++ signText n).getLast? = some (if n < 0 then '-' else '0') := by
  by_cases h : n < 0 <;> cases approve <;> simp [signText, stepText, h]

theorem stepText_inj {flow flow' : List Char} {approve approve' : Bool}
    (h : flow ++ stepText approve = flow' ++ stepText approve') :
    flow = flow' ∧ approve = approve' := by
  have hend := congrArg (fun text => text.reverse.take 3) h
  cases approve <;> cases approve'
  · exact ⟨List.append_cancel_right h, rfl⟩
  · simp [stepText] at hend
  · simp [stepText] at hend
  · exact ⟨List.append_cancel_right h, rfl⟩

/-- **A key determines** its flow, its decision and its millisecond. -/
theorem decisionKey_inj {flowId flowId' : String} {approve approve' : Bool} {millis millis' : Int} :
    decisionKey flowId approve millis = decisionKey flowId' approve' millis' ↔
      flowId = flowId' ∧ approve = approve' ∧ millis = millis' := by
  constructor
  · intro h
    have htext := congrArg String.toList h
    rw [decisionKey_text, decisionKey_text] at htext
    have hplain : ∀ n : Nat, '-' ∉ Nat.toDigits 10 n := fun n hmem =>
      absurd (toDigits_isDigit hmem) (by decide)
    obtain ⟨hbefore, hdigits⟩ := append_cons_cancel (hplain _) (hplain _) htext
    have hlast := congrArg List.getLast? hbefore
    rw [sign_last, sign_last, Option.some.injEq] at hlast
    have hsign : signText millis = signText millis' := by
      unfold signText
      by_cases hm : millis < 0 <;> by_cases hm' : millis' < 0 <;> simp [hm, hm'] at hlast ⊢
    rw [hsign] at hbefore
    obtain ⟨hflow, hstep⟩ := stepText_inj (List.append_cancel_right hbefore)
    exact ⟨String.toList_inj.mp hflow, hstep, sign_digits_inj hsign hdigits⟩
  · rintro ⟨rfl, rfl, rfl⟩
    rfl

/-! ## What a flow posts -/

/-- The clock reading of an event that may post a decision. -/
def Event.now : Event → Int
  | .decide _ _ now => now
  | .answer _ (.signed _ now) => now
  | _ => 0

def decisionOf : Awaited → Option DecisionCall
  | .decide call => some call
  | _ => none

/-- The decisions an event posts: those among the calls it adds, an answer having taken
one away. -/
def posted (c : AddComputerController) (e : Event) : List DecisionCall :=
  match c.next e, e with
  | some c', .answer _ _ => (c'.awaited.drop (c.awaited.length - 1)).filterMap decisionOf
  | some c', _ => (c'.awaited.drop c.awaited.length).filterMap decisionOf
  | none, _ => []

/-- The calls that are added post decisions under their keys. -/
structure Posts (c c' : AddComputerController) (millis : Int) : Prop where
  flowId : c'.flowId = c.flowId
  calls : ∃ more, c'.awaited = c.awaited ++ more ∧
    ∀ call ∈ more.filterMap decisionOf, call.requestId = decisionKey c.flowId call.approve millis

section Steps

variable {c c' : AddComputerController} {millis : Int}

theorem Posts.quiet (hflow : c'.flowId = c.flowId) (hcalls : c'.awaited = c.awaited) :
    Posts c c' millis :=
  ⟨hflow, [], by rw [hcalls, List.append_nil], fun _ hcall => nomatch hcall⟩

theorem Posts.other (hflow : c'.flowId = c.flowId) (call : Awaited)
    (hcalls : c'.awaited = c.awaited ++ [call]) (hother : decisionOf call = none) :
    Posts c c' millis := by
  refine ⟨hflow, [call], hcalls, fun call' hmem => ?_⟩
  simp [hother] at hmem

theorem Posts.decision (hflow : c'.flowId = c.flowId) (call : DecisionCall)
    (hcalls : c'.awaited = c.awaited ++ [.decide call])
    (hkey : call.requestId = decisionKey c.flowId call.approve millis) : Posts c c' millis := by
  refine ⟨hflow, [.decide call], hcalls, fun call' hmem => ?_⟩
  have heq : call' = call := by simpa [decisionOf] using hmem
  rw [heq]
  exact hkey

theorem createSession_posts (now : Int) : Posts c (c.createSession now) millis := by
  unfold createSession
  split
  · exact .quiet rfl rfl
  · split
    · exact .quiet rfl rfl
    · refine .other (emit_flowId _ _) (.create (c.requestId "create" (c.attempts + 1) now)) ?_ rfl
      simp only [await, emit_awaited]
      simp [requestId, stopPolling]

theorem decide_posts (approve signer : Bool) (now : Int) :
    Posts c (c.decide approve signer now) now := by
  unfold decide
  split
  · exact .quiet rfl rfl
  · rename_i join _
    split
    · exact .quiet rfl rfl
    · split
      · exact .quiet (emit_flowId _ _) (emit_awaited _ _)
      · cases approve with
        | true =>
            refine .other (emit_flowId _ _) (.sign c.state.sessionId join) ?_ rfl
            simp only [if_true, await, emit_awaited]
        | false =>
            refine .decision (emit_flowId _ _) {
              sessionId := c.state.sessionId
              requestId := c.requestId "reject" 0 now
              approve := false
              subjectPubkeyB64 := join.pubkeyB64
              signatureB64 := ""
              authorizationId := ""
              nonceB64 := ""
              decidedAtMillis := 0 } ?_ rfl
            simp [await, requestId]

theorem signed_posts (sessionId : String) (join : PairingJoin)
    (authorization : PairingAuthorization) (now : Int) :
    Posts c (c.signed sessionId join authorization now) now :=
  .decision rfl _ rfl rfl

theorem readSession_posts : Posts c c.readSession millis := by
  unfold readSession
  split
  · exact .quiet rfl rfl
  · exact .other rfl _ rfl rfl

theorem failDecision_posts (error : Thrown) : Posts c (c.failDecision error) millis := by
  unfold failDecision
  dsimp only
  split
  · exact .quiet (emit_flowId _ _) (emit_awaited _ _)
  · split
    · exact .quiet (emit_flowId _ _) (emit_awaited _ _)
    · exact .quiet (emit_flowId _ _) (emit_awaited _ _)

/-- The code after an answer. -/
theorem answer_posts {call : Awaited} {i : Nat} {a : Answer} (h : c.answer call a = some c') :
    Posts c c' (Event.answer i a).now := by
  cases call with
  | create requestId =>
      cases a <;> cases h
      · exact .quiet (emit_flowId _ _) (emit_awaited _ _)
      · exact .quiet (emit_flowId _ _) (emit_awaited _ _)
  | sign sessionId join =>
      cases a <;> cases h
      · exact signed_posts sessionId join _ _
      · exact failDecision_posts _
  | decide call =>
      cases a <;> cases h
      · exact .quiet (emit_flowId _ _) (emit_awaited _ _)
      · exact failDecision_posts _
  | read sessionId =>
      cases a with
      | session record =>
          cases h
          unfold polled
          split
          · exact .quiet (emit_flowId _ _) (emit_awaited _ _)
          · exact .quiet (emit_flowId _ _) (emit_awaited _ _)
      | threw error =>
          cases h
          unfold readFailed
          split
          · exact .quiet (emit_flowId _ _) (emit_awaited _ _)
          · exact .quiet rfl rfl
      | created session => cases h
      | signed authorization now => cases h
      | decided subjectDeviceId => cases h

theorem Posts.key (h : Posts c c' millis) :
    ∀ call ∈ (c'.awaited.drop c.awaited.length).filterMap decisionOf,
      call.requestId = decisionKey c.flowId call.approve millis := by
  obtain ⟨more, hmore, hkey⟩ := h.calls
  rw [hmore, List.drop_left]
  exact hkey

theorem tick_posts (now : Int) : Posts c (c.tick now) millis := by
  unfold tick
  split
  · exact .quiet rfl rfl
  · split
    · exact .quiet rfl rfl
    · exact .quiet (emit_flowId _ _) (emit_awaited _ _)

/-- What the code of an event starts from: an answer has taken its call away. -/
def started (c : AddComputerController) : Event → AddComputerController
  | .answer i _ => { c with awaited := c.awaited.eraseIdx i }
  | _ => c

theorem started_flowId (c : AddComputerController) (e : Event) :
    (c.started e).flowId = c.flowId := by
  cases e <;> rfl

/-- The code of each event posts decisions under their keys. -/
theorem started_posts {e : Event} (h : c.next e = some c') : Posts (c.started e) c' e.now := by
  cases e with
  | answer i a =>
      obtain ⟨call, _, hanswer⟩ := Option.bind_eq_some_iff.mp h
      exact answer_posts (i := i) hanswer
  | createSession now =>
      cases h
      exact createSession_posts now
  | applyJoin join =>
      cases h
      exact .quiet (emit_flowId _ _) (emit_awaited _ _)
  | decide approve signer now =>
      cases h
      exact decide_posts approve signer now
  | tick now =>
      cases h
      exact tick_posts now
  | readSession =>
      cases h
      exact readSession_posts
  | fire =>
      simp only [next] at h
      split at h
      · cases h
        exact readSession_posts
      · cases h
  | device deviceId =>
      cases h
      exact .quiet rfl rfl
  | dispose =>
      cases h
      exact .quiet rfl rfl

/-- The decisions are among the calls behind those the code started from. -/
theorem posted_started {e : Event} (h : c.next e = some c') :
    c.posted e = (c'.awaited.drop (c.started e).awaited.length).filterMap decisionOf := by
  unfold posted
  rw [h]
  cases e with
  | answer i a =>
      obtain ⟨call, hcall, _⟩ := Option.bind_eq_some_iff.mp h
      obtain ⟨hi, _⟩ := List.getElem?_eq_some_iff.mp hcall
      have hlength : (c.awaited.eraseIdx i).length = c.awaited.length - 1 :=
        List.length_eraseIdx_of_lt hi
      rw [started, hlength]
  | _ => rfl

/-- **One event** keeps the flow and posts decisions under their keys. -/
theorem next_posts {e : Event} (h : c.next e = some c') :
    c'.flowId = c.flowId ∧
      ∀ call ∈ c.posted e, call.requestId = decisionKey c.flowId call.approve e.now := by
  have hposts := started_posts h
  have hflow := started_flowId c e
  rw [posted_started h, ← hflow]
  exact ⟨hposts.flowId, hposts.key⟩

end Steps

/-! ## Every flow -/

/-- A decision that was posted: the flow, the call and the millisecond. -/
structure Attempt where
  flowId : String
  call : DecisionCall
  millis : Int
  deriving DecidableEq, Repr

/-- What a run of a flow posts. -/
def attemptsFrom (c : AddComputerController) : List Event → List Attempt
  | [] => []
  | e :: es =>
      (c.posted e).map (fun call => ⟨c.flowId, call, e.now⟩) ++
        match c.next e with
        | some c' => attemptsFrom c' es
        | none => []

theorem attemptsFrom_key {c : AddComputerController} {es : List Event} :
    ∀ a ∈ attemptsFrom c es, a.flowId = c.flowId ∧
      a.call.requestId = decisionKey a.flowId a.call.approve a.millis := by
  induction es generalizing c with
  | nil => exact fun _ ha => nomatch ha
  | cons e es ih =>
      intro a ha
      rw [attemptsFrom] at ha
      cases hnext : c.next e with
      | none =>
          have hnone : c.posted e = [] := by
            unfold posted
            rw [hnext]
          rw [hnone, hnext] at ha
          cases ha
      | some c' =>
          obtain ⟨hflow, hposted⟩ := next_posts hnext
          rw [hnext] at ha
          obtain hhere | hlater := List.mem_append.mp ha
          · obtain ⟨call, hcall, rfl⟩ := List.mem_map.mp hhere
            exact ⟨rfl, hposted call hcall⟩
          · obtain ⟨hsame, hkey⟩ := ih a hlater
            exact ⟨hsame.trans hflow, hkey⟩

/-- A flow of the app: its id, and what happens to its controller. -/
structure Flow where
  flowId : String
  deviceId : String
  events : List Event

/-- All decisions of all flows, of this start of the app and of others. -/
def postedBy (flows : List Flow) : List Attempt :=
  flows.flatMap fun flow => attemptsFrom (initial flow.flowId flow.deviceId) flow.events

/-- **The key of an attempt** is that of its flow, its decision and its millisecond. -/
theorem postedBy_key {flows : List Flow} {a : Attempt} (ha : a ∈ postedBy flows) :
    a.call.requestId = decisionKey a.flowId a.call.approve a.millis := by
  obtain ⟨flow, _, hflow⟩ := List.mem_flatMap.mp ha
  exact (attemptsFrom_key a hflow).2

/-- The same decision for the same session. -/
def Attempt.SameDecision (a b : Attempt) : Prop :=
  a.call.sessionId = b.call.sessionId ∧ a.call.approve = b.call.approve

/-- The same decision of one flow in one millisecond. -/
def Attempt.SameInstant (a b : Attempt) : Prop :=
  a.flowId = b.flowId ∧ a.call.approve = b.call.approve ∧ a.millis = b.millis

/-- **The keys of decisions.**  Over any flows and whatever happens to them, attempts carry
the same key exactly when they are the same decision for the same session, if and only if
this is when they are the same decision of one flow in one millisecond. -/
theorem keys_iff (flows : List Flow) :
    (∀ a ∈ postedBy flows, ∀ b ∈ postedBy flows,
      a.call.requestId = b.call.requestId ↔ a.SameDecision b) ↔
    ∀ a ∈ postedBy flows, ∀ b ∈ postedBy flows, a.SameInstant b ↔ a.SameDecision b := by
  have hkey : ∀ a ∈ postedBy flows, ∀ b ∈ postedBy flows,
      (a.call.requestId = b.call.requestId ↔ a.SameInstant b) := by
    intro a ha b hb
    rw [postedBy_key ha, postedBy_key hb, decisionKey_inj]
    rfl
  constructor
  · exact fun h a ha b hb => (hkey a ha b hb).symm.trans (h a ha b hb)
  · exact fun h a ha b hb => (hkey a ha b hb).trans (h a ha b hb)

/-! ### A rejection that is tried again -/

/-- The session is opened and joined; the rejection fails at 1 and is repeated at 2. -/
def retried : Flow where
  flowId := "flow"
  deviceId := "PH-1"
  events := [.createSession 0,
    .answer 0 (.created ⟨"PS-1", some .pending, "PH-1", 600000, "nonce", none, none, none, none⟩),
    .applyJoin { requestId := "j1", pubkeyB64 := "key", displayName := "Desk", fingerprint := "fp" },
    .decide false true 1, .answer 0 (.threw ⟨"", "timeout"⟩), .decide false true 2]

/-- The two attempts are the same decision for the same session under different keys. -/
theorem retry_new_key :
    ∃ a ∈ postedBy [retried], ∃ b ∈ postedBy [retried],
      a.SameDecision b ∧ a.call.requestId ≠ b.call.requestId := by
  have hcalls : (postedBy [retried]).map (fun a =>
      (a.call.sessionId, a.call.approve, a.call.requestId)) =
        [("PS-1", false, "flow-reject-0-1"), ("PS-1", false, "flow-reject-0-2")] := by
    decide
  obtain ⟨a, ha, hfirst⟩ := List.mem_map.mp (hcalls ▸ List.mem_cons_self)
  obtain ⟨b, hb, hsecond⟩ :=
    List.mem_map.mp (hcalls ▸ List.mem_cons_of_mem _ List.mem_cons_self)
  simp only [Prod.mk.injEq] at hfirst hsecond
  refine ⟨a, ha, b, hb, ⟨hfirst.1.trans hsecond.1.symm, hfirst.2.1.trans hsecond.2.1.symm⟩, ?_⟩
  rw [hfirst.2.2, hsecond.2.2]
  decide

end Calcar.Phone.AddComputerController
