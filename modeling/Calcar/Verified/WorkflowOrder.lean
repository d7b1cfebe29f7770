import Calcar.Phone.Workflow

/-!
# The order of a workflow view

A snapshot replaces the buffers whatever they hold by then, so a snapshot that
was overtaken takes the view back.  The order of the deltas themselves is safe:
a delta is taken in only above the sequence number that is shown.

## Main results

* `call_taken`, `call_skipped` — what a delta does to a controller.
* `view_ordering` — in a run the view keeps its order exactly where no
  overtaken snapshot is adopted.
-/

namespace Calcar.Phone.Workflow

open Lib

/-! ## One call -/

section Calls

variable {c : Controller} {d : Delta}

theorem accept_iff {seqNo : Int} : c.accept seqNo = true ↔
    c.snapshotLoaded = true ∧ c.frozen = false ∧ c.state.lastSeqNo < seqNo := by
  simp [Controller.accept, and_assoc]

/-- An upsert is turned down or throws. -/
theorem upsertApproval_eq (seqNo : Int) (row : TrackedApproval) :
    c.upsertApproval seqNo row = if c.accept seqNo = true then none else some c := by
  unfold Controller.upsertApproval WorkflowController.upsertApproval
  by_cases haccept : c.accept seqNo = true
  · have hslim : c.slim.accept seqNo = true := haccept
    rw [if_pos hslim, if_pos haccept]
    rfl
  · have hslim : ¬c.slim.accept seqNo = true := haccept
    rw [if_neg hslim, if_neg haccept]
    rfl

/-- An approval is never taken in. -/
theorem approval_not_taken (seqNo : Int) (row : TrackedApproval) :
    (Delta.approval seqNo row).taken c = false := by
  cases haccept : c.accept seqNo with
  | false => simp [Delta.taken, Delta.seqNo, haccept]
  | true => simp [Delta.taken, Delta.call, upsertApproval_eq, haccept]

/-- A delta that is not taken in leaves the controller as it is. -/
theorem call_skipped (h : d.taken c = false) : (d.call c).getD c = c := by
  cases d with
  | approval seqNo row =>
      show (c.upsertApproval seqNo row).getD c = c
      rw [upsertApproval_eq]
      by_cases haccept : c.accept seqNo = true
      · rw [if_pos haccept]
        rfl
      · rw [if_neg haccept]
        rfl
  | status seqNo text =>
      have haccept : c.accept seqNo = false := by
        simpa [Delta.taken, Delta.seqNo, Delta.call] using h
      simp [Delta.call, Controller.applyStatus, haccept]
  | activity event =>
      have haccept : c.accept event.seqNo = false := by
        simpa [Delta.taken, Delta.seqNo, Delta.call] using h
      simp [Delta.call, Controller.appendActivity, haccept]
  | chat message =>
      have haccept : c.accept message.seqNo = false := by
        simpa [Delta.taken, Delta.seqNo, Delta.call] using h
      simp [Delta.call, Controller.appendChat, haccept]
  | files seqNo hunks =>
      have haccept : c.accept seqNo = false := by
        simpa [Delta.taken, Delta.seqNo, Delta.call] using h
      simp [Delta.call, Controller.applyFiles, haccept]
  | terminal seqNo lines =>
      have hguard : lines = [] ∨ c.accept seqNo = false := by
        by_cases hlines : lines = []
        · exact .inl hlines
        · right
          simpa [Delta.taken, Delta.seqNo, Delta.call, hlines] using h
      simp [Delta.call, Controller.appendTerminal, hguard]

/-- What a delta that is taken in leaves. -/
structure Taken (c : Controller) (d : Delta) (c' : Controller) : Prop where
  above : c.state.lastSeqNo < d.seqNo
  lastSeqNo : c'.state.lastSeqNo = d.seqNo
  approvals : c'.state.approvals = c.state.approvals
  frozen : c'.frozen = c.frozen
  loaded : c'.snapshotLoaded = c.snapshotLoaded

theorem call_taken (h : d.taken c = true) : Taken c d ((d.call c).getD c) := by
  have haccept : c.accept d.seqNo = true := by
    simp only [Delta.taken, Bool.and_eq_true] at h
    exact h.1.1
  have habove := (accept_iff.1 haccept).2.2
  cases d with
  | approval seqNo row =>
      rw [approval_not_taken] at h
      cases h
  | status seqNo text =>
      simp only [Delta.seqNo] at haccept
      refine ⟨habove, ?_, ?_, ?_, ?_⟩ <;>
        simp [Delta.call, Controller.applyStatus, haccept, Delta.seqNo]
  | activity event =>
      simp only [Delta.seqNo] at haccept
      refine ⟨habove, ?_, ?_, ?_, ?_⟩ <;>
        simp [Delta.call, Controller.appendActivity, haccept, Delta.seqNo]
  | chat message =>
      simp only [Delta.seqNo] at haccept
      refine ⟨habove, ?_, ?_, ?_, ?_⟩ <;>
        simp [Delta.call, Controller.appendChat, haccept, Delta.seqNo]
  | files seqNo hunks =>
      simp only [Delta.seqNo] at haccept
      refine ⟨habove, ?_, ?_, ?_, ?_⟩ <;>
        simp [Delta.call, Controller.applyFiles, haccept, Delta.seqNo]
  | terminal seqNo lines =>
      simp only [Delta.seqNo] at haccept
      have hlines : lines ≠ [] := by
        intro heq
        subst heq
        simp [Delta.taken, Delta.seqNo] at h
      refine ⟨habove, ?_, ?_, ?_, ?_⟩ <;>
        simp [Delta.call, Controller.appendTerminal, haccept, hlines, Delta.seqNo]

/-- Whatever a delta does, it is none of these. -/
theorem call_frame : ((d.call c).getD c).state.approvals = c.state.approvals ∧
    ((d.call c).getD c).frozen = c.frozen ∧
    ((d.call c).getD c).snapshotLoaded = c.snapshotLoaded := by
  cases htaken : d.taken c with
  | false => simp [call_skipped htaken]
  | true =>
      have h := call_taken htaken
      exact ⟨h.approvals, h.frozen, h.loaded⟩

/-- What a resolve that goes through leaves alone. -/
theorem resolveApproval_frame {approvalId : String} {approved : Bool} {now : Int}
    {c' : Controller} (h : c.resolveApproval approvalId approved now = some c') :
    c'.state.lastSeqNo = c.state.lastSeqNo ∧ c'.frozen = c.frozen ∧
      c'.snapshotLoaded = c.snapshotLoaded := by
  obtain ⟨next, hguard, rfl⟩ := Option.map_eq_some_iff.1 h
  refine ⟨?_, rfl, rfl⟩
  show next.state.lastSeqNo = c.slim.state.lastSeqNo
  obtain ⟨-, _, -, -, rfl⟩ := WorkflowController.resolveApproval_some hguard
  rfl

end Calls

/-! ## The law -/

/-- The step keeps the order of the view: the sequence number does not fall, no
delta is taken in that was taken in before, and a freeze is lifted by nothing but
a snapshot that was asked for after it. -/
structure Ordered (v : View) (e : Event) (v' : View) : Prop where
  rises : v.controller.state.lastSeqNo ≤ v'.controller.state.lastSeqNo
  once : v'.applied.Nodup
  thaws : v.controller.frozen = true → v'.controller.frozen = false →
    ∃ i snap, e = .reply i (.ok snap) ∧ v.loads[i]? = some v.freezes

/-- A snapshot that is adopted is no older than what is shown and, on a frozen
view, was asked for after the freeze; a seed is not adopted on a frozen view. -/
def Timely (v : View) (e : Event) (_ : View) : Prop :=
  (∀ i snap, e = .reply i (.ok snap) →
    v.controller.state.lastSeqNo ≤ snap.lastSeqNo ∧
      (v.controller.frozen = true → v.loads[i]? = some v.freezes)) ∧
  (∀ snap, e = .seed snap → v.controller.snapshotLoaded = false →
    snap.workflowId = v.controller.workflowId →
    v.controller.state.lastSeqNo ≤ snap.lastSeqNo ∧ v.controller.frozen = false)

/-- The deltas taken in are up to the sequence number that is shown. -/
structure Numbered (v : View) : Prop where
  upTo : ∀ n ∈ v.applied, n ≤ v.controller.state.lastSeqNo
  once : v.applied.Nodup

section Steps

variable {v v' : View}

/-- A step that takes no delta in and keeps the number and the freeze. -/
theorem ordered_of_same {e : Event} (hinv : Numbered v) (hsame : v'.applied = v.applied)
    (hseq : v'.controller.state.lastSeqNo = v.controller.state.lastSeqNo)
    (hfrozen : v.controller.frozen = true → v'.controller.frozen = true) :
    Ordered v e v' where
  rises := Int.le_of_eq hseq.symm
  once := by rw [hsame]; exact hinv.once
  thaws := by
    intro hf hf'
    rw [hfrozen hf] at hf'
    cases hf'

/-- An order that is kept keeps the numbers, if no delta is taken in. -/
theorem Ordered.numbered {e : Event} (h : Ordered v e v') (hinv : Numbered v)
    (hsame : v'.applied = v.applied) : Numbered v' where
  upTo := by
    intro n hn
    rw [hsame] at hn
    exact Int.le_trans (hinv.upTo n hn) h.rises
  once := h.once

theorem reply_step {i : Nat} {answer : Except String Buffers} (hinv : Numbered v)
    (hnext : v.next (.reply i answer) = some v') :
    (Ordered v (.reply i answer) v' ↔ Timely v (.reply i answer) v') ∧
      v'.applied = v.applied := by
  obtain ⟨asked, hasked, rfl⟩ := Option.map_eq_some_iff.1 hnext
  refine ⟨?_, rfl⟩
  cases answer with
  | error text =>
      refine iff_of_true (ordered_of_same hinv rfl rfl id) ⟨?_, ?_⟩
      · intro i' snap heq
        cases heq
      · intro snap heq
        cases heq
  | ok snap =>
      constructor
      · intro h
        refine ⟨?_, ?_⟩
        · intro i' snap' heq
          cases heq
          refine ⟨h.rises, fun hfrozen => ?_⟩
          obtain ⟨i', snap', heq, hloads⟩ := h.thaws hfrozen rfl
          cases heq
          exact hloads
        · intro snap' heq
          cases heq
      · intro h
        obtain ⟨hle, hloads⟩ := h.1 i snap rfl
        exact ⟨hle, hinv.once, fun hfrozen _ => ⟨i, snap, rfl, hloads hfrozen⟩⟩

theorem seed_step {snap : Buffers} (hinv : Numbered v) (hnext : v.next (.seed snap) = some v') :
    (Ordered v (.seed snap) v' ↔ Timely v (.seed snap) v') ∧ v'.applied = v.applied := by
  cases hnext
  refine ⟨?_, rfl⟩
  by_cases hskip : v.controller.snapshotLoaded = true ∨ snap.workflowId ≠ v.controller.workflowId
  · have hsame : v.controller.seed snap = v.controller := if_pos hskip
    refine iff_of_true ?_ ⟨?_, ?_⟩
    · rw [hsame]
      exact ordered_of_same hinv rfl rfl id
    · intro i snap' heq
      cases heq
    · intro snap' heq hloaded hid
      cases heq
      cases hskip with
      | inl h => rw [hloaded] at h; cases h
      | inr h => exact absurd hid h
  · have hadopt : v.controller.seed snap = v.controller.adopt snap := if_neg hskip
    rw [not_or] at hskip
    rw [hadopt]
    constructor
    · intro h
      refine ⟨?_, ?_⟩
      · intro i snap' heq
        cases heq
      · intro snap' heq _ _
        cases heq
        refine ⟨h.rises, ?_⟩
        cases hfrozen : v.controller.frozen with
        | false => rfl
        | true =>
            obtain ⟨i, snap', heq, -⟩ := h.thaws hfrozen rfl
            cases heq
    · intro h
      have hid : snap.workflowId = v.controller.workflowId := Decidable.of_not_not hskip.2
      obtain ⟨hle, hfrozen⟩ := h.2 snap rfl (Bool.eq_false_iff.2 hskip.1) hid
      refine ⟨hle, hinv.once, fun hf => ?_⟩
      rw [hfrozen] at hf
      cases hf

theorem delta_step {d : Delta} (hinv : Numbered v) (hnext : v.next (.delta d) = some v') :
    Ordered v (.delta d) v' ∧ Numbered v' := by
  cases hnext
  cases htaken : d.taken v.controller with
  | false =>
      simp only [call_skipped htaken, Bool.false_eq_true, if_false]
      have hordered : Ordered v (.delta d) v := ordered_of_same hinv rfl rfl id
      exact ⟨hordered, hinv⟩
  | true =>
      have h := call_taken htaken
      simp only [if_true]
      have hfresh : d.seqNo ∉ v.applied := by
        intro hmem
        exact absurd h.above (Int.not_lt.2 (hinv.upTo _ hmem))
      have honce : (d.seqNo :: v.applied).Nodup := List.nodup_cons.2 ⟨hfresh, hinv.once⟩
      refine ⟨⟨?_, honce, ?_⟩, ⟨?_, honce⟩⟩
      · show v.controller.state.lastSeqNo ≤ ((d.call v.controller).getD v.controller).state.lastSeqNo
        rw [h.lastSeqNo]
        exact Int.le_of_lt h.above
      · intro hf hf'
        have hsame : ((d.call v.controller).getD v.controller).frozen = false := hf'
        rw [h.frozen, hf] at hsame
        cases hsame
      · intro n hn
        show n ≤ ((d.call v.controller).getD v.controller).state.lastSeqNo
        rw [h.lastSeqNo]
        cases List.mem_cons.1 hn with
        | inl heq => exact Int.le_of_eq heq
        | inr hmem => exact Int.le_trans (hinv.upTo n hmem) (Int.le_of_lt h.above)

theorem resolve_step {approvalId : String} {approved : Bool} {now : Int} (hinv : Numbered v)
    (hnext : v.next (.resolve approvalId approved now) = some v') :
    Ordered v (.resolve approvalId approved now) v' ∧ v'.applied = v.applied := by
  cases hnext
  cases hresolve : v.controller.resolveApproval approvalId approved now with
  | none => exact ⟨ordered_of_same hinv rfl rfl id, rfl⟩
  | some c =>
      obtain ⟨hseq, hfrozen, -⟩ := resolveApproval_frame hresolve
      exact ⟨ordered_of_same hinv rfl hseq fun hf => hfrozen.trans hf, rfl⟩

theorem load_step (hinv : Numbered v) (hnext : v.next .load = some v') :
    Ordered v .load v' ∧ v'.applied = v.applied := by
  cases hnext
  exact ⟨ordered_of_same hinv rfl rfl id, rfl⟩

theorem freeze_step (hinv : Numbered v) (hnext : v.next .freeze = some v') :
    Ordered v .freeze v' ∧ v'.applied = v.applied := by
  cases hnext
  exact ⟨ordered_of_same hinv rfl rfl fun _ => rfl, rfl⟩

/-- Where nothing is adopted, the condition says nothing. -/
theorem timely_of_else {e : Event} (hreply : ∀ i answer, e ≠ .reply i answer)
    (hseed : ∀ snap, e ≠ .seed snap) : Timely v e v' :=
  ⟨fun i _ heq => absurd heq (hreply i _), fun snap heq => absurd heq (hseed snap)⟩

theorem ordered_iff {e : Event} (hinv : Numbered v) (hnext : v.next e = some v') :
    (Ordered v e v' ↔ Timely v e v') ∧ (Ordered v e v' → Numbered v') := by
  cases e with
  | load =>
      obtain ⟨hordered, hsame⟩ := load_step hinv hnext
      refine ⟨iff_of_true hordered (timely_of_else ?_ ?_), fun h => h.numbered hinv hsame⟩ <;>
        intros <;> exact Event.noConfusion
  | reply i answer =>
      obtain ⟨hiff, hsame⟩ := reply_step hinv hnext
      exact ⟨hiff, fun h => h.numbered hinv hsame⟩
  | freeze =>
      obtain ⟨hordered, hsame⟩ := freeze_step hinv hnext
      refine ⟨iff_of_true hordered (timely_of_else ?_ ?_), fun h => h.numbered hinv hsame⟩ <;>
        intros <;> exact Event.noConfusion
  | seed snap =>
      obtain ⟨hiff, hsame⟩ := seed_step hinv hnext
      exact ⟨hiff, fun h => h.numbered hinv hsame⟩
  | delta d =>
      obtain ⟨hordered, hnumbered⟩ := delta_step hinv hnext
      refine ⟨iff_of_true hordered (timely_of_else ?_ ?_), fun _ => hnumbered⟩ <;>
        intros <;> exact Event.noConfusion
  | resolve approvalId approved now =>
      obtain ⟨hordered, hsame⟩ := resolve_step hinv hnext
      refine ⟨iff_of_true hordered (timely_of_else ?_ ?_), fun h => h.numbered hinv hsame⟩ <;>
        intros <;> exact Event.noConfusion

end Steps

/-- **Workflow view ordering.** In a run from a new controller every step keeps
the order of the view if and only if every snapshot and seed that is adopted
comes in time. -/
theorem view_ordering (computerId workflowId : String) (events : List Event) :
    Every View.next Ordered (.initial computerId workflowId) events ↔
      Every View.next Timely (.initial computerId workflowId) events := by
  refine every_iff (P := Ordered) (Q := Timely) Numbered
    (fun v e v' hinv hnext => ordered_iff hinv hnext) ⟨?_, ?_⟩ events
  · intro n hn
    cases hn
  · exact List.nodup_nil

namespace Overtaken

def snap (lastSeqNo : Int) : Buffers where
  computerId := "C-1"
  workflowId := "W-1"
  lastSeqNo := lastSeqNo

/-- Two snapshots are asked for and the second is answered first. -/
def before : List Event := [.load, .load, .reply 1 (.ok (snap 9))]

def last : Event := .reply 0 (.ok (snap 4))

def shown : View where
  controller := {
    computerId := "C-1"
    workflowId := "W-1"
    snapshotLoaded := true
    state := snap 9 }
  loads := [0]

end Overtaken

/-- A snapshot that was overtaken takes the view back. -/
theorem overtaken_snapshot_shown :
    ¬∀ (computerId workflowId : String) (events : List Event),
      Every View.next Ordered (.initial computerId workflowId) events := by
  intro h
  have hrun : follow View.next (.initial "C-1" "W-1") Overtaken.before = some Overtaken.shown := by
    decide
  have hstep : Overtaken.shown.next Overtaken.last =
      some ((Overtaken.shown.next Overtaken.last).get (by decide)) := by
    rw [Option.some_get]
  have hordered := (h "C-1" "W-1" (Overtaken.before ++ [Overtaken.last])).last hrun hstep
  exact absurd hordered.rises (by decide)

end Calcar.Phone.Workflow
