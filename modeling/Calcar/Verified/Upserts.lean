import Calcar.Verified.WorkflowOrder

/-!
# Approvals that come in

`upsertApproval` takes the row of the same id out and adds the new one to what is left.
What is left has a fixed length, however the approvals came to be, so the call throws
wherever it gets that far.

## Main results

* `upsertApproval_law` — a call keeps the law exactly where it ignores the approval.
* `approval_upsert_iff` — so does each call of a run.
* `fresh_approval_throws` — the first approval behind a snapshot.
-/

namespace Calcar.Phone.Workflow

open Lib

/-- What an approval that is taken in leaves: itself, once, and the other rows in order. -/
structure Upserted (c : Controller) (approval : TrackedApproval) (c' : Controller) : Prop where
  once : c'.state.approvals.filter (fun row => row.approvalId = approval.approvalId) = [approval]
  others : c'.state.approvals.filter (fun row => row.approvalId ≠ approval.approvalId) =
    c.state.approvals.filter fun row => row.approvalId ≠ approval.approvalId

/-- The approval comes before the snapshot, on a frozen view, or with a number that is not
above the one shown. -/
def Ignores (c : Controller) (seqNo : Int) : Prop :=
  c.snapshotLoaded = false ∨ c.frozen = true ∨ seqNo ≤ c.state.lastSeqNo

/-- The call does not throw; it ignores the approval or takes it in. -/
def Upserts (c : Controller) (seqNo : Int) (approval : TrackedApproval) : Prop :=
  ∃ c', c.upsertApproval seqNo approval = some c' ∧
    (Ignores c seqNo ∧ c' = c ∨ ¬Ignores c seqNo ∧ Upserted c approval c')

theorem ignores_iff {c : Controller} {seqNo : Int} :
    Ignores c seqNo ↔ c.accept seqNo = false := by
  rw [← Bool.not_eq_true, accept_iff]
  simp only [Ignores, not_and, Int.not_lt]
  cases c.snapshotLoaded <;> cases c.frozen <;> simp

/-- **One call** keeps the law exactly where it ignores the approval. -/
theorem upsertApproval_law (c : Controller) (seqNo : Int) (approval : TrackedApproval) :
    Upserts c seqNo approval ↔ Ignores c seqNo := by
  constructor
  · rintro ⟨c', hcall, -⟩
    rw [ignores_iff]
    cases haccept : c.accept seqNo with
    | false => rfl
    | true => simp [upsertApproval_eq, haccept] at hcall
  · intro h
    have haccept : c.accept seqNo = false := ignores_iff.1 h
    exact ⟨c, by simp [upsertApproval_eq, haccept], .inl ⟨h, rfl⟩⟩

/-- Where the event is an approval, the call keeps the law. -/
def UpsertsIn (v : View) (e : Event) (_ : View) : Prop :=
  ∀ seqNo approval, e = .delta (.approval seqNo approval) → Upserts v.controller seqNo approval

/-- An approval comes where it is ignored. -/
def IgnoredIn (v : View) (e : Event) (_ : View) : Prop :=
  ∀ seqNo approval, e = .delta (.approval seqNo approval) → Ignores v.controller seqNo

/-- **Approval upsert.**  In a run of a new controller every approval that comes in is
ignored or taken in without a throw if and only if every one comes before the snapshot, on
a frozen view, or with a stale number. -/
theorem approval_upsert_iff (computerId workflowId : String) (events : List Event) :
    Every View.next UpsertsIn (.initial computerId workflowId) events ↔
      Every View.next IgnoredIn (.initial computerId workflowId) events := by
  refine every_congr (fun v e v' _ => ?_) _ events
  constructor
  · intro h seqNo approval he
    exact (upsertApproval_law v.controller seqNo approval).1 (h seqNo approval he)
  · intro h seqNo approval he
    exact (upsertApproval_law v.controller seqNo approval).2 (h seqNo approval he)

namespace Incoming

def snap : Buffers where
  computerId := "C-1"
  workflowId := "W-1"
  lastSeqNo := 3

def row : TrackedApproval where
  approvalId := "A-1"
  workflowId := "W-1"
  title := "Run"
  detail := "make"
  expiresAtMillis := 100
  resolution := none
  destructive := false

def before : List Event := [.load, .reply 0 (.ok snap)]

def last : Event := .delta (.approval 4 row)

def shown : View where
  controller := {
    computerId := "C-1"
    workflowId := "W-1"
    snapshotLoaded := true
    state := snap }

end Incoming

/-- The first approval behind a snapshot without any. -/
theorem fresh_approval_throws :
    ¬∀ (computerId workflowId : String) (events : List Event),
      Every View.next UpsertsIn (.initial computerId workflowId) events := by
  intro h
  have hrun : follow View.next (.initial "C-1" "W-1") Incoming.before = some Incoming.shown := by
    decide
  have hstep : Incoming.shown.next Incoming.last =
      some ((Incoming.shown.next Incoming.last).get (by decide)) := by
    rw [Option.some_get]
  have hupserts := (h "C-1" "W-1" (Incoming.before ++ [Incoming.last])).last hrun hstep
  obtain ⟨c', hcall, -⟩ := hupserts 4 Incoming.row rfl
  have hthrows : Incoming.shown.controller.upsertApproval 4 Incoming.row = none := by
    decide
  rw [hthrows] at hcall
  cases hcall

end Calcar.Phone.Workflow
