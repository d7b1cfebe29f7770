import Calcar.Verified.WorkflowOrder

/-!
# One resolve on the phone

The local guard lets an approval be resolved once.  The outcome is kept in the
row alone, and a snapshot replaces the rows; one that was taken before the
outcome reached the agent makes the approval open again.

## Main results

* `resolvable_iff` — an attempt can succeed exactly on an open row of a view
  that is not frozen.
* `single_resolve` — in a run an approval is resolved once exactly where no
  snapshot lists an approval as open that was resolved here.
-/

namespace Calcar.Phone.Workflow

open Lib

/-- The row the guard looks at is there and has no outcome. -/
def Open (rows : List TrackedApproval) (approvalId : String) : Prop :=
  ∃ row, rows.find? (fun current => current.approvalId = approvalId) = some row ∧
    row.isResolved = false

/-- Some attempt would succeed. -/
def Controller.Resolvable (c : Controller) (approvalId : String) : Prop :=
  ∃ approved now, (c.resolveApproval approvalId approved now).isSome = true

/-! ## Rows -/

theorem getElem?_findIdx (rows : List TrackedApproval) (approvalId : String) :
    rows[rows.findIdx fun current => current.approvalId = approvalId]? =
      rows.find? fun current => current.approvalId = approvalId := by
  induction rows with
  | nil => rfl
  | cons row rows ih =>
      rw [List.findIdx_cons, List.find?_cons]
      by_cases hhere : row.approvalId = approvalId
      · simp [hhere]
      · simpa [hhere] using ih

/-- After a row is replaced by one of the same id. -/
theorem find?_set {rows : List TrackedApproval} {approvalId : String} {row new : TrackedApproval}
    (hrow : rows.find? (fun current => current.approvalId = approvalId) = some row)
    (hnew : new.approvalId = approvalId) (other : String) :
    (rows.set (rows.findIdx fun current => current.approvalId = approvalId) new).find?
        (fun current => current.approvalId = other) =
      if other = approvalId then some new
      else rows.find? fun current => current.approvalId = other := by
  induction rows with
  | nil => cases hrow
  | cons first rows ih =>
      rw [List.findIdx_cons]
      by_cases hhere : first.approvalId = approvalId
      · by_cases hother : other = approvalId
        · simp [hhere, hother, hnew]
        · have hne : ¬approvalId = other := fun h => hother h.symm
          simp [hhere, hother, hnew, hne]
      · rw [List.find?_cons] at hrow
        simp only [hhere, decide_false] at hrow
        have htail := ih hrow
        by_cases hfirst : first.approvalId = other
        · have hother : ¬other = approvalId := fun h => hhere (hfirst.trans h)
          simp [hfirst, hother]
        · simpa [hhere, hfirst] using htail

section Controller

variable {c c' : Controller} {approvalId : String}

theorem canResolve_iff {row : TrackedApproval} {now : Int} :
    row.canResolve now = true ↔ row.isResolved = false ∧ now < row.expiresAtMillis := by
  cases hres : row.isResolved with
  | true => simp [TrackedApproval.canResolve, TrackedApproval.isInert, hres]
  | false =>
      simp [TrackedApproval.canResolve, TrackedApproval.isInert, TrackedApproval.isExpired, hres]

/-- What a resolve goes through on and what it leaves. -/
structure Resolved (c : Controller) (approvalId : String) (c' : Controller) : Prop where
  thawed : c.frozen = false
  wasOpen : Open c.state.approvals approvalId
  after (other : String) : Open c'.state.approvals other ↔
    other ≠ approvalId ∧ Open c.state.approvals other

theorem resolveApproval_spec {approved : Bool} {now : Int}
    (h : c.resolveApproval approvalId approved now = some c') : Resolved c approvalId c' := by
  obtain ⟨next, hguard, rfl⟩ := Option.map_eq_some_iff.1 h
  obtain ⟨hthawed, row, hrow, hcan, rfl⟩ := WorkflowController.resolveApproval_some hguard
  rw [getElem?_findIdx c.slim.state.approvals approvalId] at hrow
  have hid : row.approvalId = approvalId := by
    simpa using List.find?_some hrow
  refine ⟨hthawed, ⟨row, hrow, (canResolve_iff.1 hcan).1⟩, fun other => ?_⟩
  have hset := find?_set hrow
    (show (row.withResolution (WorkflowController.resolutionWord approved)).approvalId =
      approvalId from hid) other
  show Open (c.slim.state.approvals.set _ _) other ↔ _
  rw [Open, hset]
  by_cases hother : other = approvalId
  · rw [if_pos hother]
    constructor
    · rintro ⟨row', hsome, hopen⟩
      rw [← Option.some.inj hsome] at hopen
      cases hopen
    · intro hne
      exact absurd hother hne.1
  · rw [if_neg hother]
    exact ⟨fun hopen => ⟨hother, hopen⟩, fun hopen => hopen.2⟩

/-- **An attempt can succeed exactly on an open row of a view that is not frozen.** -/
theorem resolvable_iff :
    c.Resolvable approvalId ↔ c.frozen = false ∧ Open c.state.approvals approvalId := by
  constructor
  · rintro ⟨approved, now, h⟩
    obtain ⟨c', hc'⟩ := Option.isSome_iff_exists.1 h
    have hspec := resolveApproval_spec hc'
    exact ⟨hspec.thawed, hspec.wasOpen⟩
  · rintro ⟨hfrozen, row, hrow, hopen⟩
    refine ⟨true, row.expiresAtMillis - 1, ?_⟩
    have hslim : ¬c.slim.frozen = true := by
      show ¬c.frozen = true
      simp [hfrozen]
    have hcan : row.canResolve (row.expiresAtMillis - 1) = true :=
      canResolve_iff.2 ⟨hopen, by omega⟩
    unfold Controller.resolveApproval WorkflowController.resolveApproval
    rw [if_neg hslim]
    dsimp only
    rw [getElem?_findIdx c.slim.state.approvals approvalId,
      show c.slim.state.approvals.find? _ = some row from hrow]
    simp [hcan]

end Controller

/-! ## The law -/

/-- After the step no approval is resolvable that was resolved here, and none
was resolved twice. -/
structure ResolvedOnce (_ : View) (_ : Event) (v' : View) : Prop where
  shut : ∀ approvalId ∈ v'.resolved, ¬v'.controller.Resolvable approvalId
  once : v'.resolved.Nodup

/-- A snapshot that comes in lists no approval as open that was resolved here. -/
def NoneReopened (v : View) (e : Event) (_ : View) : Prop :=
  ∀ i snap, e = .reply i (.ok snap) → ∀ approvalId ∈ v.resolved, ¬Open snap.approvals approvalId

/-- The rows know of every resolve here. -/
structure Known (v : View) : Prop where
  shut : ∀ approvalId ∈ v.resolved, ¬Open v.controller.state.approvals approvalId
  once : v.resolved.Nodup
  fresh : v.controller.snapshotLoaded = false →
    v.controller.state.approvals = [] ∧ v.resolved = []

section Steps

variable {v v' : View}

theorem Known.resolvedOnce {e : Event} (h : Known v') : ResolvedOnce v e v' where
  shut := fun approvalId hmem hres => h.shut approvalId hmem (resolvable_iff.1 hres).2
  once := h.once

/-- Rows and resolves that stay as they are stay known. -/
theorem Known.of_same (h : Known v) (hrows : v'.controller.state.approvals =
    v.controller.state.approvals) (hresolved : v'.resolved = v.resolved)
    (hloaded : v'.controller.snapshotLoaded = v.controller.snapshotLoaded) : Known v' where
  shut := by rw [hresolved, hrows]; exact h.shut
  once := by rw [hresolved]; exact h.once
  fresh := by rw [hresolved, hrows, hloaded]; exact h.fresh

/-- On rows that were just replaced. -/
theorem Known.adopted {snap : Buffers} (h : v.resolved.Nodup)
    (hshut : ∀ approvalId ∈ v.resolved, ¬Open snap.approvals approvalId)
    (hv : v'.resolved = v.resolved) (hc : v'.controller = v.controller.adopt snap) : Known v' where
  shut := by rw [hv, hc]; exact hshut
  once := by rw [hv]; exact h
  fresh := by
    intro hloaded
    rw [hc] at hloaded
    cases hloaded

theorem reply_reopens {i : Nat} {answer : Except String Buffers} (hinv : Known v)
    (hnext : v.next (.reply i answer) = some v') :
    (ResolvedOnce v (.reply i answer) v' ↔ NoneReopened v (.reply i answer) v') ∧
      (ResolvedOnce v (.reply i answer) v' → Known v') := by
  obtain ⟨asked, hasked, hv'⟩ := Option.map_eq_some_iff.1 hnext
  have hsame : v'.resolved = v.resolved := by rw [← hv']
  have hcontroller : v'.controller = v.controller.loaded answer := by rw [← hv']
  cases answer with
  | error text =>
      have hknown : Known v' := hinv.of_same (by rw [hcontroller]; rfl) hsame
        (by rw [hcontroller]; rfl)
      refine ⟨iff_of_true hknown.resolvedOnce ?_, fun _ => hknown⟩
      intro i' snap heq
      cases heq
  | ok snap =>
      have hshut (h : ResolvedOnce v (.reply i (.ok snap)) v') :
          ∀ approvalId ∈ v.resolved, ¬Open snap.approvals approvalId := by
        intro approvalId hmem hopen
        refine h.shut approvalId (by rwa [hsame]) ?_
        rw [hcontroller]
        exact resolvable_iff.2 ⟨rfl, hopen⟩
      have hknown (h : ∀ approvalId ∈ v.resolved, ¬Open snap.approvals approvalId) : Known v' :=
        Known.adopted hinv.once h hsame hcontroller
      refine ⟨⟨?_, fun h => (hknown (h i snap rfl)).resolvedOnce⟩, fun h => hknown (hshut h)⟩
      intro h i' snap' heq
      cases heq
      exact hshut h

theorem seed_known {snap : Buffers} (hinv : Known v) (hnext : v.next (.seed snap) = some v') :
    Known v' := by
  cases hnext
  by_cases hskip : v.controller.snapshotLoaded = true ∨ snap.workflowId ≠ v.controller.workflowId
  · have hsame : v.controller.seed snap = v.controller := if_pos hskip
    rw [hsame]
    exact hinv
  · have hadopt : v.controller.seed snap = v.controller.adopt snap := if_neg hskip
    rw [not_or] at hskip
    have hnone := (hinv.fresh (Bool.eq_false_iff.2 hskip.1)).2
    refine Known.adopted hinv.once ?_ rfl hadopt
    intro approvalId hmem
    rw [hnone] at hmem
    cases hmem

theorem resolve_known {approvalId : String} {approved : Bool} {now : Int} (hinv : Known v)
    (hnext : v.next (.resolve approvalId approved now) = some v') : Known v' := by
  cases hnext
  cases hresolve : v.controller.resolveApproval approvalId approved now with
  | none => exact hinv
  | some c =>
      have hspec := resolveApproval_spec hresolve
      have hnew : approvalId ∉ v.resolved := fun hmem => hinv.shut approvalId hmem hspec.wasOpen
      refine ⟨?_, List.nodup_cons.2 ⟨hnew, hinv.once⟩, ?_⟩
      · intro other hmem hopen
        have hbefore := (hspec.after other).1 hopen
        cases List.mem_cons.1 hmem with
        | inl heq => exact hbefore.1 heq
        | inr hold => exact hinv.shut other hold hbefore.2
      · intro hloaded
        have hold : v.controller.snapshotLoaded = false :=
          (resolveApproval_frame hresolve).2.2.symm.trans hloaded
        obtain ⟨row, hrow, -⟩ := hspec.wasOpen
        rw [(hinv.fresh hold).1] at hrow
        cases hrow

theorem resolvedOnce_iff {e : Event} (hinv : Known v) (hnext : v.next e = some v') :
    (ResolvedOnce v e v' ↔ NoneReopened v e v') ∧ (ResolvedOnce v e v' → Known v') := by
  have helse (hreply : ∀ i answer, e ≠ .reply i answer) (hknown : Known v') :
      (ResolvedOnce v e v' ↔ NoneReopened v e v') ∧ (ResolvedOnce v e v' → Known v') :=
    ⟨iff_of_true hknown.resolvedOnce fun i _ heq => absurd heq (hreply i _), fun _ => hknown⟩
  cases e with
  | reply i answer => exact reply_reopens hinv hnext
  | load =>
      cases hnext
      exact helse (fun i answer => Event.noConfusion) (hinv.of_same rfl rfl rfl)
  | freeze =>
      cases hnext
      exact helse (fun i answer => Event.noConfusion) (hinv.of_same rfl rfl rfl)
  | seed snap => exact helse (fun i answer => Event.noConfusion) (seed_known hinv hnext)
  | delta d =>
      cases hnext
      obtain ⟨hrows, -, hloaded⟩ := call_frame (c := v.controller) (d := d)
      exact helse (fun i answer => Event.noConfusion) (hinv.of_same hrows rfl hloaded)
  | resolve approvalId approved now =>
      exact helse (fun i answer => Event.noConfusion) (resolve_known hinv hnext)

end Steps

/-- **Single resolve on the phone.** In a run from a new controller no approval
that was resolved here is resolvable again, and none is resolved twice, if and
only if no snapshot that comes in lists one of them as open. -/
theorem single_resolve (computerId workflowId : String) (events : List Event) :
    Every View.next ResolvedOnce (.initial computerId workflowId) events ↔
      Every View.next NoneReopened (.initial computerId workflowId) events := by
  refine every_iff (P := ResolvedOnce) (Q := NoneReopened) Known
    (fun v e v' hinv hnext => resolvedOnce_iff hinv hnext) ⟨?_, ?_, ?_⟩ events
  · intro approvalId hmem
    cases hmem
  · exact List.nodup_nil
  · intro _
    exact ⟨rfl, rfl⟩

namespace Reopened

def row : TrackedApproval where
  approvalId := "A-1"
  workflowId := "W-1"
  title := "Run"
  detail := "make"
  expiresAtMillis := 100
  resolution := none
  destructive := false

def snap : Buffers where
  computerId := "C-1"
  workflowId := "W-1"
  lastSeqNo := 3
  approvals := [row]

/-- The approval is resolved while a snapshot is on its way. -/
def before : List Event :=
  [.load, .reply 0 (.ok snap), .load, .resolve "A-1" true 10]

def last : Event := .reply 0 (.ok snap)

def shown : View where
  controller := {
    computerId := "C-1"
    workflowId := "W-1"
    snapshotLoaded := true
    state := { snap with approvals := [row.withResolution "approved"] } }
  loads := [0]
  resolved := ["A-1"]

end Reopened

/-- A snapshot that was on its way makes a resolved approval resolvable again. -/
theorem snapshot_reopens :
    ¬∀ (computerId workflowId : String) (events : List Event),
      Every View.next ResolvedOnce (.initial computerId workflowId) events := by
  intro h
  have hrun : follow View.next (.initial "C-1" "W-1") Reopened.before = some Reopened.shown := by
    decide
  have hstep : Reopened.shown.next Reopened.last =
      some ((Reopened.shown.next Reopened.last).get (by decide)) := by
    rw [Option.some_get]
  have honce := (h "C-1" "W-1" (Reopened.before ++ [Reopened.last])).last hrun hstep
  exact honce.shut "A-1" (by decide) ⟨false, 20, by decide⟩

end Calcar.Phone.Workflow
