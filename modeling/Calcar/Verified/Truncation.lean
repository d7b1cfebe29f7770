import Calcar.Lib.Budget
import Calcar.Verified.WorkflowOrder

/-!
# What a view says of the files it leaves out

A delta of files is capped and flagged by what the cap left.  A snapshot is capped too,
but keeps the flag it came with, so files that the view left out itself go unannounced.

## Main results

* `shown_iff` — what the cap leaves is everything exactly where the files fit.
* `delta_honest` — a delta is flagged where something of it is missing.
* `truncation_honest_iff` — in a run the flag is right exactly where each snapshot that is
  adopted is flagged or fits.
-/

namespace Calcar.Phone.Workflow

open Lib

/-! ## What the cap leaves -/

/-- The file is shown with its path, and nothing of its diff is missing. -/
def Shows (file shown : BufferedFile) : Prop :=
  shown.path = file.path ∧ file.diff.toList <+: shown.diff.toList

/-- Every file is shown, at its place. -/
def AllShown (files shown : List BufferedFile) : Prop :=
  ∀ (i : Nat) file, files[i]? = some file → ∃ kept, shown[i]? = some kept ∧ Shows file kept

/-- The files are within the caps; or only the last one is not, and what is cut off it is
what the mark of the cut begins with. -/
def Fits (files : List BufferedFile) : Prop :=
  files.length ≤ kDiffFileCap ∧
    (total diffBytes files ≤ kDiffByteCap ∨
      ∃ front last, files = front ++ [last] ∧ total diffBytes front ≤ kDiffByteCap ∧
        last.diff.toList <+: (cutHunk (kDiffByteCap - total diffBytes front) last).diff.toList)

section Caps

variable {files : List BufferedFile}

theorem allShown_self (files : List BufferedFile) : AllShown files files :=
  fun _ file hfile => ⟨file, hfile, rfl, List.prefix_refl _⟩

/-- All that is shown is no more than there are places. -/
theorem AllShown.length_le {shown : List BufferedFile} (h : AllShown files shown) :
    files.length ≤ shown.length := by
  refine Nat.not_lt.mp fun hlt => ?_
  obtain ⟨kept, hkept, -⟩ := h shown.length files[shown.length] (List.getElem?_eq_getElem hlt)
  simp at hkept

/-- The files that fit are all shown. -/
theorem Fits.allShown (h : Fits files) : AllShown files (capDiffs files) := by
  obtain ⟨hlength, hbytes⟩ := h
  have htake : files.take kDiffFileCap = files := List.take_of_length_le hlength
  by_cases hfit : total diffBytes files ≤ kDiffByteCap
  · rw [capDiffs_fits (by rwa [htake]), htake]
    exact allShown_self files
  · obtain ⟨front, last, rfl, hfront, hlast⟩ := hbytes.resolve_left hfit
    simp only [total_append, total_cons, total_nil, Nat.add_zero, Nat.not_le] at hfit
    rw [capDiffs_cut htake hfront hfit]
    intro i file hfile
    by_cases hi : i < front.length
    · rw [List.getElem?_append_left hi] at hfile ⊢
      exact allShown_self front i file hfile
    · rw [List.getElem?_append_right (by omega)] at hfile ⊢
      cases hplace : i - front.length with
      | zero =>
          rw [hplace] at hfile
          cases hfile
          exact ⟨_, rfl, rfl, hlast⟩
      | succ j => simp [hplace] at hfile

/-- **Nothing is missing** exactly where the files fit. -/
theorem shown_iff : AllShown files (capDiffs files) ↔ Fits files := by
  refine ⟨fun h => ?_, Fits.allShown⟩
  have hkept := h.length_le
  have hspent := capDiffs_length_le files
  have hlength : files.length ≤ kDiffFileCap := by omega
  have htake : files.take kDiffFileCap = files := List.take_of_length_le hlength
  refine ⟨hlength, ?_⟩
  by_cases hbytes : total diffBytes files ≤ kDiffByteCap
  · exact .inl hbytes
  · rw [← htake, Nat.not_le] at hbytes
    obtain ⟨front, x, rest, hfiles, -, hfit, hcut⟩ := capDiffs_over hbytes
    rw [htake] at hfiles
    -- the file that is cut is the last one, as nothing behind it is shown
    rw [hcut] at hkept h
    have hrest : rest = [] := by
      rw [hfiles] at hkept
      simpa using hkept
    subst hrest
    obtain ⟨kept, hplace, hshows⟩ := h front.length x (by simp [hfiles])
    rw [List.getElem?_concat_length] at hplace
    cases hplace
    exact .inr ⟨front, x, hfiles, hfit, hshows.2⟩

/-- **A delta is honest**: where something of it is missing, it is flagged. -/
theorem delta_honest (hunks : List BufferedFile)
    (h : ¬AllShown hunks (capDiffs hunks)) :
    diffsTruncated (capDiffs hunks) hunks.length = true := by
  by_cases hlength : hunks.length ≤ kDiffFileCap
  · have htake : hunks.take kDiffFileCap = hunks := List.take_of_length_le hlength
    by_cases hbytes : total diffBytes hunks ≤ kDiffByteCap
    · exact absurd (shown_iff.2 ⟨hlength, .inl hbytes⟩) h
    · rw [← htake, Nat.not_le] at hbytes
      obtain ⟨front, x, rest, -, -, -, hcut⟩ := capDiffs_over hbytes
      rw [hcut]
      simp [diffsTruncated, cutHunk]
  · have hspent := capDiffs_length_le hunks
    have hless : (capDiffs hunks).length < hunks.length := by omega
    simp [diffsTruncated, hless]

end Caps

/-! ## What a view has received -/

/-- A view, and the files it has received last: with the snapshot or seed it adopted, or
with a delta of files behind it. -/
structure Feed where
  view : View
  received : List BufferedFile := []

/-- The snapshot is adopted. -/
def Adopts (v : View) (e : Event) (snap : Buffers) : Prop :=
  (∃ i, e = .reply i (.ok snap)) ∨
    (e = .seed snap ∧ v.controller.snapshotLoaded = false ∧
      snap.workflowId = v.controller.workflowId)

namespace Feed

def initial (computerId workflowId : String) : Feed where
  view := .initial computerId workflowId

/-- The files received with an event. -/
def files (f : Feed) : Event → List BufferedFile
  | .reply _ (.ok snap) => snap.files
  | .seed snap =>
      if f.view.controller.snapshotLoaded = true ∨ snap.workflowId ≠ f.view.controller.workflowId
      then f.received else snap.files
  | .delta (.files seqNo hunks) =>
      if f.view.controller.accept seqNo = true then hunks else f.received
  | _ => f.received

def next (f : Feed) (e : Event) : Option Feed :=
  (f.view.next e).map fun view => { view := view, received := f.files e }

end Feed

/-- Where something of the files received is missing from what is shown, the flag says so. -/
def Honest (f : Feed) : Prop :=
  ¬AllShown f.received f.view.controller.state.files →
    f.view.controller.state.filesTruncated = true

/-- A snapshot that is adopted is flagged, or its files fit. -/
def Announced (f : Feed) (e : Event) (_ : Feed) : Prop :=
  ∀ snap, Adopts f.view e snap → snap.filesTruncated = true ∨ Fits snap.files

section Steps

variable {f f' : Feed} {e : Event}

/-- What leaves the files and their flag alone stays honest. -/
theorem Honest.of_same (h : Honest f) (hreceived : f'.received = f.received)
    (hfiles : f'.view.controller.state.files = f.view.controller.state.files)
    (hflag : f'.view.controller.state.filesTruncated = f.view.controller.state.filesTruncated) :
    Honest f' := by
  unfold Honest
  rw [hreceived, hfiles, hflag]
  exact h

/-- A snapshot that was just adopted. -/
theorem adopted_honest (snap : Buffers) (hreceived : f'.received = snap.files)
    (hstate : f'.view.controller.state = snap.capped) :
    Honest f' ↔ snap.filesTruncated = true ∨ Fits snap.files := by
  unfold Honest
  rw [hreceived, hstate, Buffers.capped_filesTruncated, Buffers.capped_files, shown_iff,
    or_comm, Classical.or_iff_not_imp_left]

/-- A delta that is none of files. -/
theorem call_files (c : Controller) (d : Delta) (h : ∀ seqNo hunks, d ≠ .files seqNo hunks) :
    ((d.call c).getD c).state.files = c.state.files ∧
      ((d.call c).getD c).state.filesTruncated = c.state.filesTruncated := by
  cases d with
  | files seqNo hunks => exact absurd rfl (h seqNo hunks)
  | status seqNo text => simp only [Delta.call, Controller.applyStatus]; split <;> simp
  | activity event => simp only [Delta.call, Controller.appendActivity]; split <;> simp
  | chat message => simp only [Delta.call, Controller.appendChat]; split <;> simp
  | terminal seqNo lines => simp only [Delta.call, Controller.appendTerminal]; split <;> simp
  | approval seqNo row => simp only [Delta.call, upsertApproval_eq]; split <;> simp

theorem delta_step_honest {d : Delta} (h : Honest f) (hnext : f.next (.delta d) = some f') :
    Honest f' := by
  by_cases hd : ∃ seqNo hunks, d = .files seqNo hunks
  · obtain ⟨seqNo, hunks, rfl⟩ := hd
    cases hnext
    cases haccept : f.view.controller.accept seqNo with
    | false => simpa [Honest, Feed.files, Delta.call, Controller.applyFiles, haccept] using h
    | true =>
        intro hmissing
        simp only [Feed.files, Delta.call, Controller.applyFiles, haccept] at hmissing ⊢
        exact delta_honest hunks hmissing
  · have hother : ∀ seqNo hunks, d ≠ .files seqNo hunks :=
      fun seqNo hunks he => hd ⟨seqNo, hunks, he⟩
    obtain ⟨hfiles, hflag⟩ := call_files f.view.controller d hother
    have hreceived : f.files (.delta d) = f.received := by
      cases d with
      | files seqNo hunks => exact absurd rfl (hother seqNo hunks)
      | _ => rfl
    cases hnext
    exact h.of_same hreceived hfiles hflag

theorem resolve_step_honest {approvalId : String} {approved : Bool} {now : Int} (h : Honest f)
    (hnext : f.next (.resolve approvalId approved now) = some f') : Honest f' := by
  cases hnext
  cases hresolve : f.view.controller.resolveApproval approvalId approved now with
  | none => exact h.of_same rfl (by simp) (by simp)
  | some c =>
      obtain ⟨next, -, rfl⟩ := Option.map_eq_some_iff.1 hresolve
      exact h.of_same rfl (by simp [Controller.withSlim]) (by simp [Controller.withSlim])

theorem seed_step_honest {snap : Buffers} (h : Honest f) (hnext : f.next (.seed snap) = some f') :
    Honest f' ↔ Announced f (.seed snap) f' := by
  cases hnext
  by_cases hskip : f.view.controller.snapshotLoaded = true ∨
      snap.workflowId ≠ f.view.controller.workflowId
  · have hsame : f.view.controller.seed snap = f.view.controller := if_pos hskip
    refine iff_of_true ?_ ?_
    · refine h.of_same ?_ (by rw [hsame]) (by rw [hsame])
      simp only [Feed.files, if_pos hskip]
    · rintro snap' (⟨i, he⟩ | ⟨he, hloaded, hid⟩)
      · cases he
      · cases he
        simp [hloaded, hid] at hskip
  · have hadopt : f.view.controller.seed snap = f.view.controller.adopt snap := if_neg hskip
    rw [adopted_honest snap (by simp only [Feed.files, if_neg hskip])
      (by rw [hadopt]; rfl)]
    rw [not_or, Bool.not_eq_true, Decidable.not_not] at hskip
    constructor
    · rintro hgood snap' (⟨i, he⟩ | ⟨he, -, -⟩) <;> cases he
      exact hgood
    · intro hall
      exact hall snap (.inr ⟨rfl, hskip.1, hskip.2⟩)

theorem reply_step_honest {i : Nat} {answer : Except String Buffers} (h : Honest f)
    (hnext : f.next (.reply i answer) = some f') :
    Honest f' ↔ Announced f (.reply i answer) f' := by
  obtain ⟨view, hview, rfl⟩ := Option.map_eq_some_iff.1 hnext
  obtain ⟨asked, -, rfl⟩ := Option.map_eq_some_iff.1 hview
  cases answer with
  | error text =>
      refine iff_of_true (h.of_same rfl rfl rfl) ?_
      rintro snap (⟨j, he⟩ | ⟨he, -, -⟩) <;> cases he
  | ok snap =>
      rw [adopted_honest snap rfl rfl]
      constructor
      · rintro hgood snap' (⟨j, he⟩ | ⟨he, -, -⟩) <;> cases he
        exact hgood
      · intro hall
        exact hall snap (.inl ⟨i, rfl⟩)

/-- **One step** of an honest view. -/
theorem honest_step (h : Honest f) (hnext : f.next e = some f') :
    Honest f' ↔ Announced f e f' := by
  have helse (hhonest : Honest f') (hnone : ∀ snap, ¬Adopts f.view e snap) :
      Honest f' ↔ Announced f e f' :=
    iff_of_true hhonest fun snap hadopts => absurd hadopts (hnone snap)
  cases e with
  | reply i answer => exact reply_step_honest h hnext
  | seed snap => exact seed_step_honest h hnext
  | load =>
      cases hnext
      exact helse (h.of_same rfl rfl rfl) (by simp [Adopts])
  | freeze =>
      cases hnext
      exact helse (h.of_same rfl rfl rfl) (by simp [Adopts])
  | delta d => exact helse (delta_step_honest h hnext) (by simp [Adopts])
  | resolve approvalId approved now =>
      exact helse (resolve_step_honest h hnext) (by simp [Adopts])

end Steps

/-- **Truncation honesty.**  In a run of a new view, wherever a file or a part of a diff it
has received is missing from what it shows, its flag is set, if and only if every snapshot
and seed that is adopted comes with the flag set or with files that fit. -/
theorem truncation_honest_iff (computerId workflowId : String) (events : List Event) :
    Every Feed.next (fun _ _ f' => Honest f') (.initial computerId workflowId) events ↔
      Every Feed.next Announced (.initial computerId workflowId) events := by
  refine every_iff (P := fun _ _ f' => Honest f') (Q := Announced) Honest ?_ ?_ events
  · intro f e f' h hnext
    exact ⟨honest_step h hnext, id⟩
  · intro hmissing
    exact absurd (allShown_self []) hmissing

namespace Wide

/-- One file more than the view keeps. -/
def snap : Buffers where
  computerId := "C-1"
  workflowId := "W-1"
  files := List.replicate 51 { path := "lib/a.dart", diff := "" }

/-- The view has asked for its snapshot. -/
def asked : Feed where
  view := { View.initial "C-1" "W-1" with loads := [0] }

def answer : Event := .reply 0 (.ok snap)

def adopted : Feed where
  view := { View.initial "C-1" "W-1" with
    controller := (View.initial "C-1" "W-1").controller.loaded (.ok snap) }
  received := snap.files

theorem asked_reached : follow Feed.next (.initial "C-1" "W-1") [.load] = some asked := rfl

theorem adopted_next : asked.next answer = some adopted := rfl

end Wide

/-- The last of the files of a snapshot is left out, and the flag is not set. -/
theorem wide_snapshot_unflagged :
    ¬∀ (computerId workflowId : String) (events : List Event),
      Every Feed.next (fun _ _ f' => Honest f') (.initial computerId workflowId) events := by
  intro h
  have hhonest := (h "C-1" "W-1" ([.load] ++ [Wide.answer])).last Wide.asked_reached
    Wide.adopted_next
  rw [adopted_honest Wide.snap rfl rfl] at hhonest
  rcases hhonest with hflag | hfits
  · cases hflag
  · have hlength := hfits.1
    simp [Wide.snap, kDiffFileCap] at hlength

end Calcar.Phone.Workflow
