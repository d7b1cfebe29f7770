import Calcar.Lib.Budget
import Calcar.Lib.Window
import Calcar.Phone.Caps
import Calcar.Verified.WorkflowOrder

/-!
# The terminal tail

The cap walks the lines from the newest one back.  What it keeps is the longest suffix
within both limits, so that capping early loses nothing that a later cap would keep.

## Main results

* `newest_eq` — the walk evicts from the front until the rest fits.
* `terminal_cap_law` — the longest suffix that fits, and capping after each append.
* `terminalLines_run` — what a controller shows after any deltas.
-/

namespace Calcar.Phone

open Lib
open Workflow (kTerminalLineCap kTerminalByteCap tailOf)

/-! ## The walk -/

section Walk

variable {Line : Type} (bytesOf : Line → Nat)

/-- What a line counts for: its bytes and one more. -/
def lineCost (line : Line) : Nat := bytesOf line + 1

/-- The lines are within the limits. -/
def TailFits (lines : List Line) : Prop :=
  lines.length ≤ kTerminalLineCap ∧ total (lineCost bytesOf) lines ≤ kTerminalByteCap

instance : DecidablePred (TailFits bytesOf) := fun lines =>
  inferInstanceAs
    (Decidable (lines.length ≤ kTerminalLineCap ∧
      total (lineCost bytesOf) lines ≤ kTerminalByteCap))

variable {bytesOf}

theorem tailFits_nil : TailFits bytesOf [] := ⟨Nat.zero_le _, Nat.zero_le _⟩

/-- Older lines alone fit where they do with newer ones. -/
theorem TailFits.front {older newer : List Line} (h : TailFits bytesOf (older ++ newer)) :
    TailFits bytesOf older := by
  rcases h with ⟨hlines, hbytes⟩
  rw [List.length_append] at hlines
  rw [total_append] at hbytes
  exact ⟨by omega, by omega⟩

theorem total_reverse {α : Type} (size : α → Nat) (xs : List α) :
    total size xs.reverse = total size xs := by
  simp [total]

/-- What the walk passes. -/
def newest (bytesOf : Line → Nat) (lines : List Line) : List Line :=
  (within (lineCost bytesOf) kTerminalByteCap 0 (tailOf lines kTerminalLineCap).reverse).reverse

theorem newest_suffix (lines : List Line) : newest bytesOf lines <:+ lines := by
  have hwalk : newest bytesOf lines <:+ tailOf lines kTerminalLineCap := by
    rw [newest, ← List.reverse_prefix, List.reverse_reverse]
    exact within_front _ _ _ 0
  exact hwalk.trans (List.drop_suffix _ lines)

theorem newest_fits (lines : List Line) : TailFits bytesOf (newest bytesOf lines) := by
  constructor
  · have hwalk := within_front (lineCost bytesOf) kTerminalByteCap
      (tailOf lines kTerminalLineCap).reverse 0
    have hlength := hwalk.length_le
    simp only [tailOf, List.length_reverse, List.length_drop] at hlength
    simp only [newest, tailOf, List.length_reverse]
    omega
  · have hbytes := within_total (lineCost bytesOf) (Nat.zero_le kTerminalByteCap)
      (tailOf lines kTerminalLineCap).reverse
    rw [newest, total_reverse]
    omega

/-- Every suffix that fits is one of what the walk passes. -/
theorem newest_longest {lines tail : List Line} (htail : tail <:+ lines)
    (hfits : TailFits bytesOf tail) : tail <:+ newest bytesOf lines := by
  have hline : tail <:+ tailOf lines kTerminalLineCap := by
    refine List.suffix_of_suffix_length_le htail (List.drop_suffix _ lines) ?_
    have hlength := htail.length_le
    have hlines := hfits.1
    rw [tailOf, List.length_drop]
    omega
  rw [newest, ← List.reverse_prefix, List.reverse_reverse]
  refine prefix_within (List.reverse_prefix.mpr hline) ?_
  rw [total_reverse, Nat.zero_add]
  exact hfits.2

/-- **The walk evicts** from the front until the rest fits. -/
theorem newest_eq (lines : List Line) : newest bytesOf lines = evict (TailFits bytesOf) lines :=
  (evict_unique _ tailFits_nil (newest_suffix lines) (newest_fits lines) fun _ htail hfits =>
    (newest_longest htail hfits).length_le).symm

variable (bytesOf) in
/-- Capping before more comes. -/
theorem newest_append (lines more : List Line) :
    newest bytesOf (newest bytesOf lines ++ more) = newest bytesOf (lines ++ more) := by
  rw [newest_eq, newest_eq, newest_eq, evict_append _ (fun _ _ => TailFits.front)]

theorem newest_idem (lines : List Line) :
    newest bytesOf (newest bytesOf lines) = newest bytesOf lines := by
  simpa using newest_append bytesOf lines []

/-- Capping after each append. -/
theorem foldl_newest (lines : List Line) (batches : List (List Line)) :
    batches.foldl (fun kept batch => newest bytesOf (kept ++ batch)) (newest bytesOf lines) =
      newest bytesOf (lines ++ batches.flatten) := by
  induction batches generalizing lines with
  | nil => simp
  | cons batch batches ih =>
      rw [List.foldl_cons, newest_append, ih, List.flatten_cons, List.append_assoc]

end Walk

/-! ## Texts of any kind -/

section Texts

open Workflow

variable {T : Type} [CapText T]

theorem newestLines_eq (bytes : Nat) (lines : List T) :
    newestLines bytes lines =
      within (lineCost CapText.utf8Length) kTerminalByteCap bytes lines := by
  induction lines generalizing bytes with
  | nil => rfl
  | cons line older ih =>
      rw [newestLines, within, ih]
      rfl

theorem capTerminalTail_eq (lines : List T) :
    capTerminalTail lines = newest CapText.utf8Length lines := by
  rw [capTerminalTail, newestLines_eq, newest]

end Texts

namespace Caps

open Lib.Utf16
open Workflow (capTerminalTail)

/-- **The terminal cap.**  What is kept of any lines is a suffix of at most so many lines
whose bytes, with one more for each line, are within the budget; every suffix within both
limits is part of it; and capping after each of any appends comes to capping all of the
lines once. -/
theorem terminal_cap_law (lines : List Text) :
    (capTerminalTail lines <:+ lines ∧ (capTerminalTail lines).length ≤ kTerminalLineCap ∧
        total (lineCost utf8Length) (capTerminalTail lines) ≤ kTerminalByteCap) ∧
      (∀ tail, tail <:+ lines → tail.length ≤ kTerminalLineCap →
        total (lineCost utf8Length) tail ≤ kTerminalByteCap → tail <:+ capTerminalTail lines) ∧
      ∀ batches : List (List Text),
        batches.foldl (fun kept batch => capTerminalTail (kept ++ batch)) (capTerminalTail lines) =
          capTerminalTail (lines ++ batches.flatten) := by
  simp only [capTerminalTail_eq]
  refine ⟨⟨newest_suffix lines, newest_fits lines⟩, ?_, foldl_newest lines⟩
  intro tail htail hlines hbytes
  exact newest_longest htail ⟨hlines, hbytes⟩

end Caps

/-! ## The controller -/

namespace Workflow

/-- What a delta is to the controller that takes it in or not. -/
def Delta.applied (c : Controller) (d : Delta) : Controller := (d.call c).getD c

/-- The terminal lines that the controller takes in with a delta. -/
def Delta.newLines (c : Controller) : Delta → List String
  | .terminal seqNo lines => if c.accept seqNo = true then lines else []
  | _ => []

/-- The terminal lines that it takes in with deltas one after another. -/
def takenLines (c : Controller) : List Delta → List String
  | [] => []
  | d :: deltas => d.newLines c ++ takenLines (d.applied c) deltas

theorem applied_lines (c : Controller) (d : Delta)
    (h : capTerminalTail c.state.terminalLines = c.state.terminalLines) :
    (d.applied c).state.terminalLines =
      capTerminalTail (c.state.terminalLines ++ d.newLines c) := by
  cases d with
  | terminal seqNo lines =>
      simp only [Delta.applied, Delta.call, Controller.appendTerminal, Option.getD_some,
        Delta.newLines]
      cases haccept : c.accept seqNo with
      | false => simpa using h.symm
      | true =>
          by_cases hlines : lines = []
          · simpa [hlines] using h.symm
          · simp [hlines]
  | status seqNo text =>
      simp only [Delta.applied, Delta.call, Controller.applyStatus]
      split <;> simpa [Delta.newLines] using h.symm
  | activity event =>
      simp only [Delta.applied, Delta.call, Controller.appendActivity]
      split <;> simpa [Delta.newLines] using h.symm
  | chat message =>
      simp only [Delta.applied, Delta.call, Controller.appendChat]
      split <;> simpa [Delta.newLines] using h.symm
  | files seqNo hunks =>
      simp only [Delta.applied, Delta.call, Controller.applyFiles]
      split <;> simpa [Delta.newLines] using h.symm
  | approval seqNo row =>
      simp only [Delta.applied, Delta.call, upsertApproval_eq]
      split <;> simpa [Delta.newLines] using h.symm

/-- **What a controller shows** after any deltas is the cap of what it had shown and of all
lines it has taken in since. -/
theorem terminalLines_run (c : Controller) (deltas : List Delta)
    (h : capTerminalTail c.state.terminalLines = c.state.terminalLines) :
    (deltas.foldl Delta.applied c).state.terminalLines =
      capTerminalTail (c.state.terminalLines ++ takenLines c deltas) := by
  induction deltas generalizing c with
  | nil => simpa [takenLines] using h.symm
  | cons d deltas ih =>
      have happlied := applied_lines c d h
      have hcapped : capTerminalTail (d.applied c).state.terminalLines =
          (d.applied c).state.terminalLines := by
        rw [happlied, capTerminalTail_eq, capTerminalTail_eq, newest_idem]
      rw [List.foldl_cons, ih _ hcapped, happlied, takenLines, ← List.append_assoc,
        capTerminalTail_eq, capTerminalTail_eq, capTerminalTail_eq, newest_append]

end Workflow

end Calcar.Phone
