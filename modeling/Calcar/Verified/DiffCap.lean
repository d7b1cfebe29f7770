import Calcar.Phone.Caps

/-!
# The cap of the diffs

The files are kept as long as the bytes of their diffs are within the budget.  The first
that is not is cut to the bytes that are left, and gets the mark of the cut behind what is
kept of it: the mark is not paid for, so that the cap overruns its budget wherever it cuts,
and cuts again what it has cut before.

## Main results

* `capDiffs_kept` — every file is kept as it is, or cut at a rune and marked.
* `capDiffs_overruns` — where it cuts, it keeps more than the budget.
* `diff_cap_iff` — the cap does all it is for exactly where the files are within the budget.
-/

namespace Calcar.Phone.Caps

open Lib Lib.Utf16
open Workflow

/-- What is kept of a file: all of it with the flag it had, or what stands before a
boundary of its diff, with the mark behind it and the flag set. -/
def KeptAs (file kept : BufferedFile) : Prop :=
  kept = file ∨
    ∃ head rest, file.diff = head ++ rest ∧ runes file.diff = runes head ++ runes rest ∧
      kept = { path := file.path, diff := head ++ mark, truncated := true }

/-- What the cap is for. -/
structure Capped (files kept : List BufferedFile) : Prop where
  files_le : kept.length ≤ kDiffFileCap
  bytes_le : total diffBytes kept ≤ kDiffByteCap
  order : List.Forall₂ KeptAs (files.take kept.length) kept
  again : capDiffs kept = kept

/-! ## What is kept -/

theorem cutHunk_kept (room : Nat) (hunk : BufferedFile) : KeptAs hunk (cutHunk room hunk) := by
  unfold cutHunk
  by_cases hroom : 0 < room
  · rcases headBytes_boundary hunk.diff room with ⟨rest, htext, hrunes⟩
    exact .inr ⟨headBytes hunk.diff room, rest, htext, hrunes, by rw [if_pos hroom]; rfl⟩
  · exact .inr ⟨[], hunk.diff, rfl, rfl, by rw [if_neg hroom]; rfl⟩

/-- What is spent is kept of as many files from the first one on. -/
theorem spend_kept (bytes : Nat) (hunks : List BufferedFile) :
    List.Forall₂ KeptAs
      (hunks.take (spend diffBytes cutHunk kDiffByteCap bytes hunks).length)
      (spend diffBytes cutHunk kDiffByteCap bytes hunks) := by
  induction hunks generalizing bytes with
  | nil => exact .nil
  | cons hunk hunks ih =>
      rw [spend]
      split
      · exact .cons (cutHunk_kept _ hunk) .nil
      · exact .cons (.inl rfl) (ih _)

/-- **Every file is kept** as it is, or cut at a boundary and marked. -/
theorem capDiffs_kept (files : List BufferedFile) :
    List.Forall₂ KeptAs (files.take (capDiffs files).length) (capDiffs files) := by
  have hkept := spend_kept 0 (files.take kDiffFileCap)
  have hlength := (Nat.le_min.mp (capDiffs_length_le files)).1
  rw [← capDiffs_eq, List.take_take, Nat.min_eq_left hlength] at hkept
  exact hkept

/-! ## The bytes of it -/

theorem utf8Length_mark : utf8Length mark = 12 := by
  rw [mark, utf8Length_ofString]
  rfl

theorem head_mark : ∀ v ∈ mark.head?, isTrail v = false := head_ofString _

/-- A file that is cut takes more than the bytes that were left for it. -/
theorem cutHunk_over {room : Nat} {hunk : BufferedFile} (h : room < diffBytes hunk) :
    room < diffBytes (cutHunk room hunk) := by
  show room < utf8Length (cutHunk room hunk).diff
  have hmark := utf8Length_mark
  by_cases hroom : 0 < room
  · have hdiff : (cutHunk room hunk).diff = headBytes hunk.diff room ++ mark := if_pos hroom
    have hhead := le_headBytes h
    rw [hdiff, utf8Length_append _ head_mark]
    omega
  · have hdiff : (cutHunk room hunk).diff = mark := if_neg hroom
    rw [hdiff]
    omega

/-- **Where it cuts** it keeps more than the budget. -/
theorem capDiffs_overruns {files : List BufferedFile}
    (h : kDiffByteCap < total diffBytes (files.take kDiffFileCap)) :
    kDiffByteCap < total diffBytes (capDiffs files) := by
  obtain ⟨front, x, rest, -, hroom, hfit, hcut⟩ := capDiffs_over h
  have hmore := cutHunk_over hroom
  rw [hcut, total_append, total_cons, total_nil]
  omega

/-- **The cap of the diffs.**  It keeps no more than so many files and bytes, in their
order, cut at boundaries only and marked where they are cut, and changes nothing when it is
applied again, if and only if the files up to the cap of their number are within the budget
of bytes. -/
theorem diff_cap_iff (files : List BufferedFile) :
    Capped files (capDiffs files) ↔
      total diffBytes (files.take kDiffFileCap) ≤ kDiffByteCap := by
  constructor
  · intro h
    by_contra hover
    have hmore := capDiffs_overruns (Nat.lt_of_not_le hover)
    have hbytes := h.bytes_le
    omega
  · intro hfits
    have hkept := capDiffs_fits hfits
    refine ⟨(Nat.le_min.mp (capDiffs_length_le files)).1, ?_, capDiffs_kept files, ?_⟩
    · rw [hkept]
      exact hfits
    · have htwice : (files.take kDiffFileCap).take kDiffFileCap = files.take kDiffFileCap := by
        rw [List.take_take, Nat.min_self]
      rw [hkept, capDiffs_fits (by rw [htwice]; exact hfits), htwice]

/-- A text of letters `a`. -/
theorem utf8Length_letters (n : Nat) : utf8Length (List.replicate n 0x61) = n := by
  induction n with
  | zero => rfl
  | succ n ih =>
      have hletter : utf8Length [0x61] = 1 := by decide
      have hfree : ∀ v ∈ (List.replicate n (0x61 : UInt16)).head?, isTrail v = false := by
        intro v hv
        rw [List.eq_of_mem_replicate (List.mem_of_mem_head? hv)]
        decide
      have hsplit : List.replicate (n + 1) (0x61 : UInt16) = [0x61] ++ List.replicate n 0x61 := rfl
      rw [hsplit, utf8Length_append _ hfree, hletter, ih, Nat.add_comm]

/-- A file with a diff of so many letters. -/
def letters (n : Nat) : BufferedFile where
  path := ofString "lib/a.dart"
  diff := List.replicate n 0x61

theorem letters_over {n : Nat} (h : kDiffByteCap < n) : ¬Capped [letters n] (capDiffs [letters n]) := by
  intro hcapped
  have htake : [letters n].take kDiffFileCap = [letters n] := rfl
  have hbytes : diffBytes (letters n) = n := utf8Length_letters n
  have hlong : kDiffByteCap < total diffBytes ([letters n].take kDiffFileCap) := by
    rw [htake, total_cons, total_nil, hbytes]
    exact h
  exact absurd hcapped.bytes_le (Nat.not_le_of_lt (capDiffs_overruns hlong))

/-- One file of one byte more than the budget. -/
theorem long_diff_overruns :
    ¬∀ files : List BufferedFile, Capped files (capDiffs files) := by
  intro h
  exact letters_over (Nat.lt_succ_self kDiffByteCap) (h [letters (kDiffByteCap + 1)])

end Calcar.Phone.Caps
