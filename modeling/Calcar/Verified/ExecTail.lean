import Calcar.Agent.Exec
import Calcar.Verified.LossyText

/-!
# The law of tail files

A tail file holds the newest characters of a run's output that fit 256 KiB, and it says when
they are not all of it.

## Main results

* `tailBytes_newest` — the cut never panics, and keeps the newest that fits.
* `tail_file_law` — what a tail file holds.
-/

namespace Calcar.Agent

open Lib Utf8

theorem nextBoundary_eq (rest : Bytes) (start : Nat) :
    nextBoundary rest start = start + (rest.takeWhile continues).length := by
  induction rest generalizing start with
  | nil => rfl
  | cons b rest ih =>
      by_cases hb : continues b = true
      · rw [nextBoundary, if_pos hb, ih, List.takeWhile_cons_of_pos hb, List.length_cons]
        omega
      · rw [nextBoundary, if_neg hb, List.takeWhile_cons_of_neg hb]
        rfl

/-- Where the loop ends, the bytes that continue a character are behind it. -/
theorem drop_nextBoundary (bytes : Bytes) (start : Nat) :
    bytes.drop (nextBoundary (bytes.drop start) start) = (bytes.drop start).dropWhile continues := by
  rw [nextBoundary_eq, ← List.drop_drop]
  conv_lhs =>
    arg 2
    rw [← List.takeWhile_append_dropWhile (p := continues) (l := bytes.drop start)]
  rw [List.drop_left]

/-- **The cut.**  It never panics, it keeps the newest characters that fit, and it says
whether these are all. -/
theorem tailBytes_newest (text : List Char) (maxBytes : Nat) :
    ∃ kept, tailBytes text maxBytes = some (kept, decide (maxBytes < (asBytes text).length)) ∧
      Newest maxBytes text kept := by
  by_cases hfits : (asBytes text).length ≤ maxBytes
  · refine ⟨text, ?_, .whole hfits⟩
    have hnot : ¬maxBytes < (asBytes text).length := Nat.not_lt.mpr hfits
    simp [tailBytes, hfits, hnot]
  · rcases newest_cut text ((asBytes text).length - maxBytes) (Nat.sub_le _ _) with
      ⟨kept, hkept, hnewest⟩
    have hmax : (asBytes text).length - ((asBytes text).length - maxBytes) = maxBytes := by omega
    rw [hmax] at hnewest
    refine ⟨kept, ?_, hnewest⟩
    have hover : maxBytes < (asBytes text).length := Nat.not_le.mp hfits
    simp only [tailBytes, if_neg hfits]
    rw [drop_nextBoundary, hkept, fromUtf8_asBytes]
    simp [hover]

/-- What a tail file is to hold, with its flag. -/
structure TailFile (outcome : ExecOutcome) (body : List Char) (flag : Bool) : Prop where
  /-- The newest characters that fit, behind the mark if there is one. -/
  newest : ∃ kept, body = (if flag then truncatedMark else []) ++ kept ∧
    Newest tailFileBytes (outputText outcome) kept
  /-- The flag is for what is cut here and for what the pipes have cut. -/
  flagged : flag = true ↔
    outcome.truncated = true ∨ tailFileBytes < (asBytes (outputText outcome)).length

/-- A file without the flag is the whole output. -/
theorem TailFile.whole {outcome : ExecOutcome} {body : List Char} (h : TailFile outcome body false) :
    body = outputText outcome := by
  rcases h.newest with ⟨kept, hbody, hkept⟩
  have hfits : (asBytes (outputText outcome)).length ≤ tailFileBytes := by
    by_contra hover
    exact nomatch h.flagged.mpr (.inr (Nat.not_le.mp hover))
  have hall := hkept.longest _ List.suffix_rfl hfits
  have hsame : kept = outputText outcome := hkept.suffix.eq_of_length_le hall.length_le
  rw [hbody, hsame]
  rfl

/-- Streams that are text are in the output as they are, the second behind a line of its
own. -/
theorem outputText_encoded {outcome : ExecOutcome} {out err : List Char}
    (hout : outcome.stdout = asBytes out) (herr : outcome.stderr = asBytes err) :
    outputText outcome = out ++ if err = [] then [] else stderrMark ++ err := by
  have hback (cs : List Char) : (fromUtf8Lossy (asBytes cs)).toList = cs := by
    rw [fromUtf8Lossy, String.toList_ofList]
    exact lossyText_encoded cs
  rw [outputText, hout, herr, hback, hback]

/-- **What a tail file holds.**  For every output of a run there is a file, the newest
characters of the output that fit 256 KiB, with the mark in front of them just when
something is missing; without the flag it is the whole output, a cut takes less than a
character more than it has to, and of streams that are text the output is what they say. -/
theorem tail_file_law (outcome : ExecOutcome) :
    ∃ body flag, tailBody outcome = some (body, flag) ∧ TailFile outcome body flag ∧
      (flag = false → body = outputText outcome) ∧
      (tailFileBytes < (asBytes (outputText outcome)).length →
        ∃ kept, body = truncatedMark ++ kept ∧ kept <:+ outputText outcome ∧
          (asBytes kept).length ≤ tailFileBytes ∧ tailFileBytes ≤ (asBytes kept).length + 3) ∧
      ∀ out err, outcome.stdout = asBytes out → outcome.stderr = asBytes err →
        outputText outcome = out ++ if err = [] then [] else stderrMark ++ err := by
  rcases tailBytes_newest (outputText outcome) tailFileBytes with ⟨kept, hkept, hnewest⟩
  let flag := decide (tailFileBytes < (asBytes (outputText outcome)).length) || outcome.truncated
  have hflag : flag = true ↔
      outcome.truncated = true ∨ tailFileBytes < (asBytes (outputText outcome)).length := by
    simp [flag, or_comm]
  have hfile : TailFile outcome ((if flag then truncatedMark else []) ++ kept) flag :=
    ⟨⟨kept, rfl, hnewest⟩, hflag⟩
  refine ⟨_, flag, by simp [tailBody, hkept, flag], hfile, fun hwhole => ?_, fun hover => ?_,
    fun out err hout herr => outputText_encoded hout herr⟩
  · rw [hwhole] at hfile ⊢
    exact hfile.whole
  · have hset : flag = true := hflag.mpr (.inr hover)
    have hcut : kept ≠ outputText outcome := by
      intro he
      have hfits := hnewest.fits
      rw [he] at hfits
      omega
    exact ⟨kept, by rw [hset]; rfl, hnewest.suffix, hnewest.fits, hnewest.nearly hcut⟩

end Calcar.Agent
