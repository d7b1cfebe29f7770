import Calcar.Agent.Generic
import Calcar.Verified.AdapterStream
import Calcar.Verified.LossyText

/-!
# What the generic adapter passes on

The adapter decodes the whole capture at each drain and passes on the lines
behind the ones it has counted.  A newline is a byte of its own in UTF-8, broken
or not, so decoding and cutting into lines can be exchanged; the lines that have
ended in a capture are then among those of every longer one, wherever the bytes
were cut.

## Main results

* `textLines_decoded` — the lines of a capture, cut before they are decoded.
* `Passing.step`, `Passing.exit` — a moment before the exit is seen, and the
  drain that sees it.
* `generic_drain` — the events of all drains.
-/

namespace Calcar.Agent

open Lib

/-! ## Complete lines -/

/-- The lines of a capture that have ended. -/
def completeLines (bytes : Bytes) : List String :=
  (Lines.split newline bytes).1.map fun line => String.ofList (stripCr (lossyText line))

/-- What is left of a capture behind its last newline. -/
def lastLine (bytes : Bytes) : List String :=
  (Lines.closing (lossyText (Lines.split newline bytes).2)).map String.ofList

section

theorem textLines_decoded (bytes : Bytes) :
    textLines (fromUtf8Lossy bytes) = completeLines bytes ++ lastLine bytes := by
  have hsplit := lossyText_split _ bytes (Nat.le_refl _)
  unfold textLines fromUtf8Lossy completeLines lastLine
  rw [String.toList_ofList, show lossyChars bytes.length bytes = lossyText bytes from rfl, hsplit,
    List.map_map]
  rfl

/-- **The lines that have ended stay as they are** when the capture grows. -/
theorem completeLines_mono {seen bytes : Bytes} (h : seen <+: bytes) :
    completeLines seen <+: completeLines bytes := by
  obtain ⟨grown, rfl⟩ := h
  unfold completeLines
  rw [Lines.split_append, List.map_append]
  exact List.prefix_append _ _

theorem endsWithNewline_decoded (bytes : Bytes) :
    (Lines.split newline bytes).2 = [] ↔
      bytes = [] ∨ endsWithNewline (fromUtf8Lossy bytes) = true := by
  have hrest : (Lines.split '\n' (lossyText bytes)).2 = [] ↔ _ :=
    Lines.split_rest_nil (lossyText bytes)
  rw [lossyText_split _ bytes (Nat.le_refl _), lossyText_eq_nil, lossyText_eq_nil] at hrest
  rw [hrest, endsWithNewline, fromUtf8Lossy, String.toList_ofList, beq_iff_eq]
  rfl

/-- While the process runs, just the lines that have ended are passed on. -/
theorem emitUpTo_running (bytes : Bytes) {n : Nat} (hn : n ≤ (completeLines bytes).length) :
    emitUpTo false (fromUtf8Lossy bytes) n = (completeLines bytes).length := by
  have hends := endsWithNewline_decoded bytes
  unfold emitUpTo
  rw [textLines_decoded, List.length_append]
  by_cases hrest : (Lines.split newline bytes).2 = []
  · have hlast : lastLine bytes = [] := by
      rw [lastLine, hrest]
      rfl
    rw [hlast, List.length_nil, Nat.add_zero]
    cases hends.mp hrest with
    | inl hnil =>
        subst hnil
        rfl
    | inr hnewline => simp [hnewline]
  · have hlast : (lastLine bytes).length = 1 := by
      rw [lastLine, Lines.closing, if_neg (fun h => hrest (lossyText_eq_nil.mp h))]
      rfl
    have hopen : endsWithNewline (fromUtf8Lossy bytes) = false := by
      cases h : endsWithNewline (fromUtf8Lossy bytes) with
      | false => rfl
      | true => exact absurd (hends.mpr (.inr h)) hrest
    have hless : n < (completeLines bytes).length + 1 := by omega
    simp [hlast, hopen, hless]

theorem emitUpTo_exited (bytes : Bytes) (n : Nat) :
    emitUpTo true (fromUtf8Lossy bytes) n = (textLines (fromUtf8Lossy bytes)).length := by
  simp [emitUpTo]

end

/-! ## Runs of one child -/

/-- The adapter after a moment, and what a drain returns. -/
def GenericAdapter.step (g : GenericAdapter) : Moment → GenericAdapter × Option (List ProviderEvent)
  | .stop => (g.stop.1, none)
  | .poll waited => (g.poll waited, none)
  | .drain waited => ((g.drain waited).1, some (g.drain waited).2)
  | m => ({ g with child := g.child.map fun c => c.step m }, none)

/-- The adapter after moments. -/
def GenericAdapter.after (g : GenericAdapter) (ms : List Moment) : GenericAdapter :=
  ms.foldl (fun g m => (g.step m).1) g

/-- What the drains of a run return. -/
def GenericAdapter.drains : GenericAdapter → List Moment → List (List ProviderEvent)
  | _, [] => []
  | g, m :: ms => (g.step m).2.toList ++ GenericAdapter.drains (g.step m).1 ms

/-- Before the exit is seen: the last drain has found `seen`, and the drains so
far have given the lines that have ended in it. -/
structure Passing (started : ProviderEvent) (g : GenericAdapter) (c : PlainChild) (seen : Bytes)
    (out : List ProviderEvent) : Prop where
  child : g.child = some c
  notYet : g.completed = false
  grown : seen <+: c.stdout.buf
  count : g.emittedLines = (completeLines seen).length
  given : out ++ g.pendingStarted.toList = started :: (completeLines seen).map lineEvent

section

variable {started : ProviderEvent} {g : GenericAdapter} {c : PlainChild} {seen : Bytes}
  {out : List ProviderEvent}

theorem step_grows (c : PlainChild) (m : Moment) : c.stdout.buf <+: (c.step m).stdout.buf := by
  cases m with
  | stdout chunk => exact push_grows c.stdout chunk
  | poll waited => exact (wait_streams c waited).1 ▸ List.prefix_rfl
  | drain waited => exact (wait_streams c waited).1 ▸ List.prefix_rfl
  | _ => exact List.prefix_rfl

/-- A moment that is no drain moves the child only. -/
theorem generic_step_child (hchild : g.child = some c) {m : Moment}
    (hm : ∀ waited, m ≠ .drain waited) :
    g.step m = ({ g with child := some (c.step m) }, none) := by
  cases m with
  | drain waited => exact absurd rfl (hm waited)
  | stop =>
      show (g, none) = ({ g with child := some c }, none)
      rw [← hchild]
  | _ => simp [GenericAdapter.step, GenericAdapter.poll, PlainChild.step, hchild]

/-- **A moment before the exit.** -/
theorem Passing.between (h : Passing started g c seen out) {m : Moment}
    (hm : ∀ waited, m ≠ .drain waited) :
    (g.step m).2 = none ∧ Passing started (g.step m).1 (c.step m) seen out := by
  rw [generic_step_child h.child hm]
  exact ⟨rfl, rfl, h.notYet, h.grown.trans (step_grows c m), h.count, h.given⟩

theorem generic_drain_eq (hchild : g.child = some c) (hopen : g.completed = false)
    (waited : Bool) : g.drain waited =
      (({ g with pendingStarted := none }.drainChild (c.wait waited)).1,
        g.pendingStarted.toList ++
          ({ g with pendingStarted := none }.drainChild (c.wait waited)).2) := by
  simp only [GenericAdapter.drain, hopen, hchild]

/-- Of a longer list, what is behind the lines that have been counted. -/
theorem given_more {before lines : List String} (hout : out ++ g.pendingStarted.toList =
    started :: before.map lineEvent) (hlines : before <+: lines) :
    out ++ (g.pendingStarted.toList ++ (lines.drop before.length).map lineEvent) =
      started :: lines.map lineEvent := by
  obtain ⟨more, rfl⟩ := hlines
  rw [List.drop_left, ← List.append_assoc, hout, List.map_append, List.cons_append]

/-- **A drain that does not see the exit.** -/
theorem Passing.step (h : Passing started g c seen out) {waited : Bool}
    (hrunning : (c.wait waited).exitCode = none) :
    Passing started (g.drain waited).1 (c.wait waited) (c.wait waited).stdout.buf
      (out ++ (g.drain waited).2) := by
  have hbuf : (c.wait waited).stdout = c.stdout := (wait_streams c waited).1
  have hmono := completeLines_mono h.grown
  have hupTo := emitUpTo_running c.stdout.buf hmono.length_le
  have hlines : (((textLines (fromUtf8Lossy c.stdout.buf)).take
      (completeLines c.stdout.buf).length).drop
        (min (completeLines seen).length (completeLines c.stdout.buf).length)) =
      (completeLines c.stdout.buf).drop (completeLines seen).length := by
    rw [textLines_decoded, List.take_left, Nat.min_eq_left hmono.length_le]
  rw [generic_drain_eq h.child h.notYet]
  refine ⟨rfl, ?_, ?_, ?_, ?_⟩
  · simp [GenericAdapter.drainChild, hrunning, h.notYet]
  · exact List.prefix_rfl
  · simp [GenericAdapter.drainChild, hrunning, hbuf, h.count, hupTo]
  · have hgiven := given_more h.given hmono
    simp only [GenericAdapter.drainChild, hrunning, hbuf, h.count, Option.isSome_none, hupTo,
      hlines, Option.map_none, Option.getD_none, List.append_nil, Option.toList_none]
    exact hgiven

/-- **The drain that sees the exit.** -/
theorem Passing.exit (h : Passing started g c seen out) {waited : Bool} {code : UInt32}
    (hexit : (c.wait waited).exitCode = some code) :
    (g.drain waited).1.completed = true ∧ (g.drain waited).1.pendingStarted = none ∧
      out ++ (g.drain waited).2 =
        started :: (textLines (fromUtf8Lossy c.stdout.buf)).map lineEvent ++
          exitEvents c.stderr.buf code := by
  have hout : (c.wait waited).stdout = c.stdout := (wait_streams c waited).1
  have herr : (c.wait waited).stderr = c.stderr := (wait_streams c waited).2
  have hmono : completeLines seen <+: textLines (fromUtf8Lossy c.stdout.buf) := by
    rw [textLines_decoded]
    exact (completeLines_mono h.grown).trans (List.prefix_append _ _)
  have hupTo := emitUpTo_exited c.stdout.buf (completeLines seen).length
  have hgiven := given_more h.given hmono
  rw [generic_drain_eq h.child h.notYet]
  refine ⟨?_, rfl, ?_⟩
  · simp [GenericAdapter.drainChild, hexit]
  · have hstart := Nat.min_eq_left hmono.length_le
    simp only [GenericAdapter.drainChild, hexit, hout, herr, h.count, Option.isSome_some, hupTo,
      List.take_length, hstart, Option.map_some, Option.getD_some]
    rw [← List.append_assoc, ← List.append_assoc, ← hgiven, List.append_assoc out]

/-- A completed adapter gives nothing any more. -/
theorem completed_drains (later : List Moment) : ∀ g : GenericAdapter, g.completed = true →
    g.pendingStarted = none → ∀ events ∈ g.drains later, events = [] := by
  induction later with
  | nil => exact fun g _ _ events h => absurd h List.not_mem_nil
  | cons m later ih =>
      intro g hdone hpending events hmem
      have hstep : (g.step m).1.completed = true ∧ (g.step m).1.pendingStarted = none ∧
          ∀ given, (g.step m).2 = some given → given = [] := by
        cases m with
        | drain waited => simp [GenericAdapter.step, GenericAdapter.drain, hdone, hpending]
        | _ => simp [GenericAdapter.step, GenericAdapter.stop, GenericAdapter.poll, hdone, hpending]
      rw [GenericAdapter.drains, List.mem_append, Option.mem_toList] at hmem
      cases hmem with
      | inl hnow => exact hstep.2.2 events hnow
      | inr hrest => exact ih _ hstep.1 hstep.2.1 events hrest

theorem Passing.run (us : List Moment) : ∀ {g : GenericAdapter} {c : PlainChild} {seen : Bytes}
    {out : List ProviderEvent}, Passing started g c seen out →
    (∀ look ∈ c.looks us, look.exitCode = none) →
    ∃ seen', Passing started (g.after us) (c.after us) seen' (out ++ (g.drains us).flatten) := by
  induction us with
  | nil =>
      intro g c seen out h _
      rw [GenericAdapter.drains, List.flatten_nil, List.append_nil]
      exact ⟨seen, h⟩
  | cons m us ih =>
      intro g c seen out h hlooks
      cases drain_or m with
      | inl hdrain =>
          obtain ⟨waited, rfl⟩ := hdrain
          have hnow := hlooks (c.wait waited) List.mem_cons_self
          have hlater := ih (h.step hnow) fun look hmem =>
            hlooks look (List.mem_cons_of_mem _ hmem)
          rw [List.append_assoc] at hlater
          exact hlater
      | inr hm =>
          have hstep := h.between hm
          rw [looks_between us hm] at hlooks
          have hlater := ih hstep.2 hlooks
          rw [GenericAdapter.drains, hstep.1]
          exact hlater

theorem generic_drains_append (us vs : List Moment) : ∀ g : GenericAdapter,
    g.drains (us ++ vs) = g.drains us ++ (g.after us).drains vs := by
  induction us with
  | nil => exact fun g => rfl
  | cons u us ih =>
      intro g
      show (g.step u).2.toList ++ (g.step u).1.drains (us ++ vs) = _
      rw [ih, ← List.append_assoc]
      rfl

end

/-- **The generic adapter's drains.** Of a command that has been started, the
drains up to the first that sees the exit give the event of the start, the lines
of the capture which that drain finds, and the events of the exit; all further
drains give nothing. -/
theorem generic_drain (g : GenericAdapter) (argv : List String) (hargv : argv ≠ [])
    (outputCapBytes : Nat) (us later : List Moment) (waited : Bool) (code : UInt32)
    (hopen : ∀ look ∈ (newChild (max 1 (min outputCapBytes maxOutputCap))).looks us,
      look.exitCode = none)
    (hexit : (((newChild (max 1 (min outputCapBytes maxOutputCap))).after us).wait
      waited).exitCode = some code) :
    let child := (newChild (max 1 (min outputCapBytes maxOutputCap))).after us
    let spawned := (g.spawn false argv outputCapBytes (.ok ())).1
    (spawned.drains (us ++ [.drain waited])).flatten =
        startedEvent argv :: (textLines (fromUtf8Lossy child.stdout.buf)).map lineEvent ++
          exitEvents child.stderr.buf code ∧
      ∀ events ∈ (spawned.after (us ++ [.drain waited])).drains later, events = [] := by
  intro child spawned
  have hspawned : spawned = ⟨some (newChild (max 1 (min outputCapBytes maxOutputCap))),
      some (startedEvent argv), 0, false⟩ := by
    simp [spawned, GenericAdapter.spawn, PlainChild.spawn, Plain.commandLine, hargv, newChild]
  have hstart : Passing (startedEvent argv) spawned
      (newChild (max 1 (min outputCapBytes maxOutputCap))) [] [] := by
    rw [hspawned]
    exact ⟨rfl, rfl, List.nil_prefix, rfl, rfl⟩
  obtain ⟨seen, hrun⟩ := hstart.run us hopen
  rw [List.nil_append] at hrun
  have hlast := hrun.exit hexit
  have hafter : spawned.after (us ++ [.drain waited]) = ((spawned.after us).drain waited).1 := by
    rw [GenericAdapter.after, List.foldl_append]
    rfl
  constructor
  · rw [generic_drains_append, List.flatten_append, ← hlast.2.2]
    simp [GenericAdapter.drains, GenericAdapter.step]
  · rw [hafter]
    exact completed_drains later _ hlast.1 hlast.2.1

/-- A line cut between its carriage return and its newline, and a last line cut
inside a character. -/
theorem generic_drain_sample :
    let us : List Moment := [.stdout [97, 13], .drain true, .stdout [10, 195], .drain true,
      .stdout [169], .stderr [33], .ends 3]
    let spawned := (GenericAdapter.spawn {} false ["cmd"] 1024 (.ok ())).1
    (spawned.drains (us ++ [.drain true])).flatten =
        [⟨.commandStarted, "started: cmd", none⟩, ⟨.unspecified, "a", none⟩,
          ⟨.unspecified, "é", none⟩, ⟨.errorOccurred, "!", none⟩,
          ⟨.commandCompleted, "completed with exit code 3", none⟩] ∧
      ∀ events ∈ (spawned.after (us ++ [.drain true])).drains [.drain true], events = [] := by
  intro us spawned
  have h := generic_drain {} ["cmd"] (by decide) 1024 us [.drain true] true 3
    (by decide) (by decide)
  exact ⟨h.1.trans (by decide), h.2⟩

end Calcar.Agent
