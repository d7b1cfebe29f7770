import Calcar.Verified.GenericDrain

/-!
# Spawns that fail

What an adapter shows of itself when a spawn has failed, against what it would
show had nobody tried.  The generic adapter touches its state when the child is
there, and not before.  The line adapters clear theirs first: a child that has
ended is given up for one that does not come.

## Main results

* `Adapter.Reachable.childless` — an adapter without child is a fresh one.
* `failed_spawn_unnoticed_iff` — when a failed spawn cannot be noticed.
-/

namespace Calcar.Agent

/-- `ProviderAdapter`. -/
inductive Adapter where
  | line (k : LineAdapter) (a : AdapterState)
  | generic (g : GenericAdapter)
  deriving DecidableEq, Repr

/-- `SpawnRequest`, as far as it decides about the spawn. -/
structure SpawnRequest where
  interactive : Bool := false
  argv : List String
  outputCapBytes : Nat
  deriving DecidableEq, Repr

/-- `spawn`: `waited` is the poll of the child that is there, `started` what the
operating system makes of the new one. -/
def Adapter.spawn (req : SpawnRequest) (waited : Bool) (started : Except PtyError Unit) :
    Adapter → Adapter × Except AdapterError Unit
  | .line k a =>
      let done := a.spawn req.interactive req.argv req.outputCapBytes waited
        (started.mapError PtyError.text)
      (.line k done.1, done.2)
  | .generic g =>
      let done := g.spawn req.interactive req.argv req.outputCapBytes started
      (.generic done.1, done.2)

/-- `snapshot`. -/
def Adapter.snapshot (waited : Bool) : Adapter → AdapterSnapshot
  | .line _ a => a.snapshot waited
  | .generic g => g.snapshot waited

/-- What happens to an adapter. -/
inductive AdapterAction where
  | moment (m : Moment)
  | spawn (req : SpawnRequest) (waited : Bool) (started : Except PtyError Unit)

/-- The adapter after an action, and what a drain returns. -/
def Adapter.act : Adapter → AdapterAction → Adapter × Option (List ProviderEvent)
  | .line k a, .moment m => (.line k (a.step k m).1, (a.step k m).2.map Drained.events)
  | .generic g, .moment m => (.generic (g.step m).1, (g.step m).2)
  | ad, .spawn req waited started => ((ad.spawn req waited started).1, none)

/-- What the drains of a run return. -/
def Adapter.drains : Adapter → List AdapterAction → List (List ProviderEvent)
  | _, [] => []
  | ad, x :: xs => (ad.act x).2.toList ++ Adapter.drains (ad.act x).1 xs

/-- The adapter after a run. -/
def Adapter.after (ad : Adapter) (xs : List AdapterAction) : Adapter :=
  xs.foldl (fun ad x => (ad.act x).1) ad

/-- The states of the adapters. -/
inductive Adapter.Reachable : Adapter → Prop where
  | line (k : LineAdapter) : Reachable (.line k {})
  | generic : Reachable (.generic {})
  | act {ad : Adapter} (x : AdapterAction) : Reachable ad → Reachable (ad.act x).1

/-- Nothing tells the one adapter from the other, now or at any later drain. -/
structure Unnoticed (before after : Adapter) : Prop where
  snapshot : ∀ waited, after.snapshot waited = before.snapshot waited
  drains : ∀ later, after.drains later = before.drains later

/-- The request gets as far as the child of a line adapter, and that child has
ended. -/
def ReplacesChild (req : SpawnRequest) (waited : Bool) : Adapter → Prop
  | .line _ a => req.interactive = false ∧ req.argv ≠ [] ∧
      ∃ child, a.child = some child ∧ (child.wait waited).exitCode ≠ none
  | .generic _ => False

section

theorem Unnoticed.of_eq {before after : Adapter} (h : after = before) : Unnoticed before after := by
  subst h
  exact ⟨fun _ => rfl, fun _ => rfl⟩

/-- A poll that finds no exit changes nothing. -/
theorem wait_running {c : PlainChild} {waited : Bool} (h : (c.wait waited).exitCode = none) :
    c.wait waited = c := by
  unfold PlainChild.wait at h ⊢
  cases hcode : c.exitCode with
  | some code => rfl
  | none =>
      cases waited with
      | false => rfl
      | true =>
          rw [hcode] at h
          have hended : c.ended = none := h
          cases c
          simp_all

/-! ## Adapters without a child -/

/-- A line adapter without child has nothing else. -/
def Childless : Adapter → Prop
  | .line _ a => a.child = none → a = {}
  | .generic _ => True

theorem step_childless (k : LineAdapter) {a : AdapterState} (h : a.child = none → a = {})
    (m : Moment) : (a.step k m).1.child = none → (a.step k m).1 = {} := by
  intro hnone
  cases hchild : a.child with
  | none =>
      rw [h hchild]
      cases m with
      | _ => rfl
  | some child =>
      exfalso
      cases m with
      | drain waited => simp [AdapterState.step, AdapterState.drain, AdapterState.drainChild,
          hchild] at hnone
      | stop => simp [AdapterState.step, AdapterState.stop, hchild] at hnone
      | _ => simp [AdapterState.step, AdapterState.poll, hchild] at hnone

/-- What a spawn of a line adapter can come to: it is refused before anything is
touched, the state is cleared and no child comes, or a child comes. -/
theorem line_spawn_cases (k : LineAdapter) (a : AdapterState) (req : SpawnRequest) (waited : Bool)
    (started : Except String Unit) :
    let done := a.spawn req.interactive req.argv req.outputCapBytes waited started
    (done.1 = a ∧ ¬ReplacesChild req waited (.line k a)) ∨
      (done.1 = {} ∧ (a.child = none ∨ ReplacesChild req waited (.line k a))) ∨
      (done.1.child ≠ none ∧ done.2 = .ok ()) := by
  intro done
  by_cases hinteractive : req.interactive = true
  · left
    have hdone : done = (a, .error .unsupported) := by
      simp [done, AdapterState.spawn, hinteractive]
    rw [hdone]
    exact ⟨rfl, fun h => by simp [h.1] at hinteractive⟩
  by_cases hargv : req.argv = []
  · left
    have hdone : done = (a, .error (.spawnFailed "argv is empty")) := by
      simp [done, AdapterState.spawn, hinteractive, hargv]
    rw [hdone]
    exact ⟨rfl, fun h => h.2.1 hargv⟩
  by_cases hrunning : ∃ child, a.child = some child ∧ (child.wait waited).exitCode = none
  · left
    obtain ⟨child, hchild, hcode⟩ := hrunning
    have hpolled : a.poll waited = a := by
      unfold AdapterState.poll
      rw [hchild, Option.map_some, wait_running hcode, ← hchild]
    have hdone : done = (a, .error (.spawnFailed "already running")) := by
      have hopen : child.exitCode = none := by rwa [wait_running hcode] at hcode
      simp [done, AdapterState.spawn, hinteractive, hargv, hpolled, hchild, hopen]
    rw [hdone]
    refine ⟨rfl, fun h => ?_⟩
    obtain ⟨other, hother, hended⟩ := h.2.2
    rw [hchild, Option.some.injEq] at hother
    exact hended (hother ▸ hcode)
  · -- the state is cleared, and the operating system decides
    right
    have hreplaces : a.child = none ∨ ReplacesChild req waited (.line k a) := by
      cases hchild : a.child with
      | none => exact .inl rfl
      | some child =>
          refine .inr ⟨by simpa using hinteractive, hargv, child, hchild, fun h => ?_⟩
          exact hrunning ⟨child, hchild, h⟩
    have hidle : ((a.poll waited).child.any fun child => child.exitCode.isNone) = false := by
      cases hchild : a.child with
      | none => simp [AdapterState.poll, hchild]
      | some child =>
          have hcode : (child.wait waited).exitCode ≠ none := fun h =>
            hrunning ⟨child, hchild, h⟩
          have hseen := Option.isSome_iff_ne_none.mpr hcode
          simp [AdapterState.poll, hchild, hseen]
    cases started with
    | error text =>
        left
        have hdone : done = ({}, .error (.spawnFailed text)) := by
          simp [done, AdapterState.spawn, hinteractive, hargv, hidle]
        rw [hdone]
        exact ⟨rfl, hreplaces⟩
    | ok u =>
        right
        constructor
        · simp [done, AdapterState.spawn, hinteractive, hargv, hidle]
        · simp [done, AdapterState.spawn, hinteractive, hargv, hidle]

/-- A generic adapter whose spawn fails is what it was. -/
theorem generic_spawn_failed (g : GenericAdapter) (req : SpawnRequest)
    (started : Except PtyError Unit)
    (h : (g.spawn req.interactive req.argv req.outputCapBytes started).2 ≠ .ok ()) :
    (g.spawn req.interactive req.argv req.outputCapBytes started).1 = g := by
  by_cases hinteractive : req.interactive = true
  · simp only [GenericAdapter.spawn, hinteractive, ↓reduceIte]
  · cases hspawn : PlainChild.spawn req.argv req.outputCapBytes started with
    | error e => simp only [GenericAdapter.spawn, hinteractive, hspawn, Bool.false_eq_true,
        ↓reduceIte]
    | ok child => simp [GenericAdapter.spawn, hinteractive, hspawn] at h

theorem Adapter.Reachable.after (xs : List AdapterAction) :
    ∀ {ad : Adapter}, ad.Reachable → (ad.after xs).Reachable := by
  induction xs with
  | nil => exact fun h => h
  | cons x xs ih => exact fun h => ih (h.act x)

/-- **An adapter without child is a fresh one.** -/
theorem Adapter.Reachable.childless {ad : Adapter} (h : ad.Reachable) : Childless ad := by
  induction h with
  | line k => exact fun _ => rfl
  | generic => trivial
  | @act ad x _ ih =>
      cases ad with
      | generic g =>
          cases x with
          | _ => trivial
      | line k a =>
          cases x with
          | moment m => exact step_childless k ih m
          | spawn req waited started =>
              intro hnone
              have hcases := line_spawn_cases k a req waited (started.mapError PtyError.text)
              rcases hcases with ⟨hsame, _⟩ | ⟨hfresh, _⟩ | ⟨hchild, _⟩
              · exact hsame.trans (ih (hsame ▸ hnone))
              · exact hfresh
              · exact absurd hnone hchild

end

/-- **A failed spawn cannot be noticed just when no ended child of a line adapter
was to be replaced.** -/
theorem failed_spawn_unnoticed_iff (ad : Adapter) (hreach : ad.Reachable) (req : SpawnRequest)
    (waited : Bool) (started : Except PtyError Unit)
    (hfailed : (ad.spawn req waited started).2 ≠ .ok ()) :
    Unnoticed ad (ad.spawn req waited started).1 ↔ ¬ReplacesChild req waited ad := by
  cases ad with
  | generic g =>
      have hsame := generic_spawn_failed g req started hfailed
      exact ⟨fun _ => id, fun _ => .of_eq (congrArg Adapter.generic hsame)⟩
  | line k a =>
      have hcases := line_spawn_cases k a req waited (started.mapError PtyError.text)
      rcases hcases with ⟨hsame, hnot⟩ | ⟨hfresh, hnone | hreplaces⟩ | ⟨_, hok⟩
      · exact ⟨fun _ => hnot, fun _ => .of_eq (congrArg (Adapter.line k) hsame)⟩
      · have hempty : a = {} := hreach.childless hnone
        have hnot : ¬ReplacesChild req waited (.line k a) := by
          rintro ⟨_, _, child, hchild, _⟩
          simp [hnone] at hchild
        exact ⟨fun _ => hnot,
          fun _ => .of_eq (congrArg (Adapter.line k) (hfresh.trans hempty.symm))⟩
      · -- the exit code of the child that was there is gone
        refine ⟨fun hunnoticed => ?_, fun hnot => absurd hreplaces hnot⟩
        obtain ⟨_, _, child, hchild, hcode⟩ := hreplaces
        have hsnapshot := congrArg AdapterSnapshot.exitCode (hunnoticed.snapshot waited)
        have hgone : ((Adapter.line k a).spawn req waited started).1 = .line k {} :=
          congrArg (Adapter.line k) hfresh
        rw [hgone] at hsnapshot
        simp only [Adapter.snapshot, AdapterState.snapshot, hchild] at hsnapshot
        exact absurd hsnapshot.symm hcode
      · exact absurd hok hfailed

/-- A child that has told its session and ended with code 7. -/
def endedChild : Adapter :=
  (Adapter.line .claude {}).after [.spawn ⟨false, ["claude"], 1024⟩ true (.ok ()),
    .moment (.stdout "CLAUDE_SESSION s1\n".toUTF8.toList), .moment (.ends 7),
    .moment (.drain true)]

theorem endedChild_reachable : endedChild.Reachable := .after _ (.line .claude)

/-- Its next command cannot be started. -/
theorem failed_spawn_noticed :
    ¬∀ ad : Adapter, ad.Reachable → ∀ (req : SpawnRequest) (waited : Bool)
      (started : Except PtyError Unit), (ad.spawn req waited started).2 ≠ .ok () →
        Unnoticed ad (ad.spawn req waited started).1 := by
  intro hall
  have hsame := hall endedChild endedChild_reachable ⟨false, ["gone"], 1024⟩ true
    (.error (.windows "CreateProcessW" "GetLastError=2")) (by decide)
  have hbefore : (endedChild.snapshot true).providerSessionId = some "s1" := by decide +kernel
  rw [← hsame.snapshot true] at hbefore
  exact absurd hbefore (by decide)

/-- A request without a command is refused before anything is touched. -/
theorem failed_spawn_unnoticed_sample :
    Unnoticed endedChild (endedChild.spawn ⟨false, [], 1024⟩ true (.ok ())).1 := by
  have hfailed : (endedChild.spawn ⟨false, [], 1024⟩ true (.ok ())).2 ≠ .ok () := by
    decide
  have hiff := failed_spawn_unnoticed_iff endedChild endedChild_reachable ⟨false, [], 1024⟩ true
    (.ok ()) hfailed
  exact hiff.mpr fun h => h.2.1 rfl

end Calcar.Agent
