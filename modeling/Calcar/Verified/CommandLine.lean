import Calcar.Agent.CommandLine
import Calcar.Lib.Argv
import Mathlib.Data.List.TakeWhile

/-!
# The command line is read back as it was meant

The quoting of an argument vector, and what the C runtime of the started program
makes of the line.  Both walk over the same characters: the writer keeps the
length of the run of backslashes behind it, and the reader has just that run not
yet counted in.

## Main results

* `quoteArg_escaped` — the writer's loop is the escaping of `Lib.Argv`.
* `scan_arguments`, `name_program` — the arguments and the program name.
* `command_line_round_trip` — the whole line.
-/

namespace Calcar.Agent

open Lib.Argv

/-- The arguments of a command line. -/
def runtimeSplit (line : String) : List String := (split line.toList).map String.ofList

/-- A program name that the rules for program names can give back: they know no escapes. -/
structure Nameable (program : String) : Prop where
  noQuote : '"' ∉ program.toList
  noSlash : program = "" ∨ ' ' ∈ program.toList ∨ '\t' ∈ program.toList →
    program.toList.getLast? ≠ some '\\'

/-- The program's argument vector can be passed at all: strings end at a NUL. -/
def Passable (argv : List String) : Prop := ∀ arg ∈ argv, '\x00' ∉ arg.toList

section

/-- **The writer's loop escapes.** -/
theorem foldl_quoteChar (arg : List Char) : ∀ (out : List Char) (n : Nat),
    (arg.foldl Pty.quoteChar (out, n)).1 ++
        List.replicate (arg.foldl Pty.quoteChar (out, n)).2 '\\' = out ++ escaped n arg := by
  induction arg with
  | nil => exact fun out n => rfl
  | cons c arg ih =>
      intro out n
      rw [List.foldl_cons]
      by_cases hslash : c = '\\'
      · rw [Pty.quoteChar, if_pos hslash, ih, escaped, if_pos hslash, hslash]
        simp
      · by_cases hquote : c = '"'
        · rw [Pty.quoteChar, if_neg hslash, if_pos hquote, ih, escaped, if_neg hslash,
            if_pos hquote]
          simp [slashes]
        · rw [Pty.quoteChar, if_neg hslash, if_neg hquote, ih, escaped, if_neg hslash,
            if_neg hquote]
          simp

theorem quoteArg_same {arg : String} (h : arg ≠ "" ∧ ¬needsQuotes arg.toList) :
    Pty.quoteArg arg = arg := by
  rw [Pty.quoteArg, if_pos h]

theorem quoteArg_escaped {arg : String} (h : ¬(arg ≠ "" ∧ ¬needsQuotes arg.toList)) :
    (Pty.quoteArg arg).toList = '"' :: (escaped 0 arg.toList ++ ['"']) := by
  rw [Pty.quoteArg, if_neg h, String.toList_ofList, foldl_quoteChar]
  rfl

/-- What is not quoted has neither blanks nor quotes. -/
theorem plain_of_same {arg : List Char} (h : ¬needsQuotes arg) : ∀ c ∈ arg, Plain c := by
  intro c hc
  simp [needsQuotes] at h
  have hother := h c hc
  refine ⟨hother.2, ?_⟩
  simp [isBlank, hother.1]

theorem toList_ne_nil {arg : String} (h : arg ≠ "") : arg.toList ≠ [] := by
  simpa using h

/-- The arguments behind the program name, each behind a blank. -/
def tailText : List String → List Char
  | [] => []
  | arg :: args => ' ' :: ((Pty.quoteArg arg).toList ++ tailText args)

theorem ends_tailText (args : List String) : Ends (tailText args) := by
  cases args with
  | nil => trivial
  | cons arg args => rfl

theorem toList_commandLine (program : String) (args : List String) :
    (" ".intercalate ((program :: args).map Pty.quoteArg)).toList =
      (Pty.quoteArg program).toList ++ tailText args := by
  induction args generalizing program with
  | nil => simp [tailText]
  | cons arg args ih =>
      have hrest := ih arg
      rw [List.map_cons] at hrest
      rw [List.map_cons, List.map_cons, String.intercalate_cons_cons, String.toList_append,
        String.toList_append, hrest]
      simp [tailText]

/-- **The arguments are read back.** -/
theorem scan_arguments (args : List String) :
    scan .bare 0 none (behind (tailText args)) = args.map String.toList := by
  induction args with
  | nil => rfl
  | cons arg args ih =>
      have hends := ends_tailText args
      rw [List.map_cons, ← ih, tailText, behind]
      by_cases h : arg ≠ "" ∧ ¬needsQuotes arg.toList
      · rw [quoteArg_same h]
        exact scan_plain hends (toList_ne_nil h.1) (plain_of_same h.2)
      · rw [quoteArg_escaped h, List.cons_append, List.append_assoc]
        exact scan_escaped hends arg.toList

/-- **The program name is read back.** -/
theorem name_program {program : String} (hname : Nameable program) (args : List String) :
    name false ((Pty.quoteArg program).toList ++ tailText args) =
      (program.toList, behind (tailText args)) := by
  have hends := ends_tailText args
  by_cases h : program ≠ "" ∧ ¬needsQuotes program.toList
  · rw [quoteArg_same h]
    exact name_plain hends program.toList (plain_of_same h.2)
  · have hquote : ∀ c ∈ program.toList, c ≠ '"' := by
      rintro c hc rfl
      exact hname.noQuote hc
    have hlast : program.toList.getLast? ≠ some '\\' := by
      apply hname.noSlash
      by_cases hempty : program = ""
      · exact .inl hempty
      · have hneeds : needsQuotes program.toList = true := by
          simpa [hempty] using h
        simp [needsQuotes] at hneeds
        obtain ⟨c, hc, hkind⟩ := hneeds
        simp only [hquote c hc, or_false] at hkind
        cases hkind with
        | inl hspace => exact .inr (.inl (hspace ▸ hc))
        | inr htab => exact .inr (.inr (htab ▸ hc))
    rw [quoteArg_escaped h, List.cons_append, List.append_assoc]
    exact name_quoted hends hquote hlast

theorem escaped_mem {c : Char} (text : List Char) :
    ∀ n, c ∈ escaped n text → c = '\\' ∨ c = '"' ∨ c ∈ text := by
  induction text with
  | nil =>
      intro n hc
      exact .inl (List.eq_of_mem_replicate hc)
  | cons d text ih =>
      intro n hc
      by_cases hslash : d = '\\'
      · rw [escaped, if_pos hslash, List.mem_cons] at hc
        grind
      · by_cases hquote : d = '"'
        · rw [escaped, if_neg hslash, if_pos hquote, List.mem_append, List.mem_cons,
            List.mem_cons] at hc
          have hrun : c ∈ slashes n → c = '\\' := List.eq_of_mem_replicate
          grind
        · rw [escaped, if_neg hslash, if_neg hquote, List.mem_cons] at hc
          grind

/-- Quoting adds no NUL. -/
theorem quoteArg_noNul {arg : String} (h : '\x00' ∉ arg.toList) :
    '\x00' ∉ (Pty.quoteArg arg).toList := by
  by_cases hsame : arg ≠ "" ∧ ¬needsQuotes arg.toList
  · rwa [quoteArg_same hsame]
  · rw [quoteArg_escaped hsame]
    intro hmem
    have hinside : '\x00' ∈ escaped 0 arg.toList := by simpa using hmem
    have hkind := escaped_mem arg.toList 0 hinside
    simp [h] at hkind

theorem tailText_noNul {args : List String} (h : Passable args) : '\x00' ∉ tailText args := by
  induction args with
  | nil => simp [tailText]
  | cons arg args ih =>
      have hfirst := quoteArg_noNul (h arg List.mem_cons_self)
      have hrest := ih fun x hx => h x (List.mem_cons_of_mem arg hx)
      simp [tailText, hfirst, hrest]

/-- A text without a NUL is read to its end. -/
theorem split_noNul {line : List Char} (h : '\x00' ∉ line) :
    split line = (name false line).1 :: scan .bare 0 none (name false line).2 := by
  have hall : ∀ c ∈ line, (c != '\x00') = true := by
    intro c hc
    simp only [bne_iff_ne, ne_eq]
    rintro rfl
    exact h hc
  rw [split, List.takeWhile_eq_self_iff.mpr hall]

theorem quoteArg_copies (arg : String) : Pty.quoteArg arg = Plain.quoteArg arg := by
  have hchar : Pty.quoteChar = Plain.quoteChar := by
    funext state ch
    rfl
  rw [Pty.quoteArg, Plain.quoteArg, hchar]

end

/-- **The two copies agree, and the runtime gives the argument vector back.** -/
theorem command_line_round_trip :
    (∀ arg, Pty.quoteArg arg = Plain.quoteArg arg) ∧
      (∀ argv, Pty.commandLine argv = Plain.commandLine argv) ∧
      ∀ program args, Passable (program :: args) → Nameable program →
        ∃ line, Pty.commandLine (program :: args) = .ok line ∧
          runtimeSplit line = program :: args := by
  refine ⟨quoteArg_copies, fun argv => ?_, fun program args hpass hname => ?_⟩
  · rw [Pty.commandLine, Plain.commandLine, funext quoteArg_copies]
  · refine ⟨_, if_neg (List.cons_ne_nil program args), ?_⟩
    have hnul : '\x00' ∉ (Pty.quoteArg program).toList ++ tailText args := by
      rw [List.mem_append]
      intro hmem
      cases hmem with
      | inl h => exact quoteArg_noNul (hpass program List.mem_cons_self) h
      | inr h => exact tailText_noNul (fun x hx => hpass x (List.mem_cons_of_mem _ hx)) h
    rw [runtimeSplit, toList_commandLine, split_noNul hnul, name_program hname, scan_arguments]
    simp

/-- A name with a blank, an empty argument, and runs of backslashes before a
quote and at the end. -/
theorem command_line_sample :
    ∃ line, Pty.commandLine ["my tool", "", "a\\\\\"b c\\", "\\\\x"] = .ok line ∧
      runtimeSplit line = ["my tool", "", "a\\\\\"b c\\", "\\\\x"] :=
  command_line_round_trip.2.2 "my tool" ["", "a\\\\\"b c\\", "\\\\x"]
    (by unfold Passable; decide) ⟨by decide, fun _ => by decide⟩

end Calcar.Agent
