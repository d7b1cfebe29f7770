import Mathlib.Data.List.Basic

/-!
# Command lines of the Microsoft C runtime

How the C runtime takes a command line apart.  The program name is read with
quotes but without escapes.  In the arguments behind it a backslash is literal
unless a double quote follows its run: of a run one half is kept, and the quote
is literal if the run was odd.  Quotes that are not literal open and close a
part in which blanks do not count, and in which two quotes are a literal one.

## Main results

* `scan_plain`, `scan_escaped` — an argument that needs no quotes, and one
  whose quotes and backslashes are escaped.
* `name_plain`, `name_quoted` — the same for the program name.
-/

namespace Calcar.Lib.Argv

/-- The blanks between arguments. -/
def isBlank (c : Char) : Bool := c == ' ' || c == '\t'

/-- A run of backslashes. -/
def slashes (n : Nat) : List Char := List.replicate n '\\'

/-- Outside quotes, inside, and behind a quote that closes unless another one
follows. -/
inductive Mode where
  | bare
  | quoted
  | closing
  deriving DecidableEq, Repr

/-- A quote that is not escaped: what it adds, and the mode behind it. -/
def Mode.quote : Mode → List Char × Mode
  | bare => ([], quoted)
  | quoted => ([], closing)
  | closing => (['"'], quoted)

/-- Behind any other character the part is closed. -/
def Mode.settle : Mode → Mode
  | quoted => quoted
  | _ => bare

/-- The arguments behind the program name: `n` backslashes have been met but
are not yet in `arg`, what there is of the current argument. -/
def scan : Mode → Nat → Option (List Char) → List Char → List (List Char)
  | _, n, arg, [] => (arg.map fun a => a ++ slashes n).toList
  | mode, n, arg, c :: rest =>
      if c = '\\' then scan mode.settle (n + 1) (some (arg.getD [])) rest
      else if c = '"' then
        if n % 2 = 1 then scan mode.settle 0 (some (arg.getD [] ++ slashes (n / 2) ++ ['"'])) rest
        else scan mode.quote.2 0 (some (arg.getD [] ++ slashes (n / 2) ++ mode.quote.1)) rest
      else if mode.settle = .bare ∧ isBlank c then
        (arg.map fun a => a ++ slashes n).toList ++ scan .bare 0 none rest
      else scan mode.settle 0 (some (arg.getD [] ++ slashes n ++ [c])) rest

/-- The program name, and the text behind the blank that ends it. -/
def name : Bool → List Char → List Char × List Char
  | _, [] => ([], [])
  | quoted, c :: rest =>
      if c = '"' then name (!quoted) rest
      else if !quoted && isBlank c then ([], rest)
      else (c :: (name quoted rest).1, (name quoted rest).2)

attribute [grind =] scan name

/-- The arguments of a command line, which ends at its first NUL. -/
def split (line : List Char) : List (List Char) :=
  let text := line.takeWhile fun c => c != '\x00'
  (name false text).1 :: scan .bare 0 none (name false text).2

/-- The text that is left ends the argument before it. -/
def Ends : List Char → Prop
  | [] => True
  | c :: _ => isBlank c = true

/-- What is behind the blank that ended an argument. -/
def behind : List Char → List Char
  | [] => []
  | _ :: rest => rest

/-- A character that means nothing outside quotes. -/
def Plain (c : Char) : Prop := c ≠ '"' ∧ isBlank c = false

section

variable {tail : List Char}

theorem scan_slash {mode : Mode} (hmode : mode.settle = mode) (n : Nat) (a rest : List Char) :
    scan mode n (some a) ('\\' :: rest) = scan mode (n + 1) (some a) rest := by
  rw [scan, if_pos rfl, Option.getD_some, hmode]

theorem scan_slashes {mode : Mode} (hmode : mode.settle = mode) (k : Nat) (a rest : List Char) :
    ∀ n, scan mode n (some a) (slashes k ++ rest) = scan mode (n + k) (some a) rest := by
  induction k with
  | zero => exact fun n => rfl
  | succ k ih =>
      intro n
      rw [slashes, List.replicate_succ, List.cons_append, scan_slash hmode]
      rw [show n + (k + 1) = n + 1 + k by omega]
      exact ih (n + 1)

/-- A character that is neither a backslash nor a quote, where blanks do not count. -/
theorem scan_other {mode : Mode} (hmode : mode.settle = mode) {c : Char} (hslash : c ≠ '\\')
    (hquote : c ≠ '"') (hblank : mode = .quoted ∨ isBlank c = false) (n : Nat)
    (a rest : List Char) :
    scan mode n (some a) (c :: rest) = scan mode 0 (some (a ++ slashes n ++ [c])) rest := by
  have hstays : ¬(mode.settle = .bare ∧ isBlank c = true) := by
    cases hblank with
    | inl h => rw [h]; simp [Mode.settle]
    | inr h => simp [h]
  rw [scan, if_neg hslash, if_neg hquote, if_neg hstays, Option.getD_some, hmode]

/-- A quote behind an odd run of backslashes is literal. -/
theorem scan_literal {mode : Mode} (hmode : mode.settle = mode) (n : Nat) (a rest : List Char) :
    scan mode (n + n + 1) (some a) ('"' :: rest) =
      scan mode 0 (some (a ++ slashes n ++ ['"'])) rest := by
  have hodd : (n + n + 1) % 2 = 1 := by omega
  have hhalf : (n + n + 1) / 2 = n := by omega
  rw [scan, if_neg (by decide), if_pos rfl, if_pos hodd, hhalf, Option.getD_some, hmode]

/-- A quote opens a part. -/
theorem scan_open (rest : List Char) :
    scan .bare 0 none ('"' :: rest) = scan .quoted 0 (some []) rest := by
  rw [scan, if_neg (by decide), if_pos rfl, if_neg (by decide)]
  rfl

/-- Behind a quote the argument is ended just as without it. -/
theorem scan_closing (htail : Ends tail) (n : Nat) (a : List Char) :
    scan .closing n (some a) tail = scan .bare n (some a) tail := by
  cases tail with
  | nil => rfl
  | cons c rest =>
      have hquote : c ≠ '"' := by
        rintro rfl
        exact absurd htail (by simp [Ends, isBlank])
      simp only [scan, if_neg hquote, Mode.settle]

/-- A quote behind an even run of backslashes closes the part it ends. -/
theorem scan_close (htail : Ends tail) (n : Nat) (a : List Char) :
    scan .quoted (n + n) (some a) ('"' :: tail) =
      scan .bare 0 (some (a ++ slashes n)) tail := by
  have heven : ¬(n + n) % 2 = 1 := by omega
  have hhalf : (n + n) / 2 = n := by omega
  rw [scan, if_neg (by decide), if_pos rfl, if_neg heven, hhalf, Option.getD_some,
    ← scan_closing htail]
  simp [Mode.quote]

/-- An argument is ended by the text behind it. -/
theorem scan_ends (htail : Ends tail) (n : Nat) (a : List Char) :
    scan .bare n (some a) tail = (a ++ slashes n) :: scan .bare 0 none (behind tail) := by
  cases tail with
  | nil => rfl
  | cons c rest =>
      have hblank : isBlank c = true := htail
      have hslash : c ≠ '\\' := by
        rintro rfl
        exact absurd hblank (by decide)
      have hquote : c ≠ '"' := by
        rintro rfl
        exact absurd hblank (by decide)
      rw [scan, if_neg hslash, if_neg hquote, if_pos ⟨rfl, hblank⟩]
      rfl

theorem scan_plain_from (htail : Ends tail) (text : List Char) (hplain : ∀ c ∈ text, Plain c) :
    ∀ (n : Nat) (a : List Char), scan .bare n (some a) (text ++ tail) =
      (a ++ slashes n ++ text) :: scan .bare 0 none (behind tail) := by
  induction text with
  | nil =>
      intro n a
      rw [List.nil_append, scan_ends htail, List.append_nil]
  | cons c text ih =>
      intro n a
      have hrest : ∀ x ∈ text, Plain x := fun x hx => hplain x (List.mem_cons_of_mem c hx)
      have hc := hplain c List.mem_cons_self
      rw [List.cons_append]
      by_cases hslash : c = '\\'
      · subst hslash
        rw [scan_slash rfl, ih hrest]
        simp [slashes, List.replicate_succ']
      · rw [scan_other rfl hslash hc.1 (.inr hc.2), ih hrest]
        simp [slashes]

/-- **An argument that needs no quotes is read as it is.** -/
theorem scan_plain (htail : Ends tail) {text : List Char} (hne : text ≠ [])
    (hplain : ∀ c ∈ text, Plain c) :
    scan .bare 0 none (text ++ tail) = text :: scan .bare 0 none (behind tail) := by
  cases text with
  | nil => exact absurd rfl hne
  | cons c text =>
      have hc := hplain c List.mem_cons_self
      have hstart : scan .bare 0 none (c :: (text ++ tail)) =
          scan .bare 0 (some []) (c :: (text ++ tail)) := by
        simp [scan, hc.2]
      rw [List.cons_append, hstart, ← List.cons_append, scan_plain_from htail _ hplain]
      rfl

/-- A text with its quotes and the backslashes before quotes escaped, and those
before its end, when `n` backslashes have been written before it. -/
def escaped : Nat → List Char → List Char
  | n, [] => slashes n
  | n, c :: rest =>
      if c = '\\' then '\\' :: escaped (n + 1) rest
      else if c = '"' then slashes n ++ '\\' :: '"' :: escaped 0 rest
      else c :: escaped 0 rest

theorem scan_escaped_from (htail : Ends tail) (text : List Char) :
    ∀ (n : Nat) (a : List Char), scan .quoted n (some a) (escaped n text ++ '"' :: tail) =
      (a ++ slashes n ++ text) :: scan .bare 0 none (behind tail) := by
  induction text with
  | nil =>
      intro n a
      rw [escaped, scan_slashes rfl, scan_close htail, scan_ends htail]
      simp [slashes]
  | cons c text ih =>
      intro n a
      by_cases hslash : c = '\\'
      · subst hslash
        rw [escaped, if_pos rfl, List.cons_append, scan_slash rfl, ih]
        simp [slashes, List.replicate_succ']
      · by_cases hquote : c = '"'
        · -- the run before the quote is written twice, and one more backslash
          subst hquote
          rw [escaped, if_neg hslash, if_pos rfl, List.append_assoc, scan_slashes rfl,
            List.cons_append, scan_slash rfl, List.cons_append, scan_literal rfl, ih]
          simp [slashes]
        · rw [escaped, if_neg hslash, if_neg hquote, List.cons_append,
            scan_other rfl hslash hquote (.inl rfl), ih]
          simp [slashes]

/-- **An escaped argument is read back.** -/
theorem scan_escaped (htail : Ends tail) (text : List Char) :
    scan .bare 0 none ('"' :: (escaped 0 text ++ '"' :: tail)) =
      text :: scan .bare 0 none (behind tail) := by
  rw [scan_open, scan_escaped_from htail]
  simp [slashes]

/-- A program name is ended by the text behind it. -/
theorem name_ends (htail : Ends tail) : name false tail = ([], behind tail) := by
  cases tail with
  | nil => rfl
  | cons c rest =>
      have hblank : isBlank c = true := htail
      have hquote : c ≠ '"' := by
        rintro rfl
        exact absurd hblank (by decide)
      rw [name, if_neg hquote, hblank]
      rfl

/-- **A program name that needs no quotes.** -/
theorem name_plain (htail : Ends tail) (text : List Char) (hplain : ∀ c ∈ text, Plain c) :
    name false (text ++ tail) = (text, behind tail) := by
  induction text with
  | nil => exact name_ends htail
  | cons c text ih =>
      have hc := hplain c List.mem_cons_self
      rw [List.cons_append, name, if_neg hc.1, hc.2,
        ih fun x hx => hplain x (List.mem_cons_of_mem c hx)]
      rfl

theorem name_quoted_from (htail : Ends tail) (text : List Char) (hquote : ∀ c ∈ text, c ≠ '"') :
    name true (text ++ '"' :: tail) = (text, behind tail) := by
  induction text with
  | nil =>
      rw [List.nil_append, name, if_pos rfl]
      exact name_ends htail
  | cons c text ih =>
      rw [List.cons_append, name, if_neg (hquote c List.mem_cons_self),
        ih fun x hx => hquote x (List.mem_cons_of_mem c hx)]
      rfl

/-- Nothing is escaped in a text without quotes that does not end in a backslash. -/
theorem escaped_same (text : List Char) (hquote : ∀ c ∈ text, c ≠ '"')
    (hlast : text.getLast? ≠ some '\\') : ∀ n, (text = [] → n = 0) → escaped n text = text := by
  induction text with
  | nil =>
      intro n hn
      rw [hn rfl]
      rfl
  | cons c text ih =>
      intro n _
      have hrest : ∀ x ∈ text, x ≠ '"' := fun x hx => hquote x (List.mem_cons_of_mem c hx)
      by_cases hslash : c = '\\'
      · have hne : text ≠ [] := by
          rintro rfl
          exact hlast (by rw [hslash]; rfl)
        have hlast' : text.getLast? ≠ some '\\' := by
          rwa [List.getLast?_cons_of_ne_nil hne] at hlast
        rw [escaped, if_pos hslash, ih hrest hlast' (n + 1) fun h => absurd h hne, hslash]
      · have hlast' : text.getLast? ≠ some '\\' := by
          cases text with
          | nil => simp
          | cons d text => rwa [List.getLast?_cons_cons] at hlast
        rw [escaped, if_neg hslash, if_neg (hquote c List.mem_cons_self),
          ih hrest hlast' 0 fun _ => rfl]

/-- **A program name in quotes**, if it does not end in a backslash. -/
theorem name_quoted (htail : Ends tail) {text : List Char} (hquote : ∀ c ∈ text, c ≠ '"')
    (hlast : text.getLast? ≠ some '\\') :
    name false ('"' :: (escaped 0 text ++ '"' :: tail)) = (text, behind tail) := by
  rw [escaped_same text hquote hlast 0 fun _ => rfl, name, if_pos rfl]
  exact name_quoted_from htail text hquote

end

end Calcar.Lib.Argv
