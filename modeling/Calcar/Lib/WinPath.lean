import Calcar.Lib.Lines

/-!
# Windows paths

Paths as they are put together and compared by their components: a drive or a
root, and the names behind it.  Slashes and backslashes separate; empty names
and single dots say nothing and are left out.  To push a relative path appends
its names, to push one with a drive or a root replaces what was there.

## Main results

* `under_child` — a path is entered name by name.
* `push_marked` — a text with a mark behind it names a file in the directory
  that the text leads to.
* `marked_eq_iff` — when two marked texts are the same.
-/

namespace Calcar.Lib

/-- What a path begins with. -/
inductive Anchor where
  | none
  | drive (letter : Char)
  | driveRoot (letter : Char)
  | root
  | unc
  deriving DecidableEq, Repr

/-- A path; server and share of a network path are its first two names. -/
structure WinPath where
  anchor : Anchor
  parts : List (List Char)
  deriving DecidableEq, Repr

namespace WinPath

/-- The separators. -/
def isSep (c : Char) : Bool := c == '/' || c == '\\'

/-- The beginning of a text, and the rest; drives are letters of any case. -/
def cut : List Char → Anchor × List Char
  | [] => (.none, [])
  | [c] => if isSep c then (.root, []) else (.none, [c])
  | c :: d :: rest =>
      if c.isAlpha ∧ d = ':' then
        match rest with
        | [] => (.drive c.toUpper, [])
        | s :: more => if isSep s then (.driveRoot c.toUpper, more) else (.drive c.toUpper, rest)
      else if isSep c ∧ isSep d then (.unc, rest)
      else if isSep c then (.root, d :: rest)
      else (.none, c :: d :: rest)

/-- One spelling of the separators. -/
def slashed (c : Char) : Char := if c = '/' then '\\' else c

/-- The names that end in a separator, and the last one. -/
def names (text : List Char) : List (List Char) × List Char :=
  Lines.split '\\' (text.map slashed)

/-- A name that says something. -/
def proper (s : List Char) : Bool := s != [] && s != ['.']

/-- The names behind a beginning, seen from a directory. -/
def under (base : WinPath) (a : Anchor) (parts : List (List Char)) : WinPath :=
  match a with
  | .none => ⟨base.anchor, base.parts ++ parts⟩
  | .root =>
      match base.anchor with
      | .drive c => ⟨.driveRoot c, parts⟩
      | .driveRoot c => ⟨.driveRoot c, parts⟩
      | .unc => ⟨.unc, base.parts.take 2 ++ parts⟩
      | _ => ⟨.root, parts⟩
  | a => ⟨a, parts⟩

/-- `PathBuf::push`. -/
def push (base : WinPath) (text : List Char) : WinPath :=
  base.under (cut text).1
    (((names (cut text).2).1 ++ [(names (cut text).2).2]).filter proper)

/-- A file or a directory in a directory. -/
def child (p : WinPath) (name : List Char) : WinPath := ⟨p.anchor, p.parts ++ [name]⟩

/-- Where a text leads up to its last separator. -/
def dirOf (base : WinPath) (text : List Char) : WinPath :=
  base.under (cut text).1 ((names (cut text).2).1.filter proper)

/-- What is behind the last separator. -/
def lastOf (text : List Char) : List Char := (names (cut text).2).2

/-- The path is a file of the directory itself. -/
def DirectChild (base p : WinPath) : Prop := ∃ name, name ≠ ['.', '.'] ∧ p = base.child name

/-- Two paths are one file on a volume that does not tell characters of equal
`fold` apart. -/
def SameFile (fold : Char → Char) (p q : WinPath) : Prop :=
  p.anchor = q.anchor ∧ p.parts.map (List.map fold) = q.parts.map (List.map fold)

instance (fold : Char → Char) (p q : WinPath) : Decidable (SameFile fold p q) := by
  unfold SameFile
  infer_instance

section

/-- **A path is entered name by name.** -/
theorem under_child (base : WinPath) (a : Anchor) (parts : List (List Char)) (name : List Char) :
    base.under a (parts ++ [name]) = (base.under a parts).child name := by
  unfold under child
  cases a with
  | none => simp
  | root => cases base.anchor <;> simp
  | _ => rfl

theorem child_inj {p q : WinPath} {a b : List Char} : p.child a = q.child b ↔ p = q ∧ a = b := by
  cases p
  cases q
  simp only [child, WinPath.mk.injEq, List.append_singleton_inj]
  constructor
  · rintro ⟨rfl, rfl, rfl⟩
    exact ⟨⟨rfl, rfl⟩, rfl⟩
  · rintro ⟨⟨rfl, rfl⟩, rfl⟩
    exact ⟨rfl, rfl, rfl⟩

/-- A mark is no letter and means nothing in a path. -/
structure Mark (x : Char) : Prop where
  noSep : isSep x = false
  noColon : x ≠ ':'
  noLetter : x.isAlpha = false

variable {x : Char}

theorem cut_marked (hx : Mark x) (text s : List Char) :
    cut (text ++ x :: s) = ((cut text).1, (cut text).2 ++ x :: s) := by
  cases text with
  | nil =>
      cases s with
      | nil => simp [cut, hx.noSep]
      | cons d rest => simp [cut, hx.noSep, hx.noLetter]
  | cons c text =>
      cases text with
      | nil =>
          by_cases hc : isSep c = true
          · simp [cut, hx.noSep, hx.noColon, hc]
          · simp [cut, hx.noColon, hc]
      | cons d rest =>
          by_cases hdrive : c.isAlpha = true ∧ d = ':'
          · cases rest with
            | nil => simp [cut, hdrive, hx.noSep]
            | cons s' more =>
                by_cases hs : isSep s' = true
                · simp [cut, hdrive, hs]
                · simp [cut, hdrive, hs]
          · by_cases hunc : isSep c = true ∧ isSep d = true
            · simp [cut, hdrive, hunc]
            · by_cases hc : isSep c = true
              · have hd : isSep d ≠ true := fun h => hunc ⟨hc, h⟩
                simp [cut, hdrive, hc, hd]
              · simp [cut, hdrive, hc]

theorem slashed_sep {c : Char} (h : isSep c = false) : slashed c = c ∧ c ≠ '\\' := by
  simp only [isSep, Bool.or_eq_false_iff, beq_eq_false_iff_ne] at h
  exact ⟨if_neg h.1, h.2⟩

/-- A text without separators continues the last name. -/
theorem names_append (text : List Char) {s : List Char} (hs : ∀ c ∈ s, isSep c = false) :
    names (text ++ s) = ((names text).1, (names text).2 ++ s) := by
  have hmap : s.map slashed = s := by
    have hsame : s.map slashed = s.map id :=
      List.map_congr_left fun c hc => (slashed_sep (hs c hc)).1
    rwa [List.map_id] at hsame
  have hopen : '\\' ∉ (names text).2 ++ s := by
    rw [List.mem_append]
    rintro (hmem | hmem)
    · exact Lines.sep_notMem_rest _ hmem
    · exact (slashed_sep (hs _ hmem)).2 rfl
  unfold names at hopen ⊢
  rw [List.map_append, hmap, Lines.split_append, Lines.split_none hopen, List.append_nil]

/-- **A text with a mark behind it** names a file where the text leads. -/
theorem push_marked (hx : Mark x) (base : WinPath) (text : List Char) {s : List Char}
    (hs : ∀ c ∈ s, isSep c = false) (hdot : x ≠ '.') :
    base.push (text ++ x :: s) = (base.dirOf text).child (lastOf text ++ x :: s) := by
  have hclear : ∀ c ∈ x :: s, isSep c = false := by
    intro c hc
    cases List.mem_cons.mp hc with
    | inl heq => exact heq ▸ hx.noSep
    | inr hmem => exact hs c hmem
  have hproper : proper ((names (cut text).2).2 ++ x :: s) = true := by
    have hmem : x ∈ (names (cut text).2).2 ++ x :: s :=
      List.mem_append_right _ List.mem_cons_self
    have hnil : (names (cut text).2).2 ++ x :: s ≠ [] := List.ne_nil_of_mem hmem
    have hone : (names (cut text).2).2 ++ x :: s ≠ ['.'] := by
      intro heq
      rw [heq, List.mem_singleton] at hmem
      exact hdot hmem
    simp [proper, hone]
  unfold push dirOf lastOf
  rw [cut_marked hx, names_append _ hclear, List.filter_append, ← under_child]
  simp only [List.filter_cons, hproper, if_true, List.filter_nil]

end

end WinPath

/-- **When two marked texts are the same**: where they are cut at the same mark, or one
mark is inside what belongs to the other. -/
theorem marked_eq_iff {α : Type} {x : α} {a b c d : List α} :
    a ++ x :: c = b ++ x :: d ↔
      (a = b ∧ c = d) ∨ (∃ m, b = a ++ x :: m ∧ c = m ++ x :: d) ∨
        ∃ m, a = b ++ x :: m ∧ d = m ++ x :: c := by
  rw [List.append_eq_append_iff]
  constructor
  · rintro (⟨m, hb, hc⟩ | ⟨m, ha, hd⟩)
    · cases m with
      | nil => exact .inl ⟨by simpa using hb.symm, by simpa using hc⟩
      | cons y m =>
          rw [List.cons_append, List.cons.injEq] at hc
          exact .inr (.inl ⟨m, hc.1 ▸ hb, hc.2⟩)
    · cases m with
      | nil => exact .inl ⟨by simpa using ha, by simpa using hd.symm⟩
      | cons y m =>
          rw [List.cons_append, List.cons.injEq] at hd
          exact .inr (.inr ⟨m, hd.1 ▸ ha, hd.2⟩)
  · rintro (⟨rfl, rfl⟩ | ⟨m, rfl, rfl⟩ | ⟨m, rfl, rfl⟩)
    · exact .inl ⟨[], by simp⟩
    · exact .inl ⟨x :: m, by simp⟩
    · exact .inr ⟨x :: m, by simp⟩

end Calcar.Lib
