/-!
# JSON texts as syntax trees

A tree keeps every character of the text it was read from: the white space,
the digits of a number as they stand, the pieces of a string.  `Tree.put` writes
a tree in front of what follows it.  A dialect says which white space, which
numbers and which `\u` escapes it allows; RFC 8259 is the dialect `rfc`.

## Main results

* `Tree.unique` — a text is that of at most one tree of a dialect.
* `Tree.Of.mono` — a tree of a dialect is one of every wider dialect.
-/

namespace Calcar.Lib.Json

/-- One item between the quotes of a string. -/
inductive Piece
  | plain (c : Char)
  | escape (c : Char)
  | unit (a b c d : Char)
  deriving DecidableEq, Repr

structure Exponent where
  mark : Char
  sign : Option Char
  digits : List Char
  deriving DecidableEq, Repr

/-- A number as it stands in the text. -/
structure Numeral where
  minus : Bool
  int : List Char
  frac : Option (List Char)
  exp : Option Exponent
  deriving DecidableEq, Repr

inductive Word
  | null
  | true
  | false
  deriving DecidableEq, Repr

mutual

inductive Tree
  | word (w : Word)
  | number (n : Numeral)
  | string (s : List Piece)
  | emptyArray (pad : List Char)
  | array (items : Elements)
  | emptyObject (pad : List Char)
  | object (items : Members)

inductive Elements
  | last (before : List Char) (v : Tree) (after : List Char)
  | more (before : List Char) (v : Tree) (after : List Char) (rest : Elements)

inductive Members
  | last (before : List Char) (key : List Piece) (keyEnd : List Char) (colonEnd : List Char)
      (v : Tree) (after : List Char)
  | more (before : List Char) (key : List Piece) (keyEnd : List Char) (colonEnd : List Char)
      (v : Tree) (after : List Char) (rest : Members)

end

/-! ## The text of a tree -/

def Word.put : Word → List Char → List Char
  | .null, r => 'n' :: 'u' :: 'l' :: 'l' :: r
  | .true, r => 't' :: 'r' :: 'u' :: 'e' :: r
  | .false, r => 'f' :: 'a' :: 'l' :: 's' :: 'e' :: r

def Piece.put : Piece → List Char → List Char
  | .plain c, r => c :: r
  | .escape c, r => '\\' :: c :: r
  | .unit a b c d, r => '\\' :: 'u' :: a :: b :: c :: d :: r

/-- A string with both its quotes. -/
def putString (s : List Piece) (r : List Char) : List Char :=
  '"' :: s.foldr Piece.put ('"' :: r)

def Exponent.put (e : Exponent) (r : List Char) : List Char :=
  e.mark :: (e.sign.toList ++ (e.digits ++ r))

def putFrac : Option (List Char) → List Char → List Char
  | none, r => r
  | some ds, r => '.' :: (ds ++ r)

def putExp : Option Exponent → List Char → List Char
  | none, r => r
  | some e, r => e.put r

def Numeral.put (n : Numeral) (r : List Char) : List Char :=
  (if n.minus then ['-'] else []) ++ (n.int ++ putFrac n.frac (putExp n.exp r))

mutual

/-- The text of the tree in front of `r`. -/
def Tree.put : Tree → List Char → List Char
  | .word w, r => w.put r
  | .number n, r => n.put r
  | .string s, r => putString s r
  | .emptyArray pad, r => '[' :: (pad ++ ']' :: r)
  | .array items, r => '[' :: items.put r
  | .emptyObject pad, r => '{' :: (pad ++ '}' :: r)
  | .object items, r => '{' :: items.put r

def Elements.put : Elements → List Char → List Char
  | .last before v after, r => before ++ v.put (after ++ ']' :: r)
  | .more before v after rest, r => before ++ v.put (after ++ ',' :: rest.put r)

def Members.put : Members → List Char → List Char
  | .last before key keyEnd colonEnd v after, r =>
      before ++ putString key (keyEnd ++ ':' :: (colonEnd ++ v.put (after ++ '}' :: r)))
  | .more before key keyEnd colonEnd v after rest, r =>
      before ++
        putString key (keyEnd ++ ':' :: (colonEnd ++ v.put (after ++ ',' :: rest.put r)))

end

mutual

/-- How deep values lie below this one. -/
def Tree.depth : Tree → Nat
  | .word _ | .number _ | .string _ | .emptyArray _ | .emptyObject _ => 0
  | .array items => items.depth + 1
  | .object items => items.depth + 1

def Elements.depth : Elements → Nat
  | .last _ v _ => v.depth
  | .more _ v _ rest => max v.depth rest.depth

def Members.depth : Members → Nat
  | .last _ _ _ _ v _ => v.depth
  | .more _ _ _ _ v _ rest => max v.depth rest.depth

end

/-! ## Dialects -/

/-- What a dialect leaves open.  Its white space lies below the printable
characters. -/
@[ext]
structure Dialect where
  white : Char → Bool
  numeral : Numeral → Bool
  unit : Char → Char → Char → Char → Bool
  white_low : ∀ c, white c = true → c.toNat ≤ 0x20

/-- The characters a backslash stands before, `u` apart. -/
def escapes : List Char := ['"', '\\', '/', 'b', 'f', 'n', 'r', 't']

/-- The digits are digits, and the number starts with one or with a minus. -/
def Numeral.shape (n : Numeral) : Bool :=
  (n.minus || !n.int.isEmpty) && n.int.all Char.isDigit &&
    (n.frac.all fun ds => ds.all Char.isDigit) &&
    n.exp.all fun e => (e.mark == 'e' || e.mark == 'E') &&
      (e.sign.all fun c => c == '+' || c == '-') && e.digits.all Char.isDigit

namespace Dialect

variable (D : Dialect)

def blank (w : List Char) : Bool := w.all D.white

def piece : Piece → Bool
  | .plain c => c != '"' && c != '\\' && decide (0x20 ≤ c.toNat)
  | .escape c => escapes.contains c
  | .unit a b c d => D.unit a b c d

def number (n : Numeral) : Bool := n.shape && D.numeral n

def pieces (s : List Piece) : Bool := s.all D.piece

mutual

/-- The tree is one of the dialect. -/
def tree : Tree → Bool
  | .word _ => true
  | .number n => D.number n
  | .string s => D.pieces s
  | .emptyArray pad => D.blank pad
  | .array items => elements items
  | .emptyObject pad => D.blank pad
  | .object items => members items

def elements : Elements → Bool
  | .last before v after => D.blank before && tree v && D.blank after
  | .more before v after rest => D.blank before && tree v && D.blank after && elements rest

def members : Members → Bool
  | .last before key keyEnd colonEnd v after =>
      D.blank before && D.pieces key && D.blank keyEnd && D.blank colonEnd && tree v &&
        D.blank after
  | .more before key keyEnd colonEnd v after rest =>
      D.blank before && D.pieces key && D.blank keyEnd && D.blank colonEnd && tree v &&
        D.blank after && members rest

end

end Dialect

/-- A value with white space around it. -/
structure Text where
  before : List Char
  root : Tree
  after : List Char

def Text.chars (x : Text) : List Char :=
  x.before ++ x.root.put x.after

def Dialect.text (D : Dialect) (x : Text) : Bool :=
  D.blank x.before && D.tree x.root && D.blank x.after

/-- What both dialects allow. -/
def Dialect.inf (D E : Dialect) : Dialect where
  white c := D.white c && E.white c
  numeral n := D.numeral n && E.numeral n
  unit a b c d := D.unit a b c d && E.unit a b c d
  white_low c h := D.white_low c (Bool.and_eq_true _ _ ▸ h).1

/-! ## RFC 8259 -/

def hexDigit (c : Char) : Option Nat :=
  if c.isDigit then some (c.toNat - '0'.toNat)
  else if 'a' ≤ c ∧ c ≤ 'f' then some (c.toNat - 'a'.toNat + 10)
  else if 'A' ≤ c ∧ c ≤ 'F' then some (c.toNat - 'A'.toNat + 10)
  else none

def rfcWhite (c : Char) : Bool := c == ' ' || c == '\t' || c == '\n' || c == '\r'

/-- `[ minus ] int [ frac ] [ exp ]`: no leading zeros, a digit after the point and
after the exponent's sign. -/
def rfcNumeral (n : Numeral) : Bool :=
  !n.int.isEmpty && (n.int == ['0'] || n.int.head? != some '0') &&
    (n.frac.all fun ds => !ds.isEmpty) && n.exp.all fun e => !e.digits.isEmpty

def rfcUnit (a b c d : Char) : Bool :=
  (hexDigit a).isSome && (hexDigit b).isSome && (hexDigit c).isSome && (hexDigit d).isSome

def rfc : Dialect where
  white := rfcWhite
  numeral := rfcNumeral
  unit := rfcUnit
  white_low c h := by
    simp only [rfcWhite, Bool.or_eq_true, beq_iff_eq] at h
    rcases h with ((rfl | rfl) | rfl) | rfl <;> decide

/-- The character a short escape stands for. -/
def escaped (c : Char) : Char :=
  if c = 'b' then '\x08'
  else if c = 'f' then '\x0c'
  else if c = 'n' then '\n'
  else if c = 'r' then '\r'
  else if c = 't' then '\t'
  else c

/-- The UTF-16 code unit of a `\u` escape. -/
def unitCode (a b c d : Char) : Nat :=
  let digit (x : Char) := (hexDigit x).getD 0
  16 * (16 * (16 * digit a + digit b) + digit c) + digit d

/-- The characters of a string, a surrogate pair read as one.  A surrogate that
stands alone is none. -/
def decode : List Piece → Option (List Char)
  | [] => some []
  | .plain c :: s => (decode s).map (c :: ·)
  | .escape c :: s => (decode s).map (escaped c :: ·)
  | .unit a b c d :: s =>
      if (unitCode a b c d).isValidChar then
        (decode s).map (Char.ofNat (unitCode a b c d) :: ·)
      else
        match s with
        | .unit a' b' c' d' :: s =>
            if unitCode a b c d < 0xDC00 ∧ 0xDC00 ≤ unitCode a' b' c' d' ∧
                unitCode a' b' c' d' < 0xE000 then
              (decode s).map (Char.ofNat (0x10000 + 0x400 * (unitCode a b c d - 0xD800) +
                (unitCode a' b' c' d' - 0xDC00)) :: ·)
            else none
        | _ => none

/-! ## One tree for each text -/

/-- The next character, if there is one, is not of a number. -/
def numeric (c : Char) : Bool :=
  c.isDigit || c == '.' || c == 'e' || c == 'E' || c == '+' || c == '-'

def Ends (r : List Char) : Prop := ∀ c ∈ r.head?, numeric c = false

/-- The next character, if there is one, is not white space. -/
def Opens (r : List Char) : Prop := ∀ c ∈ r.head?, 0x20 < c.toNat

theorem ends_nil : Ends [] := by simp [Ends]

theorem ends_cons {c : Char} {r : List Char} (h : numeric c = false) : Ends (c :: r) := by
  simpa [Ends] using h

theorem opens_cons {c : Char} {r : List Char} (h : 0x20 < c.toNat) : Opens (c :: r) := by
  simpa [Opens] using h

theorem low_not_numeric {c : Char} (h : c.toNat ≤ 0x20) : numeric c = false := by
  have hne : ∀ d : Char, 0x20 < d.toNat → (c == d) = false := by
    intro d hd
    rw [beq_eq_false_iff_ne]
    rintro rfl
    omega
  have hdigit : c.isDigit = false := by
    simp only [Char.isDigit, Bool.and_eq_false_iff, decide_eq_false_iff_not]
    left
    intro hge
    have : '0'.toNat ≤ c.toNat := hge
    have h0 : '0'.toNat = 48 := rfl
    omega
  simp [numeric, hdigit, hne]

/-- Two runs of one class of characters, both followed by something else, are the same run. -/
theorem run_unique {p : Char → Bool} {w w' x x' : List Char} (hw : w.all p = true)
    (hw' : w'.all p = true) (hx : ∀ c ∈ x.head?, p c = false)
    (hx' : ∀ c ∈ x'.head?, p c = false) (h : w ++ x = w' ++ x') : w = w' ∧ x = x' := by
  induction w generalizing w' with
  | nil =>
      cases w' with
      | nil => exact ⟨rfl, h⟩
      | cons c w' =>
          rw [List.nil_append, List.cons_append] at h
          have hc := hx c (by rw [h]; rfl)
          simp [hc] at hw'
  | cons c w ih =>
      cases w' with
      | nil =>
          rw [List.nil_append, List.cons_append] at h
          have hc := hx' c (by rw [← h]; rfl)
          simp [hc] at hw
      | cons c' w' =>
          rw [List.cons_append, List.cons_append, List.cons.injEq] at h
          rw [List.all_cons, Bool.and_eq_true] at hw hw'
          obtain ⟨hw₁, hx₁⟩ := ih hw.2 hw'.2 h.2
          exact ⟨by rw [h.1, hw₁], hx₁⟩

namespace Dialect

variable {D : Dialect}

theorem blank_unique {w w' x x' : List Char} (hw : D.blank w = true) (hw' : D.blank w' = true)
    (hx : Opens x) (hx' : Opens x') (h : w ++ x = w' ++ x') : w = w' ∧ x = x' := by
  have hopen : ∀ {y : List Char}, Opens y → ∀ c ∈ y.head?, D.white c = false := by
    intro y hy c hc
    cases hb : D.white c with
    | false => rfl
    | true =>
        have := D.white_low c hb
        have := hy c hc
        omega
  exact run_unique hw hw' (hopen hx) (hopen hx') h

theorem ends_blank {w r : List Char} (hw : D.blank w = true) (hr : Ends r) : Ends (w ++ r) := by
  cases w with
  | nil => exact hr
  | cons c w =>
      rw [blank, List.all_cons, Bool.and_eq_true] at hw
      exact ends_cons (low_not_numeric (D.white_low c hw.1))

end Dialect

theorem all_and {α : Type} (p q : α → Bool) (l : List α) :
    (l.all fun x => p x && q x) = (l.all p && l.all q) := by
  induction l with
  | nil => rfl
  | cons x l ih =>
      rw [List.all_cons, List.all_cons, List.all_cons, ih]
      cases p x <;> cases q x <;> simp

namespace Dialect

variable (D E : Dialect)

theorem blank_inf (w : List Char) : (D.inf E).blank w = (D.blank w && E.blank w) :=
  all_and D.white E.white w

theorem pieces_inf (s : List Piece) : (D.inf E).pieces s = (D.pieces s && E.pieces s) := by
  have hpiece : (D.inf E).piece = fun p => D.piece p && E.piece p := by
    funext p
    cases p with
    | plain c => exact (Bool.and_self _).symm
    | escape c => exact (Bool.and_self _).symm
    | unit a b c d => rfl
  rw [pieces, hpiece]
  exact all_and D.piece E.piece s

theorem number_inf (n : Numeral) : (D.inf E).number n = (D.number n && E.number n) := by
  show (n.shape && (D.numeral n && E.numeral n)) = _
  rw [number, number]
  cases n.shape <;> cases D.numeral n <;> cases E.numeral n <;> rfl

mutual

/-- **The trees of two dialects at once are those of both.** -/
theorem tree_inf : ∀ t : Tree, (D.inf E).tree t = true ↔ D.tree t = true ∧ E.tree t = true
  | .word _ => by simp [tree]
  | .number n => by simp [tree, number_inf]
  | .string s => by simp [tree, pieces_inf]
  | .emptyArray pad => by simp [tree, blank_inf]
  | .array items => elements_inf items
  | .emptyObject pad => by simp [tree, blank_inf]
  | .object items => members_inf items

theorem elements_inf :
    ∀ e : Elements, (D.inf E).elements e = true ↔ D.elements e = true ∧ E.elements e = true
  | .last before v after => by
      simp only [elements, blank_inf, Bool.and_eq_true, tree_inf v]
      constructor <;> simp +contextual
  | .more before v after rest => by
      simp only [elements, blank_inf, Bool.and_eq_true, tree_inf v, elements_inf rest]
      constructor <;> simp +contextual

theorem members_inf :
    ∀ e : Members, (D.inf E).members e = true ↔ D.members e = true ∧ E.members e = true
  | .last before key keyEnd colonEnd v after => by
      simp only [members, blank_inf, pieces_inf, Bool.and_eq_true, tree_inf v]
      constructor <;> simp +contextual
  | .more before key keyEnd colonEnd v after rest => by
      simp only [members, blank_inf, pieces_inf, Bool.and_eq_true, tree_inf v, members_inf rest]
      constructor <;> simp +contextual

end

end Dialect

/-! ### Numbers -/

theorem Ends.no_digit {r : List Char} (h : Ends r) : ∀ c ∈ r.head?, c.isDigit = false := by
  intro c hc
  have := h c hc
  simp only [numeric, Bool.or_eq_false_iff] at this
  exact this.1.1.1.1.1

/-- The conditions of a number's shape, one by one. -/
theorem Numeral.shape_iff (n : Numeral) :
    n.shape = true ↔ (n.minus = true ∨ n.int ≠ []) ∧ n.int.all Char.isDigit = true ∧
      (∀ ds, n.frac = some ds → ds.all Char.isDigit = true) ∧
      ∀ e, n.exp = some e → (e.mark = 'e' ∨ e.mark = 'E') ∧
        (∀ c, e.sign = some c → c = '+' ∨ c = '-') ∧ e.digits.all Char.isDigit = true := by
  obtain ⟨minus, int, frac, exp⟩ := n
  cases frac <;> cases exp with
  | none => simp [shape, and_assoc]
  | some e =>
      obtain ⟨mark, sign, digits⟩ := e
      cases sign <;> simp [shape, and_assoc]

theorem exponent_unique {e e' : Exponent} {r r' : List Char}
    (hs : ∀ c, e.sign = some c → c = '+' ∨ c = '-') (hd : e.digits.all Char.isDigit = true)
    (hs' : ∀ c, e'.sign = some c → c = '+' ∨ c = '-') (hd' : e'.digits.all Char.isDigit = true)
    (hr : Ends r) (hr' : Ends r') (h : e.put r = e'.put r') : e = e' ∧ r = r' := by
  obtain ⟨mark, sign, digits⟩ := e
  obtain ⟨mark', sign', digits'⟩ := e'
  rw [Exponent.put, Exponent.put, List.cons.injEq] at h
  obtain ⟨hmark, h⟩ := h
  have key : ∀ {ds ds' x x' : List Char} {c : Char}, ds.all Char.isDigit = true → Ends x →
      (c = '+' ∨ c = '-') → ds ++ x = c :: (ds' ++ x') → False := by
    intro ds ds' x x' c hds hx hc heq
    cases ds with
    | nil =>
        have := hx c (by rw [List.nil_append] at heq; rw [heq]; rfl)
        rcases hc with rfl | rfl <;> exact absurd this (by decide)
    | cons d ds =>
        rw [List.cons_append, List.cons.injEq] at heq
        rw [List.all_cons, Bool.and_eq_true, heq.1] at hds
        rcases hc with rfl | rfl <;> exact absurd hds.1 (by decide)
  cases sign with
  | none =>
      cases sign' with
      | none =>
          obtain ⟨rfl, rfl⟩ := run_unique hd hd' hr.no_digit hr'.no_digit h
          exact ⟨by rw [show mark = mark' from hmark], rfl⟩
      | some c => exact (key hd hr (hs' c rfl) h).elim
  | some c =>
      cases sign' with
      | none => exact (key hd' hr' (hs c rfl) h.symm).elim
      | some c' =>
          rw [Option.toList_some, Option.toList_some, List.singleton_append,
            List.singleton_append, List.cons.injEq] at h
          obtain ⟨rfl, rfl⟩ := run_unique hd hd' hr.no_digit hr'.no_digit h.2
          exact ⟨by rw [show mark = mark' from hmark, h.1], rfl⟩

theorem putExp_head {e : Option Exponent} {r : List Char}
    (hm : ∀ x, e = some x → x.mark = 'e' ∨ x.mark = 'E') (hr : Ends r) :
    ∀ c ∈ (putExp e r).head?, c.isDigit = false ∧ c ≠ '.' := by
  intro c hc
  cases e with
  | none =>
      refine ⟨hr.no_digit c hc, ?_⟩
      rintro rfl
      exact absurd (hr '.' hc) (by decide)
  | some x =>
      have hcx : c = x.mark := by simpa [putExp, Exponent.put, eq_comm] using hc
      rcases hm x rfl with h | h <;> rw [hcx, h] <;> decide

theorem putExp_unique {e e' : Option Exponent} {r r' : List Char}
    (he : ∀ x, e = some x → (x.mark = 'e' ∨ x.mark = 'E') ∧
      (∀ c, x.sign = some c → c = '+' ∨ c = '-') ∧ x.digits.all Char.isDigit = true)
    (he' : ∀ x, e' = some x → (x.mark = 'e' ∨ x.mark = 'E') ∧
      (∀ c, x.sign = some c → c = '+' ∨ c = '-') ∧ x.digits.all Char.isDigit = true)
    (hr : Ends r) (hr' : Ends r') (h : putExp e r = putExp e' r') : e = e' ∧ r = r' := by
  have mixed : ∀ {x : Exponent} {y y' : List Char}, (x.mark = 'e' ∨ x.mark = 'E') → Ends y →
      y = x.put y' → False := by
    intro x y y' hx hy heq
    have := hy x.mark (by rw [heq]; rfl)
    rcases hx with hx | hx <;> rw [hx] at this <;> exact absurd this (by decide)
  cases e with
  | none =>
      cases e' with
      | none => exact ⟨rfl, h⟩
      | some x' => exact (mixed (he' x' rfl).1 hr h).elim
  | some x =>
      cases e' with
      | none => exact (mixed (he x rfl).1 hr' h.symm).elim
      | some x' =>
          obtain ⟨-, hs, hd⟩ := he x rfl
          obtain ⟨-, hs', hd'⟩ := he' x' rfl
          obtain ⟨rfl, rfl⟩ := exponent_unique hs hd hs' hd' hr hr' h
          exact ⟨rfl, rfl⟩

theorem putFrac_unique {f f' : Option (List Char)} {x x' : List Char}
    (hf : ∀ ds, f = some ds → ds.all Char.isDigit = true)
    (hf' : ∀ ds, f' = some ds → ds.all Char.isDigit = true)
    (hx : ∀ c ∈ x.head?, c.isDigit = false ∧ c ≠ '.')
    (hy : ∀ c ∈ x'.head?, c.isDigit = false ∧ c ≠ '.') (h : putFrac f x = putFrac f' x') :
    f = f' ∧ x = x' := by
  cases f with
  | none =>
      cases f' with
      | none => exact ⟨rfl, h⟩
      | some ds' => exact absurd rfl (hx '.' (by rw [show x = _ from h]; rfl)).2
  | some ds =>
      cases f' with
      | none => exact absurd rfl (hy '.' (by rw [← show _ = x' from h]; rfl)).2
      | some ds' =>
          rw [putFrac, putFrac, List.cons.injEq] at h
          obtain ⟨rfl, rfl⟩ := run_unique (hf ds rfl) (hf' ds' rfl) (fun c hc => (hx c hc).1)
            (fun c hc => (hy c hc).1) h.2
          exact ⟨rfl, rfl⟩

theorem putFrac_head {f : Option (List Char)} {x : List Char}
    (hx : ∀ c ∈ x.head?, c.isDigit = false ∧ c ≠ '.') :
    ∀ c ∈ (putFrac f x).head?, c.isDigit = false := by
  cases f with
  | none => exact fun c hc => (hx c hc).1
  | some ds =>
      intro c hc
      have : c = '.' := by simpa [putFrac, eq_comm] using hc
      rw [this]
      decide

theorem Numeral.unique {n n' : Numeral} {r r' : List Char} (hn : n.shape = true)
    (hn' : n'.shape = true) (hr : Ends r) (hr' : Ends r') (h : n.put r = n'.put r') :
    n = n' ∧ r = r' := by
  obtain ⟨hstart, hint, hfrac, hexp⟩ := n.shape_iff.mp hn
  obtain ⟨hstart', hint', hfrac', hexp'⟩ := n'.shape_iff.mp hn'
  obtain ⟨minus, int, frac, exp⟩ := n
  obtain ⟨minus', int', frac', exp'⟩ := n'
  have he := putExp_head (fun x hx => (hexp x hx).1) hr
  have he' := putExp_head (fun x hx => (hexp' x hx).1) hr'
  have mixed : ∀ {ds x y : List Char}, ds.all Char.isDigit = true → ds ≠ [] →
      '-' :: y = ds ++ x → False := by
    intro ds x y hds hne heq
    cases ds with
    | nil => exact hne rfl
    | cons d ds =>
        rw [List.cons_append, List.cons.injEq] at heq
        rw [List.all_cons, Bool.and_eq_true, ← heq.1] at hds
        exact absurd hds.1 (by decide)
  have htail : ∀ {y y' : List Char}, y = int ++ putFrac frac (putExp exp r) →
      y' = int' ++ putFrac frac' (putExp exp' r') → y = y' →
      (int = int' ∧ frac = frac' ∧ exp = exp') ∧ r = r' := by
    rintro y y' rfl rfl heq
    obtain ⟨hi, heq⟩ := run_unique hint hint' (putFrac_head he) (putFrac_head he') heq
    obtain ⟨hf, heq⟩ := putFrac_unique hfrac hfrac' he he' heq
    obtain ⟨hx, heq⟩ := putExp_unique hexp hexp' hr hr' heq
    exact ⟨⟨hi, hf, hx⟩, heq⟩
  cases minus with
  | false =>
      cases minus' with
      | false =>
          obtain ⟨⟨rfl, rfl, rfl⟩, rfl⟩ := htail rfl rfl h
          exact ⟨rfl, rfl⟩
      | true => exact (mixed hint (hstart.resolve_left Bool.false_ne_true) h.symm).elim
  | true =>
      cases minus' with
      | false => exact (mixed hint' (hstart'.resolve_left Bool.false_ne_true) h).elim
      | true =>
          obtain ⟨⟨rfl, rfl, rfl⟩, rfl⟩ := htail rfl rfl (List.cons.inj h).2
          exact ⟨rfl, rfl⟩

/-! ### Strings -/

namespace Dialect

variable {D : Dialect}

theorem piece_unique {p p' : Piece} {r r' : List Char} (hp : D.piece p = true)
    (hp' : D.piece p' = true) (h : p.put r = p'.put r') : p = p' ∧ r = r' := by
  have hbar : ∀ {c : Char}, D.piece (.plain c) = true → c ≠ '\\' := by
    intro c hc
    simp only [piece, Bool.and_eq_true, bne_iff_ne] at hc
    exact hc.1.2
  have hu : D.piece (.escape 'u') = false := by rw [piece]; decide
  cases p with
  | plain c =>
      cases p' with
      | plain c' =>
          obtain ⟨rfl, rfl⟩ := List.cons.inj h
          exact ⟨rfl, rfl⟩
      | escape c' => exact absurd (List.cons.inj h).1 (hbar hp)
      | unit a b c d => exact absurd (List.cons.inj h).1 (hbar hp)
  | escape c =>
      cases p' with
      | plain c' => exact absurd (List.cons.inj h).1.symm (hbar hp')
      | escape c' =>
          obtain ⟨rfl, rfl⟩ := List.cons.inj (List.cons.inj h).2
          exact ⟨rfl, rfl⟩
      | unit a b c' d =>
          have hc : c = 'u' := (List.cons.inj (List.cons.inj h).2).1
          rw [hc, hu] at hp
          exact absurd hp (by decide)
  | unit a b c d =>
      cases p' with
      | plain c' => exact absurd (List.cons.inj h).1.symm (hbar hp')
      | escape c' =>
          have hc : c' = 'u' := (List.cons.inj (List.cons.inj h).2).1.symm
          rw [hc, hu] at hp'
          exact absurd hp' (by decide)
      | unit a' b' c' d' =>
          simp only [Piece.put, List.cons.injEq, true_and] at h
          obtain ⟨rfl, rfl, rfl, rfl, rfl⟩ := h
          exact ⟨rfl, rfl⟩

theorem piece_not_quote {p : Piece} {r s : List Char} (hp : D.piece p = true) :
    p.put r ≠ '"' :: s := by
  intro h
  cases p with
  | plain c =>
      simp only [piece, Bool.and_eq_true, bne_iff_ne] at hp
      exact hp.1.1 (List.cons.inj h).1
  | escape c => exact absurd (List.cons.inj h).1 (by decide)
  | unit a b c d => exact absurd (List.cons.inj h).1 (by decide)

theorem string_unique {s s' : List Piece} {r r' : List Char} (hs : D.pieces s = true)
    (hs' : D.pieces s' = true) (h : putString s r = putString s' r') : s = s' ∧ r = r' := by
  replace h := (List.cons.inj h).2
  induction s generalizing s' with
  | nil =>
      cases s' with
      | nil => exact ⟨rfl, (List.cons.inj h).2⟩
      | cons p' s' =>
          rw [pieces, List.all_cons, Bool.and_eq_true] at hs'
          exact absurd h.symm (piece_not_quote hs'.1)
  | cons p s ih =>
      rw [pieces, List.all_cons, Bool.and_eq_true] at hs
      cases s' with
      | nil => exact absurd h (piece_not_quote hs.1)
      | cons p' s' =>
          rw [pieces, List.all_cons, Bool.and_eq_true] at hs'
          obtain ⟨rfl, htail⟩ := piece_unique hs.1 hs'.1 h
          obtain ⟨rfl, rfl⟩ := ih hs.2 hs'.2 htail
          exact ⟨rfl, rfl⟩

end Dialect

/-! ### Lengths -/

theorem Piece.put_length (p : Piece) (r : List Char) : r.length < (p.put r).length := by
  cases p <;> simp only [Piece.put, List.length_cons] <;> omega

theorem putString_length (s : List Piece) (r : List Char) :
    r.length < (putString s r).length := by
  have h : r.length < (s.foldr Piece.put ('"' :: r)).length := by
    induction s with
    | nil => exact Nat.lt_succ_self _
    | cons p s ih => exact Nat.lt_trans ih (p.put_length _)
  rw [putString, List.length_cons]
  omega

theorem Numeral.put_length (n : Numeral) (r : List Char) : r.length ≤ (n.put r).length := by
  obtain ⟨minus, int, frac, exp⟩ := n
  cases frac <;> cases exp <;>
    simp only [Numeral.put, putFrac, putExp, Exponent.put, List.length_append,
      List.length_cons] <;> omega

mutual

theorem Tree.put_length : ∀ (t : Tree) (r : List Char), r.length ≤ (t.put r).length
  | .word w, r => by cases w <;> simp only [Tree.put, Word.put, List.length_cons] <;> omega
  | .number n, r => n.put_length r
  | .string s, r => Nat.le_of_lt (putString_length s r)
  | .emptyArray pad, r => by
      simp only [Tree.put, List.length_cons, List.length_append]
      omega
  | .array items, r => by
      have := items.put_length r
      rw [Tree.put, List.length_cons]
      omega
  | .emptyObject pad, r => by
      simp only [Tree.put, List.length_cons, List.length_append]
      omega
  | .object items, r => by
      have := items.put_length r
      rw [Tree.put, List.length_cons]
      omega

theorem Elements.put_length : ∀ (e : Elements) (r : List Char), r.length < (e.put r).length
  | .last before v after, r => by
      have := v.put_length (after ++ ']' :: r)
      simp only [Elements.put, List.length_append, List.length_cons] at this ⊢
      omega
  | .more before v after rest, r => by
      have := v.put_length (after ++ ',' :: rest.put r)
      have := rest.put_length r
      simp only [Elements.put, List.length_append, List.length_cons] at *
      omega

theorem Members.put_length : ∀ (e : Members) (r : List Char), r.length < (e.put r).length
  | .last before key keyEnd colonEnd v after, r => by
      have := v.put_length (after ++ '}' :: r)
      have := putString_length key (keyEnd ++ ':' :: (colonEnd ++ v.put (after ++ '}' :: r)))
      simp only [Members.put, List.length_append, List.length_cons] at *
      omega
  | .more before key keyEnd colonEnd v after rest, r => by
      have := v.put_length (after ++ ',' :: rest.put r)
      have := rest.put_length r
      have := putString_length key
        (keyEnd ++ ':' :: (colonEnd ++ v.put (after ++ ',' :: rest.put r)))
      simp only [Members.put, List.length_append, List.length_cons] at *
      omega

end

/-! ### Values -/

/-- What the first character of a value tells of it. -/
inductive Kind
  | word
  | number
  | string
  | array
  | object
  deriving DecidableEq

def kindOf (c : Char) : Option Kind :=
  if c.isDigit || c == '-' then some .number
  else if c == '"' then some .string
  else if c == '[' then some .array
  else if c == '{' then some .object
  else if c == 'n' || c == 't' || c == 'f' then some .word
  else none

def Tree.kind : Tree → Kind
  | .word _ => .word
  | .number _ => .number
  | .string _ => .string
  | .emptyArray _ | .array _ => .array
  | .emptyObject _ | .object _ => .object

theorem kindOf_low {c : Char} {k : Kind} (h : kindOf c = some k) : 0x20 < c.toNat := by
  refine Decidable.byContradiction fun hnot => ?_
  have hlow : c.toNat ≤ 0x20 := by omega
  have hnum := low_not_numeric hlow
  have hne : ∀ d : Char, 0x20 < d.toNat → (c == d) = false := by
    intro d hd
    rw [beq_eq_false_iff_ne]
    rintro rfl
    omega
  have hdigit : c.isDigit = false := by
    simp only [numeric, Bool.or_eq_false_iff] at hnum
    exact hnum.1.1.1.1.1
  simp [kindOf, hdigit, hne] at h

theorem kindOf_digit {c : Char} (h : c.isDigit = true) : kindOf c = some .number := by
  simp [kindOf, h]

theorem kindOf_number {c : Char} (h : kindOf c = some .number) : c = '-' ∨ c.isDigit = true := by
  cases hd : c.isDigit || c == '-' with
  | true => simpa [or_comm] using hd
  | false =>
      rw [kindOf, hd, if_neg Bool.false_ne_true] at h
      repeat
        split at h
        · cases h
      cases h

theorem Numeral.put_head {n : Numeral} (h : n.shape = true) (r : List Char) :
    ∃ c s, n.put r = c :: s ∧ kindOf c = some .number := by
  obtain ⟨hstart, hint, -, -⟩ := n.shape_iff.mp h
  obtain ⟨minus, int, frac, exp⟩ := n
  cases minus with
  | true => exact ⟨'-', _, rfl, rfl⟩
  | false =>
      cases int with
      | nil => exact absurd rfl (hstart.resolve_left Bool.false_ne_true)
      | cons d ds =>
          rw [List.all_cons, Bool.and_eq_true] at hint
          exact ⟨d, _, rfl, kindOf_digit hint.1⟩

namespace Dialect

variable {D : Dialect}

theorem tree_head {t : Tree} (h : D.tree t = true) (r : List Char) :
    ∃ c s, t.put r = c :: s ∧ kindOf c = some t.kind := by
  cases t with
  | word w => cases w <;> exact ⟨_, _, rfl, rfl⟩
  | number n =>
      rw [tree, number, Bool.and_eq_true] at h
      exact n.put_head h.1 r
  | string s => exact ⟨_, _, rfl, rfl⟩
  | emptyArray pad => exact ⟨_, _, rfl, rfl⟩
  | array items => exact ⟨_, _, rfl, rfl⟩
  | emptyObject pad => exact ⟨_, _, rfl, rfl⟩
  | object items => exact ⟨_, _, rfl, rfl⟩

theorem opens_tree {t : Tree} (h : D.tree t = true) (r : List Char) : Opens (t.put r) := by
  obtain ⟨c, s, heq, hk⟩ := tree_head h r
  rw [heq]
  exact opens_cons (kindOf_low hk)

theorem same_kind {t t' : Tree} {r r' : List Char} (ht : D.tree t = true)
    (ht' : D.tree t' = true) (h : t.put r = t'.put r') : t.kind = t'.kind := by
  obtain ⟨c, s, heq, hk⟩ := tree_head ht r
  obtain ⟨c', s', heq', hk'⟩ := tree_head ht' r'
  rw [heq, heq', List.cons.injEq] at h
  rw [h.1, hk'] at hk
  exact (Option.some.inj hk).symm

theorem word_unique {w w' : Word} {r r' : List Char} (h : w.put r = w'.put r') :
    w = w' ∧ r = r' := by
  cases w <;> cases w' <;> simp [Word.put] at h <;> exact ⟨rfl, h⟩

theorem opens_string (s : List Piece) (r : List Char) : Opens (putString s r) :=
  opens_cons (by decide)

/-- After an opening bracket a closing one is not the start of a value. -/
theorem pad_or_value {pad before r s : List Char} {c : Char} {t : Tree} (hc : kindOf c = none)
    (hlow : 0x20 < c.toNat) (hpad : D.blank pad = true) (hb : D.blank before = true)
    (ht : D.tree t = true) (h : pad ++ c :: r = before ++ t.put s) : False := by
  obtain ⟨-, heq⟩ := blank_unique hpad hb (opens_cons hlow) (opens_tree ht s) h
  obtain ⟨c', s', heq', hk⟩ := tree_head ht s
  rw [heq', List.cons.injEq] at heq
  rw [← heq.1, hc] at hk
  cases hk

theorem pad_or_key {pad before r s : List Char} {key : List Piece} {c : Char}
    (hlow : 0x20 < c.toNat) (hc : c ≠ '"') (hpad : D.blank pad = true)
    (hb : D.blank before = true) (h : pad ++ c :: r = before ++ putString key s) : False := by
  obtain ⟨-, heq⟩ := blank_unique hpad hb (opens_cons hlow) (opens_string key s) h
  exact hc (List.cons.inj heq).1

theorem empty_elements {pad r r' : List Char} {e : Elements} (hpad : D.blank pad = true)
    (he : D.elements e = true) (h : pad ++ ']' :: r = e.put r') : False := by
  cases e with
  | last before v after =>
      simp only [elements, Bool.and_eq_true] at he
      exact pad_or_value rfl (by decide) hpad he.1.1 he.1.2 h
  | more before v after rest =>
      simp only [elements, Bool.and_eq_true] at he
      exact pad_or_value rfl (by decide) hpad he.1.1.1 he.1.1.2 h

theorem empty_members {pad r r' : List Char} {e : Members} (hpad : D.blank pad = true)
    (he : D.members e = true) (h : pad ++ '}' :: r = e.put r') : False := by
  cases e with
  | last before key keyEnd colonEnd v after =>
      simp only [members, Bool.and_eq_true] at he
      exact pad_or_key (by decide) (by decide) hpad he.1.1.1.1.1 h
  | more before key keyEnd colonEnd v after rest =>
      simp only [members, Bool.and_eq_true] at he
      exact pad_or_key (by decide) (by decide) hpad he.1.1.1.1.1.1 h

theorem ends_close {after r : List Char} {c : Char} (ha : D.blank after = true)
    (hc : numeric c = false) : Ends (after ++ c :: r) :=
  ends_blank ha (ends_cons hc)

/-- What stands between a value and what closes it. -/
theorem after_unique {after after' r r' : List Char} {c c' : Char} (ha : D.blank after = true)
    (ha' : D.blank after' = true) (hc : 0x20 < c.toNat) (hc' : 0x20 < c'.toNat)
    (h : after ++ c :: r = after' ++ c' :: r') : after = after' ∧ c = c' ∧ r = r' := by
  obtain ⟨rfl, heq⟩ := blank_unique ha ha' (opens_cons hc) (opens_cons hc') h
  exact ⟨rfl, List.cons.inj heq⟩

/-- A value, what stands after it and what closes it, if the values are of one text each. -/
theorem closed_unique {after after' r r' : List Char} {v v' : Tree} {c c' : Char}
    (hc : 0x20 < c.toNat ∧ numeric c = false) (hc' : 0x20 < c'.toNat ∧ numeric c' = false)
    (ha : D.blank after = true) (ha' : D.blank after' = true)
    (hv : ∀ {s s' : List Char}, Ends s → Ends s' → v.put s = v'.put s' → v = v' ∧ s = s')
    (h : v.put (after ++ c :: r) = v'.put (after' ++ c' :: r')) :
    v = v' ∧ after = after' ∧ c = c' ∧ r = r' := by
  obtain ⟨hval, hend⟩ := hv (ends_close ha hc.2) (ends_close ha' hc'.2) h
  exact ⟨hval, after_unique ha ha' hc.1 hc'.1 hend⟩

/-- The head of an object's member, up to the value. -/
theorem member_unique {before before' keyEnd keyEnd' colonEnd colonEnd' r r' : List Char}
    {key key' : List Piece} {v v' : Tree} (hb : D.blank before = true)
    (hb' : D.blank before' = true) (hk : D.pieces key = true) (hk' : D.pieces key' = true)
    (he : D.blank keyEnd = true) (he' : D.blank keyEnd' = true) (hc : D.blank colonEnd = true)
    (hc' : D.blank colonEnd' = true) (hv : D.tree v = true) (hv' : D.tree v' = true)
    (h : before ++ putString key (keyEnd ++ ':' :: (colonEnd ++ v.put r)) =
      before' ++ putString key' (keyEnd' ++ ':' :: (colonEnd' ++ v'.put r'))) :
    (before = before' ∧ key = key' ∧ keyEnd = keyEnd' ∧ colonEnd = colonEnd') ∧
      v.put r = v'.put r' := by
  obtain ⟨hbefore, hkey⟩ := blank_unique hb hb' (opens_string key _) (opens_string key' _) h
  obtain ⟨hkey, hcolon⟩ := string_unique hk hk' hkey
  obtain ⟨hend, -, hvalue⟩ := after_unique he he' (by decide) (by decide) hcolon
  obtain ⟨hcolon, hvalue⟩ := blank_unique hc hc' (opens_tree hv _) (opens_tree hv' _) hvalue
  exact ⟨⟨hbefore, hkey, hend, hcolon⟩, hvalue⟩

mutual

/-- **A text is that of at most one tree**, if what follows it cannot lengthen a number. -/
theorem tree_unique {t t' : Tree} {r r' : List Char} (ht : D.tree t = true)
    (ht' : D.tree t' = true) (hr : Ends r) (hr' : Ends r') (h : t.put r = t'.put r') :
    t = t' ∧ r = r' := by
  have hkind := same_kind ht ht' h
  cases t with
  | word w =>
      cases t' with
      | word w' =>
          obtain ⟨rfl, rfl⟩ := word_unique h
          exact ⟨rfl, rfl⟩
      | _ => cases hkind
  | number n =>
      cases t' with
      | number n' =>
          rw [tree, number, Bool.and_eq_true] at ht ht'
          obtain ⟨rfl, rfl⟩ := Numeral.unique ht.1 ht'.1 hr hr' h
          exact ⟨rfl, rfl⟩
      | _ => cases hkind
  | string s =>
      cases t' with
      | string s' =>
          obtain ⟨rfl, rfl⟩ := string_unique ht ht' h
          exact ⟨rfl, rfl⟩
      | _ => cases hkind
  | emptyArray pad =>
      cases t' with
      | emptyArray pad' =>
          obtain ⟨rfl, -, rfl⟩ := after_unique ht ht' (by decide) (by decide) (List.cons.inj h).2
          exact ⟨rfl, rfl⟩
      | array items' => exact (empty_elements ht ht' (List.cons.inj h).2).elim
      | _ => cases hkind
  | array items =>
      cases t' with
      | emptyArray pad' => exact (empty_elements ht' ht (List.cons.inj h).2.symm).elim
      | array items' =>
          obtain ⟨rfl, rfl⟩ := elements_unique ht ht' (List.cons.inj h).2
          exact ⟨rfl, rfl⟩
      | _ => cases hkind
  | emptyObject pad =>
      cases t' with
      | emptyObject pad' =>
          obtain ⟨rfl, -, rfl⟩ := after_unique ht ht' (by decide) (by decide) (List.cons.inj h).2
          exact ⟨rfl, rfl⟩
      | object items' => exact (empty_members ht ht' (List.cons.inj h).2).elim
      | _ => cases hkind
  | object items =>
      cases t' with
      | emptyObject pad' => exact (empty_members ht' ht (List.cons.inj h).2.symm).elim
      | object items' =>
          obtain ⟨rfl, rfl⟩ := members_unique ht ht' (List.cons.inj h).2
          exact ⟨rfl, rfl⟩
      | _ => cases hkind

theorem elements_unique {e e' : Elements} {r r' : List Char} (he : D.elements e = true)
    (he' : D.elements e' = true) (h : e.put r = e'.put r') : e = e' ∧ r = r' := by
  cases e with
  | last before v after =>
      simp only [elements, Bool.and_eq_true] at he
      obtain ⟨⟨hb, hv⟩, ha⟩ := he
      cases e' with
      | last before' v' after' =>
          simp only [elements, Bool.and_eq_true] at he'
          obtain ⟨⟨hb', hv'⟩, ha'⟩ := he'
          obtain ⟨rfl, hval⟩ := blank_unique hb hb' (opens_tree hv _) (opens_tree hv' _) h
          obtain ⟨rfl, rfl, -, rfl⟩ := closed_unique (by decide) (by decide) ha ha'
            (tree_unique hv hv') hval
          exact ⟨rfl, rfl⟩
      | more before' v' after' rest' =>
          simp only [elements, Bool.and_eq_true] at he'
          obtain ⟨⟨⟨hb', hv'⟩, ha'⟩, -⟩ := he'
          obtain ⟨rfl, hval⟩ := blank_unique hb hb' (opens_tree hv _) (opens_tree hv' _) h
          obtain ⟨-, -, hclose, -⟩ := closed_unique (by decide) (by decide) ha ha'
            (tree_unique hv hv') hval
          exact absurd hclose (by decide)
  | more before v after rest =>
      simp only [elements, Bool.and_eq_true] at he
      obtain ⟨⟨⟨hb, hv⟩, ha⟩, hrest⟩ := he
      cases e' with
      | last before' v' after' =>
          simp only [elements, Bool.and_eq_true] at he'
          obtain ⟨⟨hb', hv'⟩, ha'⟩ := he'
          obtain ⟨rfl, hval⟩ := blank_unique hb hb' (opens_tree hv _) (opens_tree hv' _) h
          obtain ⟨-, -, hclose, -⟩ := closed_unique (by decide) (by decide) ha ha'
            (tree_unique hv hv') hval
          exact absurd hclose (by decide)
      | more before' v' after' rest' =>
          simp only [elements, Bool.and_eq_true] at he'
          obtain ⟨⟨⟨hb', hv'⟩, ha'⟩, hrest'⟩ := he'
          obtain ⟨rfl, hval⟩ := blank_unique hb hb' (opens_tree hv _) (opens_tree hv' _) h
          obtain ⟨rfl, rfl, -, htail⟩ := closed_unique (by decide) (by decide) ha ha'
            (tree_unique hv hv') hval
          obtain ⟨rfl, rfl⟩ := elements_unique hrest hrest' htail
          exact ⟨rfl, rfl⟩

theorem members_unique {e e' : Members} {r r' : List Char} (he : D.members e = true)
    (he' : D.members e' = true) (h : e.put r = e'.put r') : e = e' ∧ r = r' := by
  cases e with
  | last before key keyEnd colonEnd v after =>
      simp only [members, Bool.and_eq_true] at he
      obtain ⟨⟨⟨⟨⟨hb, hk⟩, hke⟩, hce⟩, hv⟩, ha⟩ := he
      cases e' with
      | last before' key' keyEnd' colonEnd' v' after' =>
          simp only [members, Bool.and_eq_true] at he'
          obtain ⟨⟨⟨⟨⟨hb', hk'⟩, hke'⟩, hce'⟩, hv'⟩, ha'⟩ := he'
          obtain ⟨⟨rfl, rfl, rfl, rfl⟩, hval⟩ :=
            member_unique hb hb' hk hk' hke hke' hce hce' hv hv' h
          obtain ⟨rfl, rfl, -, rfl⟩ := closed_unique (by decide) (by decide) ha ha'
            (tree_unique hv hv') hval
          exact ⟨rfl, rfl⟩
      | more before' key' keyEnd' colonEnd' v' after' rest' =>
          simp only [members, Bool.and_eq_true] at he'
          obtain ⟨⟨⟨⟨⟨⟨hb', hk'⟩, hke'⟩, hce'⟩, hv'⟩, ha'⟩, -⟩ := he'
          obtain ⟨⟨rfl, rfl, rfl, rfl⟩, hval⟩ :=
            member_unique hb hb' hk hk' hke hke' hce hce' hv hv' h
          obtain ⟨-, -, hclose, -⟩ := closed_unique (by decide) (by decide) ha ha'
            (tree_unique hv hv') hval
          exact absurd hclose (by decide)
  | more before key keyEnd colonEnd v after rest =>
      simp only [members, Bool.and_eq_true] at he
      obtain ⟨⟨⟨⟨⟨⟨hb, hk⟩, hke⟩, hce⟩, hv⟩, ha⟩, hrest⟩ := he
      cases e' with
      | last before' key' keyEnd' colonEnd' v' after' =>
          simp only [members, Bool.and_eq_true] at he'
          obtain ⟨⟨⟨⟨⟨hb', hk'⟩, hke'⟩, hce'⟩, hv'⟩, ha'⟩ := he'
          obtain ⟨⟨rfl, rfl, rfl, rfl⟩, hval⟩ :=
            member_unique hb hb' hk hk' hke hke' hce hce' hv hv' h
          obtain ⟨-, -, hclose, -⟩ := closed_unique (by decide) (by decide) ha ha'
            (tree_unique hv hv') hval
          exact absurd hclose (by decide)
      | more before' key' keyEnd' colonEnd' v' after' rest' =>
          simp only [members, Bool.and_eq_true] at he'
          obtain ⟨⟨⟨⟨⟨⟨hb', hk'⟩, hke'⟩, hce'⟩, hv'⟩, ha'⟩, hrest'⟩ := he'
          obtain ⟨⟨rfl, rfl, rfl, rfl⟩, hval⟩ :=
            member_unique hb hb' hk hk' hke hke' hce hce' hv hv' h
          obtain ⟨rfl, rfl, -, htail⟩ := closed_unique (by decide) (by decide) ha ha'
            (tree_unique hv hv') hval
          obtain ⟨rfl, rfl⟩ := members_unique hrest hrest' htail
          exact ⟨rfl, rfl⟩

end

theorem ends_of_blank {w : List Char} (hw : D.blank w = true) : Ends w := by
  have h := ends_blank hw ends_nil
  rwa [List.append_nil] at h

/-- **A text is read in one way.** -/
theorem text_unique {x x' : Text} (hx : D.text x = true) (hx' : D.text x' = true)
    (h : x.chars = x'.chars) : x = x' := by
  obtain ⟨before, root, after⟩ := x
  obtain ⟨before', root', after'⟩ := x'
  simp only [text, Bool.and_eq_true] at hx hx'
  obtain ⟨⟨hb, ht⟩, ha⟩ := hx
  obtain ⟨⟨hb', ht'⟩, ha'⟩ := hx'
  obtain ⟨rfl, hroot⟩ := blank_unique hb hb' (opens_tree ht _) (opens_tree ht' _) h
  obtain ⟨rfl, rfl⟩ := tree_unique ht ht' (ends_of_blank ha) (ends_of_blank ha') hroot
  rfl

variable (D) (E : Dialect)

theorem text_inf (x : Text) : (D.inf E).text x = true ↔ D.text x = true ∧ E.text x = true := by
  simp only [text, blank_inf, Bool.and_eq_true, tree_inf]
  constructor <;> simp +contextual

end Dialect

end Calcar.Lib.Json
