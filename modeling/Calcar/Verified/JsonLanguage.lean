import Calcar.Verified.JsonGrammar

/-!
# The parser against RFC 8259

The parser takes some texts that are not JSON and refuses every surrogate
escape.  `parse_conforms_iff` says on which texts it agrees with the grammar.
-/

namespace Calcar.Agent.Json

open Calcar.Lib.Json

variable {F : Type}

/-! ## The value the grammar assigns -/

/-- An integer of `i64`, written without point and exponent. -/
def integer (n : Numeral) : Option I64 :=
  if n.frac.isSome || n.exp.isSome then none
  else I64.ofInt (if n.minus then -(Nat.ofDigitChars 10 n.int 0) else Nat.ofDigitChars 10 n.int 0)

/-- The last of two members with one key stands. -/
def collect (entries : List (String × Value F)) : List (String × Value F) :=
  entries.foldl (fun map entry => insert entry.1 entry.2 map) []

mutual

/-- The value of a tree without surrogates that stand alone, if its numbers are integers
of `i64`. -/
def grammarValue : Tree → Option (Value F)
  | .word .null => some .null
  | .word .true => some (.bool true)
  | .word .false => some (.bool false)
  | .number n => (integer n).map .int
  | .string s => (decode s).map fun cs => .str (String.ofList cs)
  | .emptyArray _ => some (.arr [])
  | .array items => (grammarItems items).map .arr
  | .emptyObject _ => some (.obj [])
  | .object items => (grammarEntries items).map fun entries => .obj (collect entries)

def grammarItems : Elements → Option (List (Value F))
  | .last _ v _ => (grammarValue v).map fun w => [w]
  | .more _ v _ rest => (grammarValue v).bind fun w => (grammarItems rest).map (w :: ·)

/-- The members of an object in the order of the text. -/
def grammarEntries : Members → Option (List (String × Value F))
  | .last _ key _ _ v _ =>
      (decode key).bind fun k => (grammarValue v).map fun w => [(String.ofList k, w)]
  | .more _ key _ _ v _ rest =>
      (decode key).bind fun k => (grammarValue v).bind fun w =>
        (grammarEntries rest).map ((String.ofList k, w) :: ·)

end

/-! ## Conforming to the grammar -/

/-- The text is one of RFC 8259, its values at most `maxDepth` deep. -/
def IsJson (text : String) (x : Text) : Prop :=
  rfc.text x = true ∧ x.root.depth ≤ maxDepth ∧ x.chars = text.toList

/-- The parser takes the text exactly when it is JSON, and its value is the grammar's. -/
structure Conforms (f : F64 F) (text : String) : Prop where
  accepts : (parse f text).isSome = true ↔ ∃ x, IsJson text x
  value : ∀ x v w, IsJson text x → grammarValue x.root = some v → parse f text = some w → w = v

/-- However the text reads with the white space, the numbers and the escapes of `lax`, it
has a token outside RFC 8259 exactly when it has a surrogate escape. -/
def Balanced (text : String) : Prop :=
  ∀ x : Text, lax.text x = true → x.root.depth ≤ maxDepth → x.chars = text.toList →
    (rfc.text x = true ↔ scalar.text x = true)

/-! ## RFC 8259 is part of what is lax -/

theorem rfcUnit_code {a b c d : Char} (h : rfcUnit a b c d = true) :
    hex4 a b c d = some (unitCode a b c d) := by
  simp only [rfcUnit, Bool.and_eq_true] at h
  obtain ⟨⟨⟨ha, hb⟩, hc⟩, hd⟩ := h
  have hplus : a ≠ '+' := by
    rintro rfl
    exact absurd ha (by decide)
  obtain ⟨a', ha⟩ := Option.isSome_iff_exists.mp ha
  obtain ⟨b', hb⟩ := Option.isSome_iff_exists.mp hb
  obtain ⟨c', hc⟩ := Option.isSome_iff_exists.mp hc
  obtain ⟨d', hd⟩ := Option.isSome_iff_exists.mp hd
  rw [hex4, if_neg hplus]
  simp [hexDigits, unitCode, ha, hb, hc, hd]

theorem rfcWhite_lax {c : Char} (h : rfcWhite c = true) : isAsciiWhitespace c = true := by
  simp only [rfcWhite, Bool.or_eq_true, beq_iff_eq] at h
  rcases h with ((rfl | rfl) | rfl) | rfl <;> rfl

theorem rfcNumeral_lax {n : Numeral} (h : rfcNumeral n = true) : isF64 n = true := by
  simp only [rfcNumeral, Bool.and_eq_true] at h
  simp [isF64, h.1.1.1, h.2]

theorem and_of_imp {p q : Bool} (h : p = true → q = true) : (p && q) = p := by
  cases p with
  | false => rfl
  | true => exact h rfl

theorem rfc_lax : rfc.inf lax = rfc :=
  Dialect.ext (funext fun _ => and_of_imp rfcWhite_lax) (funext fun _ => and_of_imp rfcNumeral_lax)
    (funext fun _ => funext fun _ => funext fun _ => funext fun _ =>
      and_of_imp fun h => by
        rw [show lax.unit _ _ _ _ = _ from congrArg Option.isSome (rfcUnit_code h)]
        rfl)

theorem lax_of_rfc {x : Text} (h : rfc.text x = true) : lax.text x = true :=
  ((rfc.text_inf lax x).mp (by rw [rfc_lax]; exact h)).2

theorem accepted_iff {x : Text} :
    accepted.text x = true ↔ lax.text x = true ∧ scalar.text x = true :=
  lax.text_inf scalar x

/-! ## One value for both -/

theorem pieces_agree {s : List Piece} {cs : List Char} (hrfc : rfc.pieces s = true)
    (hscalar : scalar.pieces s = true) (h : decode s = some cs) : s.map pieceChar = cs := by
  induction s generalizing cs with
  | nil => exact Option.some.inj h
  | cons p s ih =>
      rw [Dialect.pieces, List.all_cons, Bool.and_eq_true] at hrfc hscalar
      have hmap : ∀ {c : Char}, pieceChar p = c → (decode s).map (c :: ·) = some cs →
          (p :: s).map pieceChar = cs := by
        intro c hc h
        obtain ⟨cs', hcs', rfl⟩ := Option.map_eq_some_iff.mp h
        rw [List.map_cons, hc, ih hrfc.2 hscalar.2 hcs']
      cases p with
      | plain c => exact hmap rfl h
      | escape c =>
          refine hmap ?_ h
          rw [pieceChar, shortEscape_escaped hrfc.1]
          rfl
      | unit a b c d =>
          have hcode := rfcUnit_code (show rfcUnit a b c d = true from hrfc.1)
          have hvalid : (unitCode a b c d).isValidChar := by
            have h := hscalar.1
            simp only [Dialect.piece, scalar, hcode, Option.all_some] at h
            exact of_decide_eq_true h
          rw [decode.eq_def] at h
          dsimp only at h
          rw [if_pos hvalid] at h
          refine hmap ?_ h
          rw [pieceChar, hcode, Option.bind_some, charFromU32, dif_pos hvalid]
          exact (dif_pos hvalid).symm

theorem number_agrees (f : F64 F) {n : Numeral} {i : I64} (hrfc : rfcNumeral n = true)
    (h : integer n = some i) : numberValue f n = some (.int i) := by
  simp only [rfcNumeral, Bool.and_eq_true, Bool.not_eq_true'] at hrfc
  unfold integer at h
  by_cases hpoint : (n.frac.isSome || n.exp.isSome) = true
  · rw [if_pos hpoint] at h
    cases h
  · rw [if_neg hpoint] at h
    have hint : ¬n.int.isEmpty = true := by simp [hrfc.1.1.1]
    have hparse : parseI64 n = some i := by rw [parseI64, if_neg hint, h]
    rw [numberValue, if_neg hpoint, if_neg hint, hparse]

mutual

theorem value_agrees (f : F64 F) : ∀ (t : Tree) {v : Value F}, rfc.tree t = true →
    scalar.tree t = true → grammarValue t = some v → treeValue f t = v
  | .word .null, _, _, _, h => Option.some.inj h
  | .word .true, _, _, _, h => Option.some.inj h
  | .word .false, _, _, _, h => Option.some.inj h
  | .number n, _, hrfc, _, h => by
      obtain ⟨i, hi, rfl⟩ := Option.map_eq_some_iff.mp h
      rw [Dialect.tree, Dialect.number, Bool.and_eq_true] at hrfc
      rw [treeValue, number_agrees f hrfc.2 hi]
      rfl
  | .string s, _, hrfc, hscalar, h => by
      obtain ⟨cs, hcs, rfl⟩ := Option.map_eq_some_iff.mp h
      rw [treeValue, keyText, pieces_agree hrfc hscalar hcs]
  | .emptyArray _, _, _, _, h => Option.some.inj h
  | .array items, _, hrfc, hscalar, h => by
      obtain ⟨vs, hvs, rfl⟩ := Option.map_eq_some_iff.mp h
      rw [treeValue, items_agree f items hrfc hscalar hvs]
  | .emptyObject _, _, _, _, h => Option.some.inj h
  | .object items, _, hrfc, hscalar, h => by
      obtain ⟨entries, hentries, rfl⟩ := Option.map_eq_some_iff.mp h
      rw [treeValue, members_agree f items hrfc hscalar hentries, collect]

theorem items_agree (f : F64 F) : ∀ (e : Elements) {vs : List (Value F)},
    rfc.elements e = true → scalar.elements e = true → grammarItems e = some vs →
    elementValues f e = vs
  | .last _ t _, _, hrfc, hscalar, h => by
      obtain ⟨v, hv, rfl⟩ := Option.map_eq_some_iff.mp h
      simp only [Dialect.elements, Bool.and_eq_true] at hrfc hscalar
      rw [elementValues, value_agrees f t hrfc.1.2 hscalar.1.2 hv]
  | .more _ t _ rest, _, hrfc, hscalar, h => by
      obtain ⟨v, hv, h⟩ := Option.bind_eq_some_iff.mp h
      obtain ⟨vs, hvs, rfl⟩ := Option.map_eq_some_iff.mp h
      simp only [Dialect.elements, Bool.and_eq_true] at hrfc hscalar
      rw [elementValues, value_agrees f t hrfc.1.1.2 hscalar.1.1.2 hv,
        items_agree f rest hrfc.2 hscalar.2 hvs]

theorem members_agree (f : F64 F) : ∀ (e : Members) {entries map : List (String × Value F)},
    rfc.members e = true → scalar.members e = true → grammarEntries e = some entries →
    memberValues f map e = entries.foldl (fun map entry => insert entry.1 entry.2 map) map
  | .last _ key _ _ t _, _, _, hrfc, hscalar, h => by
      obtain ⟨k, hk, h⟩ := Option.bind_eq_some_iff.mp h
      obtain ⟨v, hv, rfl⟩ := Option.map_eq_some_iff.mp h
      simp only [Dialect.members, Bool.and_eq_true] at hrfc hscalar
      rw [memberValues, keyText, pieces_agree hrfc.1.1.1.1.2 hscalar.1.1.1.1.2 hk,
        value_agrees f t hrfc.1.2 hscalar.1.2 hv]
      rfl
  | .more _ key _ _ t _ rest, _, _, hrfc, hscalar, h => by
      obtain ⟨k, hk, h⟩ := Option.bind_eq_some_iff.mp h
      obtain ⟨v, hv, h⟩ := Option.bind_eq_some_iff.mp h
      obtain ⟨entries, hentries, rfl⟩ := Option.map_eq_some_iff.mp h
      simp only [Dialect.members, Bool.and_eq_true] at hrfc hscalar
      rw [memberValues, keyText, pieces_agree hrfc.1.1.1.1.1.2 hscalar.1.1.1.1.1.2 hk,
        value_agrees f t hrfc.1.1.2 hscalar.1.1.2 hv,
        members_agree f rest hrfc.2 hscalar.2 hentries, List.foldl_cons]

end

/-! ## Where the parser conforms -/

theorem parse_isSome (f : F64 F) (text : String) : (parse f text).isSome = true ↔
    ∃ x : Text, accepted.text x = true ∧ x.root.depth ≤ maxDepth ∧ x.chars = text.toList := by
  rw [Option.isSome_iff_exists]
  constructor
  · rintro ⟨v, h⟩
    obtain ⟨x, hx, hdepth, hchars, -⟩ := (parse_iff f text v).mp h
    exact ⟨x, hx, hdepth, hchars⟩
  · rintro ⟨x, hx, hdepth, hchars⟩
    exact ⟨treeValue f x.root, (parse_iff f text _).mpr ⟨x, hx, hdepth, hchars, rfl⟩⟩

/-- **The parser agrees with RFC 8259 on exactly the balanced texts**: not on those where a
lax token stands without a surrogate escape, and not on JSON with a surrogate escape. -/
theorem parse_conforms_iff (f : F64 F) (text : String) : Conforms f text ↔ Balanced text := by
  constructor
  · intro h x hx hdepth hchars
    constructor
    · intro hrfc
      obtain ⟨y, hy, -, hy_chars⟩ :=
        (parse_isSome f text).mp (h.accepts.mpr ⟨x, hrfc, hdepth, hchars⟩)
      obtain ⟨hlax, hscalar⟩ := accepted_iff.mp hy
      rwa [Dialect.text_unique hx hlax (hchars.trans hy_chars.symm)]
    · intro hscalar
      obtain ⟨y, hy, -, hy_chars⟩ := h.accepts.mp
        ((parse_isSome f text).mpr ⟨x, accepted_iff.mpr ⟨hx, hscalar⟩, hdepth, hchars⟩)
      rwa [Dialect.text_unique hx (lax_of_rfc hy) (hchars.trans hy_chars.symm)]
  · intro h
    constructor
    · rw [parse_isSome]
      constructor
      · rintro ⟨x, hx, hdepth, hchars⟩
        obtain ⟨hlax, hscalar⟩ := accepted_iff.mp hx
        exact ⟨x, (h x hlax hdepth hchars).mpr hscalar, hdepth, hchars⟩
      · rintro ⟨x, hrfc, hdepth, hchars⟩
        have hlax := lax_of_rfc hrfc
        exact ⟨x, accepted_iff.mpr ⟨hlax, (h x hlax hdepth hchars).mp hrfc⟩, hdepth, hchars⟩
    · rintro x v w ⟨hrfc, hdepth, hchars⟩ hv hw
      have hlax := lax_of_rfc hrfc
      have hscalar := (h x hlax hdepth hchars).mp hrfc
      obtain ⟨y, hy, -, hy_chars, rfl⟩ := (parse_iff f text w).mp hw
      have hxy := Dialect.text_unique hlax (accepted_iff.mp hy).1 (hchars.trans hy_chars.symm)
      rw [← hxy]
      simp only [Dialect.text, Bool.and_eq_true] at hrfc hscalar
      exact value_agrees f x.root hrfc.1.2 hscalar.1.2 hv

/-- A surrogate pair: RFC 8259 reads one character, the parser refuses it. -/
theorem surrogate_pair_refused : ¬∀ (f : F64 Unit) (text : String), Conforms f text := by
  intro h
  have hjson : IsJson "\"\\ud83d\\ude00\""
      ⟨[], .string [.unit 'd' '8' '3' 'd', .unit 'd' 'e' '0' '0'], []⟩ :=
    ⟨by decide, by decide, by decide⟩
  have haccepts := (h ⟨fun _ => true, fun _ => [], fun _ => ()⟩ _).accepts.mpr ⟨_, hjson⟩
  exact absurd haccepts (by decide +kernel)

end Calcar.Agent.Json
