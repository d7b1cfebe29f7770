import Calcar.Agent.Json

/-!
# What the parser reads

The parser accepts the texts of one dialect, `accepted`, and gives each its
`treeValue`: `value_sound` and `value_complete`.
-/

namespace Calcar.Agent.Json

open Calcar.Lib.Json

variable {F : Type}

/-! ## The dialects -/

/-- What the parser lets pass in a token, a surrogate escape aside. -/
def lax : Dialect where
  white := isAsciiWhitespace
  numeral := isF64
  unit a b c d := (hex4 a b c d).isSome
  white_low c h := by
    simp only [isAsciiWhitespace, Bool.or_eq_true, beq_iff_eq] at h
    rcases h with (((rfl | rfl) | rfl) | rfl) | rfl <;> decide

/-- Every `\u` escape that reads as a number is of a character, not of a surrogate. -/
def scalar : Dialect where
  white c := decide (c.toNat ≤ 0x20)
  numeral _ := true
  unit a b c d := (hex4 a b c d).all fun code => decide code.isValidChar
  white_low _ h := of_decide_eq_true h

/-- The texts the parser takes. -/
def accepted : Dialect := lax.inf scalar

/-! ## The value of a tree -/

def pieceChar : Piece → Char
  | .plain c => c
  | .escape c => (shortEscape c).getD c
  | .unit a b c d => ((hex4 a b c d).bind charFromU32).getD ' '

def keyText (s : List Piece) : String :=
  String.ofList (s.map pieceChar)

mutual

/-- The value the parser gives to a tree. -/
def treeValue (f : F64 F) : Tree → Value F
  | .word .null => .null
  | .word .true => .bool true
  | .word .false => .bool false
  | .number n => (numberValue f n).getD .null
  | .string s => .str (keyText s)
  | .emptyArray _ => .arr []
  | .array items => .arr (elementValues f items)
  | .emptyObject _ => .obj []
  | .object items => .obj (memberValues f [] items)

def elementValues (f : F64 F) : Elements → List (Value F)
  | .last _ v _ => [treeValue f v]
  | .more _ v _ rest => treeValue f v :: elementValues f rest

def memberValues (f : F64 F) (map : List (String × Value F)) : Members → List (String × Value F)
  | .last _ key _ _ v _ => insert (keyText key) (treeValue f v) map
  | .more _ key _ _ v _ rest =>
      memberValues f (insert (keyText key) (treeValue f v) map) rest

end

/-! ## White space -/

theorem accepted_white (c : Char) : accepted.white c = isAsciiWhitespace c := by
  cases h : isAsciiWhitespace c with
  | false => simp [accepted, Dialect.inf, lax, h]
  | true => simp [accepted, Dialect.inf, lax, scalar, h, lax.white_low c h]

theorem blank_iff (w : List Char) : accepted.blank w = w.all isAsciiWhitespace := by
  rw [Dialect.blank, show accepted.white = isAsciiWhitespace from funext accepted_white]

theorem skip_split (s : List Char) : ∃ w, accepted.blank w = true ∧ w ++ skipWs s = s := by
  refine ⟨s.takeWhile isAsciiWhitespace, ?_, List.takeWhile_append_dropWhile⟩
  rw [blank_iff, List.all_takeWhile]

theorem skip_opens {s : List Char} (h : Opens s) : skipWs s = s := by
  cases s with
  | nil => rfl
  | cons c s =>
      have hc := h c rfl
      rw [skipWs, List.dropWhile_cons_of_neg]
      intro hw
      have := lax.white_low c hw
      omega

theorem skip_length (s : List Char) : (skipWs s).length ≤ s.length :=
  (List.dropWhile_suffix _).length_le

theorem skip_blank {w s : List Char} (hw : accepted.blank w = true) (h : Opens s) :
    skipWs (w ++ s) = s := by
  rw [blank_iff] at hw
  induction w with
  | nil => exact skip_opens h
  | cons c w ih =>
      rw [List.all_cons, Bool.and_eq_true] at hw
      rw [List.cons_append, skipWs, List.dropWhile_cons_of_pos hw.1]
      exact ih hw.2

/-! ## Strings -/

theorem shortEscape_some {esc ch : Char} (h : shortEscape esc = some ch) :
    escapes.contains esc = true := by
  rw [List.contains_iff_mem]
  refine Decidable.byContradiction fun hnot => ?_
  simp only [escapes, List.mem_cons, List.not_mem_nil, or_false, not_or] at hnot
  obtain ⟨h1, h2, h3, h4, h5, h6, h7, h8⟩ := hnot
  simp [shortEscape, h1, h2, h3, h4, h5, h6, h7, h8] at h

theorem shortEscape_escaped {esc : Char} (h : escapes.contains esc = true) :
    shortEscape esc = some (escaped esc) := by
  rw [List.contains_iff_mem] at h
  simp only [escapes, List.mem_cons, List.not_mem_nil, or_false] at h
  rcases h with rfl | rfl | rfl | rfl | rfl | rfl | rfl | rfl <;> rfl

theorem charFromU32_some {code : Nat} {ch : Char} (h : charFromU32 code = some ch) :
    code.isValidChar := by
  refine Decidable.byContradiction fun hinvalid => ?_
  rw [charFromU32, dif_neg hinvalid] at h
  cases h

theorem accepted_unit {a b c d ch : Char} (h : (hex4 a b c d).bind charFromU32 = some ch) :
    accepted.unit a b c d = true := by
  obtain ⟨code, hcode, hch⟩ := Option.bind_eq_some_iff.mp h
  simp [accepted, Dialect.inf, lax, scalar, hcode, charFromU32_some hch]

theorem unit_char {a b c d : Char} (h : accepted.unit a b c d = true) :
    (hex4 a b c d).bind charFromU32 = some (pieceChar (.unit a b c d)) := by
  simp only [accepted, Dialect.inf, lax, scalar, Bool.and_eq_true] at h
  obtain ⟨code, hcode⟩ := Option.isSome_iff_exists.mp h.1
  have hvalid : code.isValidChar := by simpa [hcode] using h.2
  rw [pieceChar, hcode, Option.bind_some, charFromU32, dif_pos hvalid]
  rfl

/-- What the pieces of a string leave to be read. -/
def Reads (s r : List Char) (out : List Char) : Prop :=
  ∃ ps, accepted.pieces ps = true ∧ ps.foldr Piece.put ('"' :: r) = s ∧ ps.map pieceChar = out

theorem Reads.more {p : Piece} {s r out : List Char} (hp : accepted.piece p = true)
    (h : Reads s r out) : Reads (p.put s) r (pieceChar p :: out) := by
  obtain ⟨ps, hps, hput, hout⟩ := h
  refine ⟨p :: ps, ?_, ?_, ?_⟩
  · rw [Dialect.pieces, List.all_cons, hp]
    exact hps
  · rw [List.foldr_cons, hput]
  · rw [List.map_cons, hout]

theorem map_push {ch : Char} {o : Option (List Char × List Char)} {out : List Char × List Char}
    (h : o.map (push ch) = some out) : ∃ cs, o = some (cs, out.2) ∧ out.1 = ch :: cs := by
  obtain ⟨⟨cs, r⟩, ho, hout⟩ := Option.map_eq_some_iff.mp h
  exact ⟨cs, by rw [ho, ← hout]; rfl, by rw [← hout]; rfl⟩

attribute [grind =] string

theorem string_unit (a b c d : Char) (r : List Char) :
    string ('\\' :: 'u' :: a :: b :: c :: d :: r) =
      ((hex4 a b c d).bind charFromU32).bind fun ch => (string r).map (push ch) := by
  rw [string]
  rfl

theorem string_escape {esc : Char} (h : esc ≠ 'u') (r : List Char) :
    string ('\\' :: esc :: r) =
      (shortEscape esc).bind fun ch => (string r).map (push ch) := by
  rw [string.eq_def]
  dsimp only
  rw [if_neg (by decide), if_pos rfl, if_neg h]

theorem string_plain {c : Char} (h : accepted.piece (.plain c) = true) (r : List Char) :
    string (c :: r) = (string r).map (push c) := by
  simp only [Dialect.piece, Bool.and_eq_true, bne_iff_ne, decide_eq_true_eq] at h
  rw [string.eq_def]
  dsimp only
  rw [if_neg h.1.1, if_neg h.1.2, if_neg (Nat.not_lt.mpr h.2)]

theorem string_quote (r : List Char) : string ('"' :: r) = some ([], r) := by
  rw [string.eq_def]
  rfl

/-- **One round of the loop reads one piece.** -/
theorem string_piece {p : Piece} (h : accepted.piece p = true) (r : List Char) :
    string (p.put r) = (string r).map (push (pieceChar p)) := by
  cases p with
  | plain c => exact string_plain h r
  | escape c =>
      have hne : c ≠ 'u' := by
        rintro rfl
        exact absurd h (by rw [Dialect.piece]; decide)
      rw [Piece.put, string_escape hne, pieceChar, shortEscape_escaped h]
      rfl
  | unit a b c d =>
      rw [Piece.put, string_unit, unit_char h]
      rfl

theorem string_complete {ps : List Piece} (h : accepted.pieces ps = true) (r : List Char) :
    string (ps.foldr Piece.put ('"' :: r)) = some (ps.map pieceChar, r) := by
  induction ps with
  | nil => exact string_quote r
  | cons p ps ih =>
      rw [Dialect.pieces, List.all_cons, Bool.and_eq_true] at h
      rw [List.foldr_cons, string_piece h.1, ih h.2]
      rfl

theorem string_sound {s : List Char} : ∀ {out : List Char × List Char}, string s = some out →
    Reads s out.2 out.1 := by
  induction s using string.induct with
  | case1 => exact fun h => by cases h
  | case2 rest =>
      intro out h
      rw [string_quote] at h
      cases h
      exact ⟨[], rfl, rfl, rfl⟩
  | case3 _ => exact fun h => by cases h
  | case4 a b c d rest _ ih =>
      intro out h
      rw [string_unit] at h
      obtain ⟨ch, hch, h⟩ := Option.bind_eq_some_iff.mp h
      obtain ⟨cs, hcs, hout⟩ := map_push h
      have hunit := accepted_unit hch
      have hmore := (ih hcs).more (p := .unit a b c d) hunit
      rw [unit_char hunit] at hch
      rw [hout, ← Option.some.inj hch]
      exact hmore
  | case5 rest hshort _ =>
      intro out h
      match rest, hshort with
      | [], _ => cases h
      | [_], _ => cases h
      | [_, _], _ => cases h
      | [_, _, _], _ => cases h
      | a :: b :: c :: d :: rest, hshort => exact (hshort a b c d rest rfl).elim
  | case6 esc rest hne _ ih =>
      intro out h
      rw [string_escape hne] at h
      obtain ⟨ch, hch, h⟩ := Option.bind_eq_some_iff.mp h
      obtain ⟨cs, hcs, hout⟩ := map_push h
      have hmore := (ih hcs).more (p := .escape esc) (shortEscape_some hch)
      rw [pieceChar, hch] at hmore
      rw [hout]
      exact hmore
  | case7 c rest hquote hbar hlow =>
      intro out h
      rw [string.eq_def] at h
      dsimp only at h
      rw [if_neg hquote, if_neg hbar, if_pos hlow] at h
      cases h
  | case8 c rest hquote hbar hlow ih =>
      intro out h
      have hp : accepted.piece (.plain c) = true := by
        simp only [Dialect.piece, Bool.and_eq_true, bne_iff_ne, decide_eq_true_eq]
        exact ⟨⟨hquote, hbar⟩, Nat.not_lt.mp hlow⟩
      rw [string_plain hp] at h
      obtain ⟨cs, hcs, hout⟩ := map_push h
      rw [hout]
      exact (ih hcs).more hp

/-! ## Numbers -/

theorem digits_split (s : List Char) :
    (digits s).1.all Char.isDigit = true ∧ (digits s).1 ++ (digits s).2 = s :=
  ⟨List.all_takeWhile, List.takeWhile_append_dropWhile⟩

theorem digits_run {ds r : List Char} (hds : ds.all Char.isDigit = true)
    (hr : ∀ c ∈ r.head?, c.isDigit = false) : digits (ds ++ r) = (ds, r) := by
  obtain ⟨hall, hsplit⟩ := digits_split (ds ++ r)
  have hrest : ∀ c ∈ (digits (ds ++ r)).2.head?, c.isDigit = false := by
    intro c hc
    have := List.head?_dropWhile_not Char.isDigit (ds ++ r)
    rw [show (ds ++ r).dropWhile Char.isDigit = (digits (ds ++ r)).2 from rfl, hc] at this
    simpa using this
  obtain ⟨h1, h2⟩ := run_unique hall hds hrest hr hsplit
  exact Prod.ext h1 h2

theorem scanFrac_split (s : List Char) :
    (∀ ds, (scanFrac s).1 = some ds → ds.all Char.isDigit = true) ∧
      putFrac (scanFrac s).1 (scanFrac s).2 = s := by
  cases s with
  | nil => exact ⟨fun _ h => (by cases h), rfl⟩
  | cons c s =>
      by_cases hc : c = '.'
      · rw [scanFrac, if_pos hc, hc]
        refine ⟨fun ds h => ?_, ?_⟩
        · rw [← Option.some.inj h]
          exact (digits_split s).1
        · rw [putFrac, (digits_split s).2]
      · rw [scanFrac, if_neg hc]
        exact ⟨fun _ h => (by cases h), rfl⟩

theorem scanSign_split (s : List Char) :
    (∀ c, (scanSign s).1 = some c → c = '+' ∨ c = '-') ∧
      (scanSign s).1.toList ++ (scanSign s).2 = s := by
  cases s with
  | nil => exact ⟨fun _ h => (by cases h), rfl⟩
  | cons c s =>
      by_cases hc : c = '+' ∨ c = '-'
      · rw [scanSign, if_pos hc]
        refine ⟨fun d h => ?_, rfl⟩
        rw [← Option.some.inj h]
        exact hc
      · rw [scanSign, if_neg hc]
        exact ⟨fun _ h => (by cases h), rfl⟩

theorem scanExp_split (s : List Char) :
    (∀ e, (scanExp s).1 = some e → (e.mark = 'e' ∨ e.mark = 'E') ∧
      (∀ c, e.sign = some c → c = '+' ∨ c = '-') ∧ e.digits.all Char.isDigit = true) ∧
      putExp (scanExp s).1 (scanExp s).2 = s := by
  cases s with
  | nil => exact ⟨fun _ h => (by cases h), rfl⟩
  | cons c s =>
      by_cases hc : c = 'e' ∨ c = 'E'
      · rw [scanExp, if_pos hc]
        refine ⟨fun e h => ?_, ?_⟩
        · rw [← Option.some.inj h]
          exact ⟨hc, (scanSign_split s).1, (digits_split _).1⟩
        · rw [putExp, Exponent.put, (digits_split _).2, (scanSign_split s).2]
      · rw [scanExp, if_neg hc]
        exact ⟨fun _ h => (by cases h), rfl⟩

theorem scanRest_split (minus : Bool) (s : List Char) :
    (if minus then ['-'] else []) ++ s = (scanRest minus s).1.put (scanRest minus s).2 := by
  show _ ++ s = _ ++ ((digits s).1 ++
    putFrac (scanFrac (digits s).2).1 (putExp (scanExp (scanFrac (digits s).2).2).1
      (scanExp (scanFrac (digits s).2).2).2))
  rw [(scanExp_split _).2, (scanFrac_split _).2, (digits_split s).2]
  rfl

theorem scanRest_shape {minus : Bool} {s : List Char}
    (h : minus = true ∨ (digits s).1 ≠ []) : (scanRest minus s).1.shape = true :=
  (Numeral.shape_iff _).mpr
    ⟨h, (digits_split s).1, (scanFrac_split _).1, (scanExp_split _).1⟩

theorem scan_sound {c : Char} {s : List Char} (hc : c = '-' ∨ c.isDigit = true) :
    (scan (c :: s)).1.shape = true ∧ (scan (c :: s)).1.put (scan (c :: s)).2 = c :: s := by
  by_cases hminus : c = '-'
  · rw [scan, if_pos hminus, hminus]
    exact ⟨scanRest_shape (.inl rfl), (scanRest_split true s).symm⟩
  · rw [scan, if_neg hminus]
    refine ⟨scanRest_shape (.inr ?_), (scanRest_split false (c :: s)).symm⟩
    rw [digits, List.takeWhile_cons_of_pos (hc.resolve_left hminus)]
    exact List.cons_ne_nil _ _

theorem scanFrac_run {frac : Option (List Char)} {r : List Char}
    (hf : ∀ ds, frac = some ds → ds.all Char.isDigit = true)
    (hr : ∀ c ∈ r.head?, c.isDigit = false ∧ c ≠ '.') :
    scanFrac (putFrac frac r) = (frac, r) := by
  cases frac with
  | none =>
      cases r with
      | nil => rfl
      | cons c r => exact if_neg (hr c rfl).2
  | some ds =>
      rw [putFrac, scanFrac, if_pos rfl, digits_run (hf ds rfl) fun c hc => (hr c hc).1]

theorem scanSign_run {sign : Option Char} {ds r : List Char}
    (hs : ∀ c, sign = some c → c = '+' ∨ c = '-') (hd : ds.all Char.isDigit = true)
    (hr : Ends r) : scanSign (sign.toList ++ (ds ++ r)) = (sign, ds ++ r) := by
  cases sign with
  | some c => exact if_pos (hs c rfl)
  | none =>
      cases ds with
      | cons d ds =>
          rw [List.all_cons, Bool.and_eq_true] at hd
          refine if_neg ?_
          rintro (rfl | rfl) <;> exact absurd hd.1 (by decide)
      | nil =>
          cases r with
          | nil => rfl
          | cons c r =>
              refine if_neg ?_
              rintro (rfl | rfl) <;> exact absurd (hr _ rfl) (by decide)

theorem scanExp_run {exp : Option Exponent} {r : List Char}
    (he : ∀ e, exp = some e → (e.mark = 'e' ∨ e.mark = 'E') ∧
      (∀ c, e.sign = some c → c = '+' ∨ c = '-') ∧ e.digits.all Char.isDigit = true)
    (hr : Ends r) : scanExp (putExp exp r) = (exp, r) := by
  cases exp with
  | none =>
      cases r with
      | nil => rfl
      | cons c r =>
          refine if_neg ?_
          rintro (rfl | rfl) <;> exact absurd (hr _ rfl) (by decide)
  | some e =>
      obtain ⟨hm, hs, hd⟩ := he e rfl
      rw [putExp, Exponent.put, scanExp, if_pos hm, scanSign_run hs hd hr,
        digits_run hd hr.no_digit]

theorem scanRest_run (minus : Bool) {int : List Char} {frac : Option (List Char)}
    {exp : Option Exponent} {r : List Char} (hint : int.all Char.isDigit = true)
    (hf : ∀ ds, frac = some ds → ds.all Char.isDigit = true)
    (he : ∀ e, exp = some e → (e.mark = 'e' ∨ e.mark = 'E') ∧
      (∀ c, e.sign = some c → c = '+' ∨ c = '-') ∧ e.digits.all Char.isDigit = true)
    (hr : Ends r) :
    scanRest minus (int ++ putFrac frac (putExp exp r)) = (⟨minus, int, frac, exp⟩, r) := by
  have hexp := putExp_head (fun e h => (he e h).1) hr
  rw [scanRest, digits_run hint (putFrac_head hexp)]
  dsimp only
  rw [scanFrac_run hf hexp, scanExp_run he hr]

theorem scan_complete {n : Numeral} {r : List Char} (hn : n.shape = true) (hr : Ends r) :
    scan (n.put r) = (n, r) := by
  obtain ⟨hstart, hint, hfrac, hexp⟩ := n.shape_iff.mp hn
  obtain ⟨minus, int, frac, exp⟩ := n
  have hrun := scanRest_run minus hint hfrac hexp hr
  cases minus with
  | true => exact hrun
  | false =>
      cases int with
      | nil => exact absurd rfl (hstart.resolve_left Bool.false_ne_true)
      | cons d ds =>
          have hd : d ≠ '-' := by
            rintro rfl
            rw [List.all_cons, Bool.and_eq_true] at hint
            exact absurd hint.1 (by decide)
          rw [← hrun]
          exact if_neg hd

theorem accepted_number (n : Numeral) :
    accepted.number n = true ↔ n.shape = true ∧ isF64 n = true := by
  show (n.shape && (isF64 n && true)) = true ↔ _
  rw [Bool.and_true, Bool.and_eq_true]

/-- **A number is taken exactly when its text is one of `f64`.** -/
theorem numberValue_isSome (f : F64 F) (n : Numeral) :
    (numberValue f n).isSome = isF64 n := by
  have hfloat : ((parseF64 f n).map Value.float).isSome = isF64 n := by
    cases h : isF64 n <;> simp [parseF64, h]
  unfold numberValue
  by_cases hpoint : (n.frac.isSome || n.exp.isSome) = true
  · rw [if_pos hpoint, hfloat]
  · rw [if_neg hpoint]
    simp only [Bool.or_eq_true, not_or, Bool.not_eq_true, Option.isSome_eq_false_iff,
      Option.isNone_iff_eq_none] at hpoint
    have hf64 : isF64 n = !n.int.isEmpty := by simp [isF64, hpoint.1, hpoint.2]
    by_cases hint : n.int.isEmpty = true
    · rw [if_pos hint, hf64, hint]
      rfl
    · rw [if_neg hint]
      cases parseI64 n with
      | none => exact hfloat
      | some i => simp [hf64, hint]

/-! ## What is accepted has a tree -/

/-- Where `read` succeeds it has read a tree less than `room` deep. -/
def Sound (f : F64 F) (room : Nat) (read : List Char → Option (Value F × List Char)) : Prop :=
  ∀ s v r, read s = some (v, r) →
    ∃ t, accepted.tree t = true ∧ t.depth < room ∧ t.put r = s ∧ treeValue f t = v

section
variable {f : F64 F} {room : Nat} {read : List Char → Option (Value F × List Char)}

theorem items_sound (hread : Sound f room read) : ∀ {n : Nat} {s : List Char}
    {vs : List (Value F)} {r : List Char}, items read n s = some (vs, r) →
    ∃ e, accepted.elements e = true ∧ e.depth < room ∧ e.put r = s ∧ elementValues f e = vs := by
  intro n
  induction n with
  | zero => exact fun h => by cases h
  | succ n ih =>
      intro s vs r h
      obtain ⟨⟨v, s₁⟩, hv, h⟩ := Option.bind_eq_some_iff.mp h
      dsimp only at h
      obtain ⟨t, ht, hdepth, hput, rfl⟩ := hread _ _ _ hv
      obtain ⟨before, hbefore, hsplit⟩ := skip_split s
      obtain ⟨after, hafter, hsplit₁⟩ := skip_split s₁
      cases hrest : skipWs s₁ with
      | nil =>
          rw [hrest] at h
          cases h
      | cons c s₂ =>
          rw [hrest] at h hsplit₁
          dsimp only at h
          by_cases hcomma : c = ','
          · rw [if_pos hcomma] at h
            obtain ⟨⟨ws, r'⟩, hitems, hout⟩ := Option.map_eq_some_iff.mp h
            cases hout
            obtain ⟨e, he, hedepth, heput, rfl⟩ := ih hitems
            refine ⟨.more before t after e, ?_, ?_, ?_, rfl⟩
            · simp only [Dialect.elements, hbefore, ht, hafter, he, Bool.and_self]
            · exact Nat.max_lt.mpr ⟨hdepth, hedepth⟩
            · rw [Elements.put, heput, ← hcomma, hsplit₁, hput, hsplit]
          · rw [if_neg hcomma] at h
            obtain ⟨hclose, h⟩ := Option.ite_none_right_eq_some.1 h
            cases h
            refine ⟨.last before t after, ?_, hdepth, ?_, rfl⟩
            · simp only [Dialect.elements, hbefore, ht, hafter, Bool.and_self]
            · rw [Elements.put, ← hclose, hsplit₁, hput, hsplit]

theorem skip_idem (s : List Char) : skipWs (skipWs s) = skipWs s := by
  cases h : skipWs s with
  | nil => rfl
  | cons c r =>
      have := List.head?_dropWhile_not isAsciiWhitespace s
      rw [show s.dropWhile isAsciiWhitespace = c :: r from h] at this
      exact List.dropWhile_cons_of_neg (by simpa using this)

theorem items_skip (n : Nat) (s : List Char) :
    items read (n + 1) (skipWs s) = items read (n + 1) s := by
  rw [items, items, skip_idem]

theorem members_skip (n : Nat) (map : List (String × Value F)) (s : List Char) :
    members read (n + 1) map (skipWs s) = members read (n + 1) map s := by
  rw [members, members, skip_idem]

theorem array_sound (hread : Sound f room read) {s : List Char} {v : Value F} {r : List Char}
    (h : array read s = some (v, r)) :
    ∃ t, accepted.tree t = true ∧ t.depth < room + 1 ∧ t.put r = '[' :: s ∧
      treeValue f t = v := by
  obtain ⟨pad, hpad, hsplit⟩ := skip_split s
  unfold array at h
  cases hrest : skipWs s with
  | nil =>
      rw [hrest] at h
      cases h
  | cons c s₁ =>
      rw [hrest] at h hsplit
      dsimp only at h
      by_cases hclose : c = ']'
      · rw [if_pos hclose] at h
        cases h
        refine ⟨.emptyArray pad, hpad, Nat.succ_pos _, ?_, rfl⟩
        rw [Tree.put, ← hclose, hsplit]
      · rw [if_neg hclose] at h
        obtain ⟨⟨vs, r'⟩, hitems, hout⟩ := Option.map_eq_some_iff.mp h
        cases hout
        rw [← hrest, items_skip] at hitems
        obtain ⟨e, he, hdepth, hput, rfl⟩ := items_sound hread hitems
        exact ⟨.array e, he, Nat.succ_lt_succ hdepth, by rw [Tree.put, hput], rfl⟩

theorem member_sound (hread : Sound f room read) {s : List Char} {entry : String × Value F}
    {r : List Char} (h : member read s = some (entry, r)) :
    ∃ key keyEnd colonEnd t, accepted.pieces key = true ∧ accepted.blank keyEnd = true ∧
      accepted.blank colonEnd = true ∧ accepted.tree t = true ∧ t.depth < room ∧
      putString key (keyEnd ++ ':' :: (colonEnd ++ t.put r)) = s ∧
      entry = (keyText key, treeValue f t) := by
  cases s with
  | nil => cases h
  | cons c s =>
      unfold member at h
      dsimp only at h
      obtain ⟨hquote, h⟩ := Option.ite_none_right_eq_some.1 h
      obtain ⟨⟨out, s₁⟩, hstring, h⟩ := Option.bind_eq_some_iff.mp h
      dsimp only at h
      obtain ⟨key, hkey, hkeyput, hout⟩ := string_sound hstring
      obtain ⟨keyEnd, hkeyEnd, hsplit⟩ := skip_split s₁
      cases hrest : skipWs s₁ with
      | nil =>
          rw [hrest] at h
          cases h
      | cons d s₂ =>
          rw [hrest] at h hsplit
          dsimp only at h
          obtain ⟨hcolon, h⟩ := Option.ite_none_right_eq_some.1 h
          obtain ⟨⟨v, r'⟩, hv, hentry⟩ := Option.map_eq_some_iff.mp h
          cases hentry
          obtain ⟨colonEnd, hcolonEnd, hsplit₂⟩ := skip_split s₂
          obtain ⟨t, ht, hdepth, hput, rfl⟩ := hread _ _ _ hv
          refine ⟨key, keyEnd, colonEnd, t, hkey, hkeyEnd, hcolonEnd, ht, hdepth, ?_, ?_⟩
          · rw [hput, hsplit₂, ← hcolon, hsplit, putString, hkeyput, hquote]
          · rw [keyText, hout]

theorem members_sound (hread : Sound f room read) : ∀ {n : Nat} {map : List (String × Value F)}
    {s : List Char} {map' : List (String × Value F)} {r : List Char},
    members read n map s = some (map', r) →
    ∃ e, accepted.members e = true ∧ e.depth < room ∧ e.put r = s ∧
      memberValues f map e = map' := by
  intro n
  induction n with
  | zero => exact fun h => by cases h
  | succ n ih =>
      intro map s map' r h
      obtain ⟨⟨entry, s₁⟩, hentry, h⟩ := Option.bind_eq_some_iff.mp h
      dsimp only at h
      obtain ⟨key, keyEnd, colonEnd, t, hkey, hkeyEnd, hcolonEnd, ht, hdepth, hput, rfl⟩ :=
        member_sound hread hentry
      obtain ⟨before, hbefore, hsplit⟩ := skip_split s
      obtain ⟨after, hafter, hsplit₁⟩ := skip_split s₁
      cases hrest : skipWs s₁ with
      | nil =>
          rw [hrest] at h
          cases h
      | cons c s₂ =>
          rw [hrest] at h hsplit₁
          dsimp only at h
          by_cases hcomma : c = ','
          · rw [if_pos hcomma] at h
            obtain ⟨e, he, hedepth, heput, hvalue⟩ := ih h
            refine ⟨.more before key keyEnd colonEnd t after e, ?_, ?_, ?_, hvalue⟩
            · simp only [Dialect.members, hbefore, hkey, hkeyEnd, hcolonEnd, ht, hafter, he,
                Bool.and_self]
            · exact Nat.max_lt.mpr ⟨hdepth, hedepth⟩
            · rw [Members.put, heput, ← hcomma, hsplit₁, hput, hsplit]
          · rw [if_neg hcomma] at h
            obtain ⟨hclose, h⟩ := Option.ite_none_right_eq_some.1 h
            cases h
            refine ⟨.last before key keyEnd colonEnd t after, ?_, hdepth, ?_, rfl⟩
            · simp only [Dialect.members, hbefore, hkey, hkeyEnd, hcolonEnd, ht, hafter,
                Bool.and_self]
            · rw [Members.put, ← hclose, hsplit₁, hput, hsplit]

theorem object_sound (hread : Sound f room read) {s : List Char} {v : Value F} {r : List Char}
    (h : object read s = some (v, r)) :
    ∃ t, accepted.tree t = true ∧ t.depth < room + 1 ∧ t.put r = '{' :: s ∧
      treeValue f t = v := by
  obtain ⟨pad, hpad, hsplit⟩ := skip_split s
  unfold object at h
  cases hrest : skipWs s with
  | nil =>
      rw [hrest] at h
      cases h
  | cons c s₁ =>
      rw [hrest] at h hsplit
      dsimp only at h
      by_cases hclose : c = '}'
      · rw [if_pos hclose] at h
        cases h
        refine ⟨.emptyObject pad, hpad, Nat.succ_pos _, ?_, rfl⟩
        rw [Tree.put, ← hclose, hsplit]
      · rw [if_neg hclose] at h
        obtain ⟨⟨map, r'⟩, hmembers, hout⟩ := Option.map_eq_some_iff.mp h
        cases hout
        rw [← hrest, members_skip] at hmembers
        obtain ⟨e, he, hdepth, hput, rfl⟩ := members_sound hread hmembers
        exact ⟨.object e, he, Nat.succ_lt_succ hdepth, by rw [Tree.put, hput], rfl⟩

theorem lit_sound {word s r : List Char} (h : lit word s = some r) : s = word ++ r := by
  unfold lit at h
  obtain ⟨hword, h⟩ := Option.ite_none_right_eq_some.1 h
  have hsplit := List.take_append_drop word.length s
  rw [hword, Option.some.inj h] at hsplit
  exact hsplit.symm

theorem word_sound (w : Word) {word s : List Char} {v : Value F} {out : Value F × List Char}
    (hput : ∀ r, w.put r = word ++ r) (hvalue : treeValue f (.word w) = v)
    (h : ((lit word s).map fun rest => (v, rest)) = some out) :
    ∃ t, accepted.tree t = true ∧ t.depth < room + 1 ∧ t.put out.2 = s ∧
      treeValue f t = out.1 := by
  obtain ⟨rest, hlit, rfl⟩ := Option.map_eq_some_iff.mp h
  exact ⟨.word w, rfl, Nat.succ_pos _, (hput rest).trans (lit_sound hlit).symm, hvalue⟩

theorem number_sound {c : Char} {s : List Char} {v : Value F} {r : List Char}
    (hc : c = '-' ∨ c.isDigit = true) (h : number f (c :: s) = some (v, r)) :
    ∃ t, accepted.tree t = true ∧ t.depth = 0 ∧ t.put r = c :: s ∧ treeValue f t = v := by
  obtain ⟨hshape, hput⟩ := scan_sound (s := s) hc
  obtain ⟨w, hw, hout⟩ := Option.map_eq_some_iff.mp h
  cases hout
  refine ⟨.number (scan (c :: s)).1, ?_, rfl, hput, ?_⟩
  · rw [Dialect.tree, accepted_number]
    exact ⟨hshape, by rw [← numberValue_isSome f, hw]; rfl⟩
  · rw [treeValue, hw]
    rfl

end

/-- **What the parser reads has a tree**, of the value it gives. -/
theorem value_sound (f : F64 F) (room : Nat) : Sound f room (value f room) := by
  induction room with
  | zero => exact fun s v r h => by cases h
  | succ room ih =>
      intro s v r h
      cases s with
      | nil => cases h
      | cons c s =>
          unfold value at h
          by_cases hobject : c = '{'
          · rw [if_pos hobject] at h
            rw [hobject]
            exact object_sound ih h
          rw [if_neg hobject] at h
          by_cases harray : c = '['
          · rw [if_pos harray] at h
            rw [harray]
            exact array_sound ih h
          rw [if_neg harray] at h
          by_cases hquote : c = '"'
          · rw [if_pos hquote] at h
            obtain ⟨out, hstring, hout⟩ := Option.map_eq_some_iff.mp h
            cases hout
            obtain ⟨ps, hps, hput, htext⟩ := string_sound hstring
            refine ⟨.string ps, hps, Nat.succ_pos _, ?_, ?_⟩
            · rw [Tree.put, putString, hput, hquote]
            · rw [treeValue, keyText, htext]
          rw [if_neg hquote] at h
          by_cases htrue : c = 't'
          · rw [if_pos htrue] at h
            exact word_sound .true (fun _ => rfl) rfl h
          rw [if_neg htrue] at h
          by_cases hfalse : c = 'f'
          · rw [if_pos hfalse] at h
            exact word_sound .false (fun _ => rfl) rfl h
          rw [if_neg hfalse] at h
          by_cases hnull : c = 'n'
          · rw [if_pos hnull] at h
            exact word_sound .null (fun _ => rfl) rfl h
          rw [if_neg hnull] at h
          obtain ⟨hnumber, h⟩ := Option.ite_none_right_eq_some.1 h
          obtain ⟨t, ht, hdepth, hput, hvalue⟩ := number_sound hnumber h
          exact ⟨t, ht, by rw [hdepth]; exact Nat.succ_pos _, hput, hvalue⟩

/-! ## What has a tree is accepted -/

/-- `read` reads every tree less than `room` deep, in front of what ends it. -/
def Complete (f : F64 F) (room : Nat) (read : List Char → Option (Value F × List Char)) : Prop :=
  ∀ t r, accepted.tree t = true → t.depth < room → Ends r →
    read (t.put r) = some (treeValue f t, r)

section
variable {f : F64 F} {room : Nat} {read : List Char → Option (Value F × List Char)}

/-- A value, the white space around it and what closes it. -/
theorem read_closed (hread : Complete f room read) {before after r : List Char} {t : Tree}
    {c : Char} (hb : accepted.blank before = true) (ht : accepted.tree t = true)
    (ha : accepted.blank after = true) (hdepth : t.depth < room)
    (hc : 0x20 < c.toNat ∧ numeric c = false) :
    read (skipWs (before ++ t.put (after ++ c :: r))) =
      some (treeValue f t, after ++ c :: r) ∧ skipWs (after ++ c :: r) = c :: r := by
  refine ⟨?_, skip_blank ha (opens_cons hc.1)⟩
  rw [skip_blank hb (Dialect.opens_tree ht _)]
  exact hread t _ ht hdepth (Dialect.ends_close ha hc.2)

theorem items_complete (hread : Complete f room read) : ∀ (e : Elements) {n : Nat}
    {r : List Char}, accepted.elements e = true → e.depth < room → (skipWs (e.put r)).length ≤ n →
    items read n (e.put r) = some (elementValues f e, r)
  | .last before t after, n, r, he, hdepth, hn => by
      simp only [Dialect.elements, Bool.and_eq_true] at he
      obtain ⟨⟨hb, ht⟩, ha⟩ := he
      obtain ⟨hval, hskip⟩ := read_closed (r := r) (c := ']') hread hb ht ha hdepth (by decide)
      obtain ⟨m, rfl⟩ : ∃ m, n = m + 1 := by
        have := t.put_length (after ++ ']' :: r)
        rw [Elements.put, skip_blank hb (Dialect.opens_tree ht _)] at hn
        simp only [List.length_append, List.length_cons] at this
        exact ⟨n - 1, by omega⟩
      rw [items, Elements.put, hval, Option.bind_eq_bind, Option.bind_some]
      dsimp only
      rw [hskip]
      rfl
  | .more before t after rest, n, r, he, hdepth, hn => by
      simp only [Dialect.elements, Bool.and_eq_true] at he
      obtain ⟨⟨⟨hb, ht⟩, ha⟩, hrest⟩ := he
      obtain ⟨hdepth, hdepthRest⟩ := Nat.max_lt.mp hdepth
      obtain ⟨hval, hskip⟩ :=
        read_closed (r := rest.put r) (c := ',') hread hb ht ha hdepth (by decide)
      have hlen : (skipWs (rest.put r)).length < n := by
        have := t.put_length (after ++ ',' :: rest.put r)
        have := skip_length (rest.put r)
        rw [Elements.put, skip_blank hb (Dialect.opens_tree ht _)] at hn
        simp only [List.length_append, List.length_cons] at *
        omega
      obtain ⟨m, rfl⟩ : ∃ m, n = m + 1 := ⟨n - 1, by omega⟩
      have ih := items_complete hread rest hrest hdepthRest (Nat.le_of_lt_succ hlen)
      rw [items, Elements.put, hval, Option.bind_eq_bind, Option.bind_some]
      dsimp only
      rw [hskip]
      dsimp only
      rw [if_pos rfl, ih]
      rfl

theorem member_complete (hread : Complete f room read) {key : List Piece}
    {keyEnd colonEnd r : List Char} {t : Tree} (hkey : accepted.pieces key = true)
    (hkeyEnd : accepted.blank keyEnd = true) (hcolonEnd : accepted.blank colonEnd = true)
    (ht : accepted.tree t = true) (hdepth : t.depth < room) (hr : Ends r) :
    member read (putString key (keyEnd ++ ':' :: (colonEnd ++ t.put r))) =
      some ((keyText key, treeValue f t), r) := by
  rw [putString, member, if_pos rfl, string_complete hkey, Option.bind_eq_bind,
    Option.bind_some]
  dsimp only
  rw [skip_blank hkeyEnd (opens_cons (by decide))]
  dsimp only
  rw [if_pos rfl, skip_blank hcolonEnd (Dialect.opens_tree ht _), hread t r ht hdepth hr]
  rfl

theorem members_complete (hread : Complete f room read) : ∀ (e : Members)
    (map : List (String × Value F)) {n : Nat} {r : List Char}, accepted.members e = true →
    e.depth < room → (skipWs (e.put r)).length ≤ n →
    members read n map (e.put r) = some (memberValues f map e, r)
  | .last before key keyEnd colonEnd t after, map, n, r, he, hdepth, hn => by
      simp only [Dialect.members, Bool.and_eq_true] at he
      obtain ⟨⟨⟨⟨⟨hb, hk⟩, hke⟩, hce⟩, ht⟩, ha⟩ := he
      obtain ⟨m, rfl⟩ : ∃ m, n = m + 1 := by
        have := putString_length key (keyEnd ++ ':' :: (colonEnd ++ t.put (after ++ '}' :: r)))
        rw [Members.put, skip_blank hb (Dialect.opens_string _ _)] at hn
        exact ⟨n - 1, by omega⟩
      rw [members, Members.put, skip_blank hb (Dialect.opens_string _ _),
        member_complete hread hk hke hce ht hdepth (Dialect.ends_close ha (by decide)),
        Option.bind_eq_bind, Option.bind_some]
      dsimp only
      rw [skip_blank ha (opens_cons (by decide))]
      rfl
  | .more before key keyEnd colonEnd t after rest, map, n, r, he, hdepth, hn => by
      simp only [Dialect.members, Bool.and_eq_true] at he
      obtain ⟨⟨⟨⟨⟨⟨hb, hk⟩, hke⟩, hce⟩, ht⟩, ha⟩, hrest⟩ := he
      obtain ⟨hdepth, hdepthRest⟩ := Nat.max_lt.mp hdepth
      have hlen : (skipWs (rest.put r)).length < n := by
        have := t.put_length (after ++ ',' :: rest.put r)
        have := putString_length key
          (keyEnd ++ ':' :: (colonEnd ++ t.put (after ++ ',' :: rest.put r)))
        have := skip_length (rest.put r)
        rw [Members.put, skip_blank hb (Dialect.opens_string _ _)] at hn
        simp only [List.length_append, List.length_cons] at *
        omega
      obtain ⟨m, rfl⟩ : ∃ m, n = m + 1 := ⟨n - 1, by omega⟩
      have ih := fun map =>
        members_complete hread rest map hrest hdepthRest (Nat.le_of_lt_succ hlen)
      rw [members, Members.put, skip_blank hb (Dialect.opens_string _ _),
        member_complete hread hk hke hce ht hdepth (Dialect.ends_close ha (by decide)),
        Option.bind_eq_bind, Option.bind_some]
      dsimp only
      rw [skip_blank ha (opens_cons (by decide))]
      dsimp only
      rw [if_pos rfl, ih]
      rfl

theorem elements_head {e : Elements} (he : accepted.elements e = true) (r : List Char) :
    ∃ c s, skipWs (e.put r) = c :: s ∧ c ≠ ']' := by
  obtain ⟨before, t, rest, hb, ht, hput⟩ : ∃ before t rest, accepted.blank before = true ∧
      accepted.tree t = true ∧ e.put r = before ++ t.put rest := by
    cases e with
    | last before t after =>
        simp only [Dialect.elements, Bool.and_eq_true] at he
        exact ⟨before, t, _, he.1.1, he.1.2, rfl⟩
    | more before t after rest =>
        simp only [Dialect.elements, Bool.and_eq_true] at he
        exact ⟨before, t, _, he.1.1.1, he.1.1.2, rfl⟩
  obtain ⟨c, s, hhead, hkind⟩ := Dialect.tree_head ht rest
  refine ⟨c, s, ?_, ?_⟩
  · rw [hput, skip_blank hb (Dialect.opens_tree ht _), hhead]
  · rintro rfl
    cases hkind

theorem members_head {e : Members} (he : accepted.members e = true) (r : List Char) :
    ∃ c s, skipWs (e.put r) = c :: s ∧ c ≠ '}' := by
  obtain ⟨before, key, rest, hb, hput⟩ : ∃ before key rest, accepted.blank before = true ∧
      e.put r = before ++ putString key rest := by
    cases e with
    | last before key keyEnd colonEnd t after =>
        simp only [Dialect.members, Bool.and_eq_true] at he
        exact ⟨before, key, _, he.1.1.1.1.1, rfl⟩
    | more before key keyEnd colonEnd t after rest =>
        simp only [Dialect.members, Bool.and_eq_true] at he
        exact ⟨before, key, _, he.1.1.1.1.1.1, rfl⟩
  have hskip : skipWs (e.put r) = putString key rest := by
    rw [hput, skip_blank hb (Dialect.opens_string _ _)]
  exact ⟨_, _, hskip, by decide⟩

theorem array_empty {pad r : List Char} (hpad : accepted.blank pad = true) :
    array read (pad ++ ']' :: r) = some (.arr [], r) := by
  unfold array
  rw [skip_blank hpad (opens_cons (by decide))]
  rfl

theorem array_complete (hread : Complete f room read) {e : Elements} {r : List Char}
    (he : accepted.elements e = true) (hdepth : e.depth < room) :
    array read (e.put r) = some (.arr (elementValues f e), r) := by
  obtain ⟨c, s, hhead, hc⟩ := elements_head he r
  unfold array
  rw [hhead]
  dsimp only
  rw [if_neg hc, ← hhead, items_skip,
    items_complete hread e he hdepth (by rw [hhead]; exact Nat.le_refl _)]
  rfl

theorem object_empty {pad r : List Char} (hpad : accepted.blank pad = true) :
    object read (pad ++ '}' :: r) = some (.obj [], r) := by
  unfold object
  rw [skip_blank hpad (opens_cons (by decide))]
  rfl

theorem object_complete (hread : Complete f room read) {e : Members} {r : List Char}
    (he : accepted.members e = true) (hdepth : e.depth < room) :
    object read (e.put r) = some (.obj (memberValues f [] e), r) := by
  obtain ⟨c, s, hhead, hc⟩ := members_head he r
  unfold object
  rw [hhead]
  dsimp only
  rw [if_neg hc, ← hhead, members_skip,
    members_complete hread e [] he hdepth (by rw [hhead]; exact Nat.le_refl _)]
  rfl

theorem number_complete {n : Numeral} {r : List Char} (hn : accepted.number n = true)
    (hr : Ends r) : number f (n.put r) = some (treeValue f (.number n), r) := by
  obtain ⟨hshape, hf64⟩ := (accepted_number n).mp hn
  rw [← numberValue_isSome f] at hf64
  obtain ⟨v, hv⟩ := Option.isSome_iff_exists.mp hf64
  rw [number, scan_complete hshape hr, treeValue, hv]
  rfl

theorem value_number {c : Char} {s : List Char} (h : kindOf c = some .number) :
    value f (room + 1) (c :: s) = number f (c :: s) := by
  have hne : ∀ d, kindOf d ≠ some .number → c ≠ d := by
    rintro d hd rfl
    exact hd h
  unfold value
  rw [if_neg (hne _ (by decide)), if_neg (hne _ (by decide)), if_neg (hne _ (by decide)),
    if_neg (hne _ (by decide)), if_neg (hne _ (by decide)), if_neg (hne _ (by decide)),
    if_pos (kindOf_number h)]

end

/-- **The parser reads every tree of the dialect that is not too deep.** -/
theorem value_complete (f : F64 F) (room : Nat) : Complete f room (value f room) := by
  induction room with
  | zero => exact fun t r ht hdepth => absurd hdepth (Nat.not_lt_zero _)
  | succ room ih =>
      intro t r ht hdepth hr
      cases t with
      | word w => cases w <;> rfl
      | number n =>
          rw [Dialect.tree] at ht
          obtain ⟨c, s, hput, hkind⟩ := n.put_head ((accepted_number n).mp ht).1 r
          rw [← number_complete ht hr, Tree.put, hput]
          exact value_number hkind
      | string s =>
          rw [Tree.put, putString, treeValue, keyText]
          show (string _).map _ = _
          rw [string_complete ht]
          rfl
      | emptyArray pad => exact array_empty ht
      | array items => exact array_complete ih ht (Nat.lt_of_succ_lt_succ hdepth)
      | emptyObject pad => exact object_empty ht
      | object items => exact object_complete ih ht (Nat.lt_of_succ_lt_succ hdepth)

/-- **The parser takes the texts of its dialect that are not too deep**, and gives each
the value of its tree. -/
theorem parse_iff (f : F64 F) (text : String) (v : Value F) :
    parse f text = some v ↔ ∃ x : Text, accepted.text x = true ∧ x.root.depth ≤ maxDepth ∧
      x.chars = text.toList ∧ treeValue f x.root = v := by
  constructor
  · intro h
    obtain ⟨before, hbefore, hsplit⟩ := skip_split text.toList
    unfold parse at h
    cases hvalue : value f (maxDepth + 1) (skipWs text.toList) with
    | none =>
        rw [hvalue] at h
        cases h
    | some out =>
        obtain ⟨w, rest⟩ := out
        rw [hvalue] at h
        dsimp only at h
        obtain ⟨t, ht, hdepth, hput, rfl⟩ := value_sound f _ _ _ _ hvalue
        obtain ⟨hrest, h⟩ := Option.ite_none_right_eq_some.1 h
        obtain ⟨after, hafter, hend⟩ := skip_split rest
        rw [hrest, List.append_nil] at hend
        refine ⟨⟨before, t, rest⟩, ?_, Nat.le_of_lt_succ hdepth, ?_, Option.some.inj h⟩
        · rw [Dialect.text, hbefore, ht, ← hend, hafter]
          rfl
        · rw [Text.chars, hput, hsplit]
  · rintro ⟨⟨before, t, after⟩, hx, hdepth, hchars, rfl⟩
    simp only [Dialect.text, Bool.and_eq_true] at hx
    obtain ⟨⟨hbefore, ht⟩, hafter⟩ := hx
    have hskip : skipWs after = [] := by
      have h := skip_blank hafter (s := []) (by simp [Opens])
      rwa [List.append_nil] at h
    unfold parse
    rw [← hchars, Text.chars, skip_blank hbefore (Dialect.opens_tree ht _),
      value_complete f _ t after ht (Nat.lt_succ_of_le hdepth) (Dialect.ends_of_blank hafter)]
    exact if_pos hskip

end Calcar.Agent.Json
