import Calcar.Verified.JsonGrammar

/-!
# Rendering and parsing

A rendered value is the text of a tree without white space, and the parser reads
that tree back: `parse_render`.
-/

namespace Calcar.Agent.Json

open Calcar.Lib.Json

variable {F : Type}

/-! ## Values -/

mutual

/-- How deep values lie below this one. -/
def Value.depth : Value F → Nat
  | .null | .bool _ | .int _ | .float _ | .str _ => 0
  | .arr items => depthItems items
  | .obj map => depthMembers map

def depthItems : List (Value F) → Nat
  | [] => 0
  | item :: items => max (item.depth + 1) (depthItems items)

def depthMembers : List (String × Value F) → Nat
  | [] => 0
  | (_, item) :: map => max (item.depth + 1) (depthMembers map)

end

mutual

/-- The keys of every `BTreeMap` stand in their order. -/
def Value.ordered : Value F → Bool
  | .null | .bool _ | .int _ | .float _ | .str _ => true
  | .arr items => orderedItems items
  | .obj map => orderedMembers map

def orderedItems : List (Value F) → Bool
  | [] => true
  | item :: items => item.ordered && orderedItems items

def orderedMembers : List (String × Value F) → Bool
  | [] => true
  | (key, item) :: map =>
      (map.all fun entry => decide (key < entry.1)) && item.ordered && orderedMembers map

end

mutual

/-- No floats anywhere. -/
def Value.floatless : Value F → Bool
  | .null | .bool _ | .int _ | .str _ => true
  | .float _ => false
  | .arr items => floatlessItems items
  | .obj map => floatlessMembers map

def floatlessItems : List (Value F) → Bool
  | [] => true
  | item :: items => item.floatless && floatlessItems items

def floatlessMembers : List (String × Value F) → Bool
  | [] => true
  | (_, item) :: map => item.floatless && floatlessMembers map

end

/-! ## The tree of a value -/

/-- How `write_string` writes a character. -/
def charPiece (ch : Char) : Piece :=
  if ch = '"' then .escape '"'
  else if ch = '\\' then .escape '\\'
  else if ch = '\n' then .escape 'n'
  else if ch = '\r' then .escape 'r'
  else if ch = '\t' then .escape 't'
  else if ch.toNat < 0x20 then
    .unit (lowerHex (ch.toNat / 4096 % 16)) (lowerHex (ch.toNat / 256 % 16))
      (lowerHex (ch.toNat / 16 % 16)) (lowerHex (ch.toNat % 16))
  else .plain ch

def textPieces (text : String) : List Piece :=
  text.toList.map charPiece

def intNumeral (n : Int) : Numeral :=
  ⟨decide (n < 0), Nat.toDigits 10 n.natAbs, none, none⟩

mutual

def valueTree : Value F → Tree
  | .null | .float _ => .word .null
  | .bool true => .word .true
  | .bool false => .word .false
  | .int n => .number (intNumeral n.val)
  | .str text => .string (textPieces text)
  | .arr [] => .emptyArray []
  | .arr (item :: items) => .array (itemTrees (item :: items))
  | .obj [] => .emptyObject []
  | .obj (entry :: map) => .object (memberTrees (entry :: map))

/-- The elements of an array that is not empty. -/
def itemTrees : List (Value F) → Elements
  | [] => .last [] (.word .null) []
  | item :: items =>
      match items with
      | [] => .last [] (valueTree item) []
      | _ :: _ => .more [] (valueTree item) [] (itemTrees items)

def memberTrees : List (String × Value F) → Members
  | [] => .last [] [] [] [] (.word .null) []
  | (key, item) :: map =>
      match map with
      | [] => .last [] (textPieces key) [] [] (valueTree item) []
      | _ :: _ => .more [] (textPieces key) [] [] (valueTree item) [] (memberTrees map)

end

/-! ## Strings and numbers -/

theorem charPiece_put (ch : Char) (r : List Char) : (charPiece ch).put r = writeChar ch ++ r := by
  unfold charPiece writeChar
  split
  · rfl
  split
  · rfl
  split
  · rfl
  split
  · rfl
  split
  · rfl
  split <;> rfl

theorem hex4_low (n : Nat) (h : n < 0x20) :
    hex4 (lowerHex (n / 4096 % 16)) (lowerHex (n / 256 % 16)) (lowerHex (n / 16 % 16))
      (lowerHex (n % 16)) = some n := by
  have hall : ∀ n : Fin 0x20,
      hex4 (lowerHex (n.val / 4096 % 16)) (lowerHex (n.val / 256 % 16))
        (lowerHex (n.val / 16 % 16)) (lowerHex (n.val % 16)) = some n.val := by
    decide
  exact hall ⟨n, h⟩

theorem charFromU32_toNat (ch : Char) : charFromU32 ch.toNat = some ch := by
  have hvalid : ch.toNat.isValidChar := ch.valid
  rw [charFromU32, dif_pos hvalid]
  rfl

theorem charPiece_char (ch : Char) :
    pieceChar (charPiece ch) = ch ∧ accepted.piece (charPiece ch) = true := by
  by_cases hquote : ch = '"'
  · rw [hquote]
    exact ⟨rfl, rfl⟩
  by_cases hbar : ch = '\\'
  · rw [hbar]
    exact ⟨rfl, rfl⟩
  by_cases hn : ch = '\n'
  · rw [hn]
    exact ⟨rfl, rfl⟩
  by_cases hr : ch = '\r'
  · rw [hr]
    exact ⟨rfl, rfl⟩
  by_cases ht : ch = '\t'
  · rw [ht]
    exact ⟨rfl, rfl⟩
  rw [charPiece, if_neg hquote, if_neg hbar, if_neg hn, if_neg hr, if_neg ht]
  by_cases hlow : ch.toNat < 0x20
  · rw [if_pos hlow]
    have hchar : (hex4 (lowerHex (ch.toNat / 4096 % 16)) (lowerHex (ch.toNat / 256 % 16))
        (lowerHex (ch.toNat / 16 % 16)) (lowerHex (ch.toNat % 16))).bind charFromU32 =
          some ch := by
      rw [hex4_low _ hlow, Option.bind_some, charFromU32_toNat]
    exact ⟨by rw [pieceChar, hchar]; rfl, accepted_unit hchar⟩
  · rw [if_neg hlow]
    refine ⟨rfl, ?_⟩
    simp only [Dialect.piece, Bool.and_eq_true, bne_iff_ne, decide_eq_true_eq]
    exact ⟨⟨hquote, hbar⟩, Nat.not_lt.mp hlow⟩

theorem textPieces_accepted (text : String) : accepted.pieces (textPieces text) = true := by
  rw [Dialect.pieces, textPieces, List.all_map, List.all_eq_true]
  exact fun ch _ => (charPiece_char ch).2

theorem textPieces_text (text : String) : keyText (textPieces text) = text := by
  have hmap : (textPieces text).map pieceChar = text.toList := by
    rw [textPieces, List.map_map]
    exact (List.map_congr_left fun ch _ => (charPiece_char ch).1).trans (List.map_id _)
  rw [keyText, hmap, String.ofList_toList]

theorem textPieces_put (text : String) (r : List Char) :
    putString (textPieces text) r = writeString text ++ r := by
  have hchars : ∀ l : List Char,
      (l.map charPiece).foldr Piece.put ('"' :: r) = l.flatMap writeChar ++ '"' :: r := by
    intro l
    induction l with
    | nil => rfl
    | cons ch l ih =>
        rw [List.map_cons, List.foldr_cons, ih, charPiece_put, List.flatMap_cons,
          List.append_assoc]
  rw [putString, textPieces, hchars, writeString, List.cons_append, List.append_assoc]
  rfl

theorem intNumeral_put (n : Int) (r : List Char) :
    (intNumeral n).put r = intText n ++ r := by
  rw [intText, List.append_assoc]
  by_cases h : n < 0 <;> simp [intNumeral, Numeral.put, putFrac, putExp, h]

theorem intNumeral_accepted (n : Int) : accepted.number (intNumeral n) = true := by
  have hne : (intNumeral n).int ≠ [] := Nat.toDigits_ne_nil
  rw [accepted_number, Numeral.shape_iff]
  refine ⟨⟨.inr hne, List.all_eq_true.mpr fun c hc => ?_, fun _ h => (by cases h),
    fun _ h => (by cases h)⟩, ?_⟩
  · exact Nat.isDigit_of_mem_toDigits (by decide) (by decide) hc
  · rw [isF64, show (intNumeral n).int.isEmpty = false from List.isEmpty_eq_false_iff.mpr hne]
    rfl

theorem intNumeral_value (f : F64 F) (n : I64) :
    numberValue f (intNumeral n.val) = some (.int n) := by
  have hne : (intNumeral n.val).int.isEmpty = false :=
    List.isEmpty_eq_false_iff.mpr Nat.toDigits_ne_nil
  have hval : (if (intNumeral n.val).minus then
      -(Nat.ofDigitChars 10 (intNumeral n.val).int 0 : Int)
      else (Nat.ofDigitChars 10 (intNumeral n.val).int 0 : Int)) = n.val := by
    rw [intNumeral, Nat.ofDigitChars_ten_toDigits]
    by_cases h : n.val < 0
    · rw [if_pos (by simpa using h)]
      omega
    · rw [if_neg (by simpa using h)]
      omega
  have hparse : parseI64 (intNumeral n.val) = some n := by
    rw [parseI64, hne, if_neg Bool.false_ne_true, hval, I64.ofInt, dif_pos ⟨n.low, n.high⟩]
  rw [numberValue, hne, hparse]
  rfl

/-! ## Containers -/

theorem insert_last {V : Type} {key : String} {v : V} {map : List (String × V)}
    (h : ∀ entry ∈ map, entry.1 < key) : insert key v map = map ++ [(key, v)] := by
  induction map with
  | nil => rfl
  | cons entry map ih =>
      obtain ⟨k, w⟩ := entry
      have hk : k < key := h (k, w) (List.mem_cons_self ..)
      have hne : key ≠ k := by
        rintro rfl
        exact String.lt_irrefl _ hk
      rw [insert, if_neg (String.lt_asymm hk), if_neg hne,
        ih fun entry hmem => h entry (List.mem_cons_of_mem _ hmem)]
      rfl

attribute [grind =] writeItems writeMembers

theorem writeItems_succ (f : F64 F) (items : List (Value F)) :
    ∀ i, writeItems f (i + 1) items = writeItems f 1 items := by
  induction items with
  | nil => exact fun i => rfl
  | cons item items ih =>
      intro i
      rw [writeItems, writeItems, ih (i + 1), ih 1]
      rfl

theorem writeMembers_succ (f : F64 F) (map : List (String × Value F)) :
    ∀ i, writeMembers f (i + 1) map = writeMembers f 1 map := by
  induction map with
  | nil => exact fun i => rfl
  | cons entry map ih =>
      intro i
      rw [writeMembers, writeMembers, ih (i + 1), ih 1]
      rfl

theorem writeItems_first (f : F64 F) (item : Value F) (items : List (Value F)) :
    writeItems f 0 (item :: items) = writeValue f item ++ writeItems f 1 items := by
  rw [writeItems]
  rfl

theorem writeMembers_first (f : F64 F) (key : String) (item : Value F)
    (map : List (String × Value F)) :
    writeMembers f 0 ((key, item) :: map) =
      writeString key ++ ':' :: (writeValue f item ++ writeMembers f 1 map) := by
  rw [writeMembers]
  rfl

theorem writeItems_comma (f : F64 F) (item : Value F) (items : List (Value F)) :
    writeItems f 1 (item :: items) = ',' :: writeItems f 0 (item :: items) := by
  rw [writeItems, writeItems, writeItems_succ f items 1]
  rfl

theorem writeMembers_comma (f : F64 F) (entry : String × Value F)
    (map : List (String × Value F)) :
    writeMembers f 1 (entry :: map) = ',' :: writeMembers f 0 (entry :: map) := by
  obtain ⟨key, item⟩ := entry
  rw [writeMembers, writeMembers, writeMembers_succ f map 1]
  rfl

/-! ## The tree says what the value says -/

/-- The tree is accepted, of the value's text, depth and meaning. -/
structure Spells (f : F64 F) (t : Tree) (v : Value F) : Prop where
  put : ∀ r, t.put r = writeValue f v ++ r
  accepts : accepted.tree t = true
  depth : t.depth = v.depth
  value : treeValue f t = v

structure SpellsItems (f : F64 F) (e : Elements) (items : List (Value F)) : Prop where
  put : ∀ r, e.put r = writeItems f 0 items ++ ']' :: r
  accepts : accepted.elements e = true
  depth : e.depth + 1 = depthItems items
  values : elementValues f e = items

structure SpellsMembers (f : F64 F) (e : Members) (map : List (String × Value F)) : Prop where
  put : ∀ r, e.put r = writeMembers f 0 map ++ '}' :: r
  accepts : accepted.members e = true
  depth : e.depth + 1 = depthMembers map
  values : ∀ before : List (String × Value F), (∀ b ∈ before, ∀ entry ∈ map, b.1 < entry.1) →
    memberValues f before e = before ++ map

theorem spells_bool (f : F64 F) (b : Bool) :
    Spells f (valueTree (.bool b : Value F)) (.bool b) := by
  cases b <;> exact ⟨fun _ => rfl, rfl, rfl, rfl⟩

theorem spells_int (f : F64 F) (n : I64) : Spells f (valueTree (.int n : Value F)) (.int n) where
  put := intNumeral_put n.val
  accepts := intNumeral_accepted n.val
  depth := rfl
  value := by
    rw [valueTree, treeValue, intNumeral_value]
    rfl

theorem spells_str (f : F64 F) (text : String) :
    Spells f (valueTree (.str text : Value F)) (.str text) where
  put := textPieces_put text
  accepts := textPieces_accepted text
  depth := rfl
  value := by rw [valueTree, treeValue, textPieces_text]

theorem spells_arr {f : F64 F} {e : Elements} {items : List (Value F)}
    (h : SpellsItems f e items) : Spells f (.array e) (.arr items) where
  put r := by
    rw [Tree.put, h.put, writeValue, List.cons_append, List.append_assoc]
    rfl
  accepts := h.accepts
  depth := h.depth
  value := by rw [treeValue, h.values]

theorem spells_obj {f : F64 F} {e : Members} {map : List (String × Value F)}
    (h : SpellsMembers f e map) : Spells f (.object e) (.obj map) where
  put r := by
    rw [Tree.put, h.put, writeValue, List.cons_append, List.append_assoc]
    rfl
  accepts := h.accepts
  depth := h.depth
  value := by
    rw [treeValue, h.values [] (fun _ hb => absurd hb List.not_mem_nil)]
    rfl

theorem spells_last {f : F64 F} {t : Tree} {item : Value F} (h : Spells f t item) :
    SpellsItems f (.last [] t []) [item] where
  put r := by
    rw [Elements.put, List.nil_append, List.nil_append, h.put, writeItems_first, writeItems]
    simp
  accepts := by rw [Dialect.elements, h.accepts]; rfl
  depth := by
    rw [Elements.depth, h.depth, depthItems, depthItems]
    omega
  values := by rw [elementValues, h.value]

theorem spells_more {f : F64 F} {t : Tree} {e : Elements} {item next : Value F}
    {items : List (Value F)} (h : Spells f t item) (hrest : SpellsItems f e (next :: items)) :
    SpellsItems f (.more [] t [] e) (item :: next :: items) where
  put r := by
    rw [Elements.put, List.nil_append, List.nil_append, h.put, hrest.put,
      writeItems_first f item, writeItems_comma]
    simp
  accepts := by rw [Dialect.elements, h.accepts, hrest.accepts]; rfl
  depth := by
    rw [Elements.depth, h.depth, depthItems, ← hrest.depth]
    omega
  values := by rw [elementValues, h.value, hrest.values]

theorem spells_last_member {f : F64 F} {t : Tree} {key : String} {item : Value F}
    (h : Spells f t item) :
    SpellsMembers f (.last [] (textPieces key) [] [] t []) [(key, item)] where
  put r := by
    rw [Members.put, List.nil_append, List.nil_append, List.nil_append, List.nil_append,
      textPieces_put, h.put, writeMembers_first, writeMembers]
    simp
  accepts := by rw [Dialect.members, textPieces_accepted, h.accepts]; rfl
  depth := by
    rw [Members.depth, h.depth, depthMembers, depthMembers]
    omega
  values before hbefore := by
    rw [memberValues, textPieces_text, h.value]
    exact insert_last fun b hb => hbefore b hb _ (List.mem_cons_self ..)

theorem spells_more_member {f : F64 F} {t : Tree} {e : Members} {key : String} {item : Value F}
    {next : String × Value F} {map : List (String × Value F)} (h : Spells f t item)
    (hrest : SpellsMembers f e (next :: map)) (hkey : ∀ entry ∈ next :: map, key < entry.1) :
    SpellsMembers f (.more [] (textPieces key) [] [] t [] e) ((key, item) :: next :: map) where
  put r := by
    rw [Members.put, List.nil_append, List.nil_append, List.nil_append, List.nil_append,
      textPieces_put, h.put, hrest.put, writeMembers_first f key, writeMembers_comma]
    simp
  accepts := by rw [Dialect.members, textPieces_accepted, h.accepts, hrest.accepts]; rfl
  depth := by
    rw [Members.depth, h.depth, depthMembers, ← hrest.depth]
    omega
  values before hbefore := by
    rw [memberValues, textPieces_text, h.value,
      insert_last fun b hb => hbefore b hb _ (List.mem_cons_self ..), hrest.values]
    · rw [List.append_assoc]
      rfl
    · intro b hb entry hentry
      rcases List.mem_append.mp hb with hb | hb
      · exact hbefore b hb entry (List.mem_cons_of_mem _ hentry)
      · rw [List.mem_singleton.mp hb]
        exact hkey entry hentry

mutual

/-- **A value without floats is spelled by its tree.** -/
theorem valueTree_spells (f : F64 F) : ∀ v : Value F, v.ordered = true → v.floatless = true →
    Spells f (valueTree v) v
  | .null, _, _ => ⟨fun _ => rfl, rfl, rfl, rfl⟩
  | .bool b, _, _ => spells_bool f b
  | .int n, _, _ => spells_int f n
  | .str text, _, _ => spells_str f text
  | .arr [], _, _ => ⟨fun _ => rfl, rfl, rfl, rfl⟩
  | .arr (item :: items), ho, hf =>
      spells_arr (itemTrees_spells f (item :: items) (List.cons_ne_nil _ _) ho hf)
  | .obj [], _, _ => ⟨fun _ => rfl, rfl, rfl, rfl⟩
  | .obj (entry :: map), ho, hf =>
      spells_obj (memberTrees_spells f (entry :: map) (List.cons_ne_nil _ _) ho hf)

theorem itemTrees_spells (f : F64 F) : ∀ items : List (Value F), items ≠ [] →
    orderedItems items = true → floatlessItems items = true →
      SpellsItems f (itemTrees items) items
  | [], hne, _, _ => absurd rfl hne
  | [item], _, ho, hf => by
      simp only [orderedItems, floatlessItems, Bool.and_eq_true] at ho hf
      exact spells_last (valueTree_spells f item ho.1 hf.1)
  | item :: next :: items, _, ho, hf => by
      rw [orderedItems, Bool.and_eq_true] at ho
      rw [floatlessItems, Bool.and_eq_true] at hf
      exact spells_more (valueTree_spells f item ho.1 hf.1)
        (itemTrees_spells f (next :: items) (List.cons_ne_nil _ _) ho.2 hf.2)

theorem memberTrees_spells (f : F64 F) : ∀ map : List (String × Value F), map ≠ [] →
    orderedMembers map = true → floatlessMembers map = true →
      SpellsMembers f (memberTrees map) map
  | [], hne, _, _ => absurd rfl hne
  | [(key, item)], _, ho, hf => by
      simp only [orderedMembers, floatlessMembers, Bool.and_eq_true] at ho hf
      exact spells_last_member (valueTree_spells f item ho.1.2 hf.1)
  | (key, item) :: next :: map, _, ho, hf => by
      rw [orderedMembers, Bool.and_eq_true, Bool.and_eq_true, List.all_eq_true] at ho
      rw [floatlessMembers, Bool.and_eq_true] at hf
      exact spells_more_member (valueTree_spells f item ho.1.2 hf.1)
        (memberTrees_spells f (next :: map) (List.cons_ne_nil _ _) ho.2 hf.2)
        fun entry hmem => of_decide_eq_true (ho.1.1 entry hmem)

end

/-- **What is rendered is parsed back.** -/
theorem parse_render (f : F64 F) {v : Value F} (hordered : v.ordered = true)
    (hfloat : v.floatless = true) (hdepth : v.depth ≤ maxDepth) :
    parse f (render f v) = some v := by
  have h := valueTree_spells f v hordered hfloat
  rw [parse_iff]
  refine ⟨⟨[], valueTree v, []⟩, ?_, ?_, ?_, h.value⟩
  · rw [Dialect.text, h.accepts]
    rfl
  · rw [h.depth]
    exact hdepth
  · rw [Text.chars, h.put, render, String.toList_ofList, List.append_nil, List.nil_append]

/-- A map with every kind of value and of escape in it. -/
def mixed : Value Unit :=
  .obj [("", .arr [.null, .bool false, .int ⟨-9223372036854775808, by decide, by decide⟩]),
    ("\"", .obj []), ("b", .str "\n\x01/é😀")]

theorem parse_render_mixed : parse ⟨fun _ => true, fun _ => [], fun _ => ()⟩
    (render ⟨fun _ => true, fun _ => [], fun _ => ()⟩ mixed) = some mixed :=
  parse_render _ (by decide) (by decide) (by decide)

/-! ## Parsed maps are in order -/

theorem mem_insert {V : Type} {key : String} {v : V} {map : List (String × V)}
    {entry : String × V} (h : entry ∈ insert key v map) : entry = (key, v) ∨ entry ∈ map := by
  induction map with
  | nil => exact .inl (List.mem_singleton.mp h)
  | cons first map ih =>
      obtain ⟨k, w⟩ := first
      unfold insert at h
      split at h
      · exact List.mem_cons.mp h
      split at h
      · rcases List.mem_cons.mp h with h | h
        · exact .inl h
        · exact .inr (List.mem_cons_of_mem _ h)
      · rcases List.mem_cons.mp h with h | h
        · exact .inr (by rw [h]; exact List.mem_cons_self ..)
        · exact (ih h).imp_right (List.mem_cons_of_mem _)

theorem insert_ordered {key : String} {v : Value F} {map : List (String × Value F)}
    (hv : v.ordered = true) (h : orderedMembers map = true) :
    orderedMembers (insert key v map) = true := by
  induction map with
  | nil =>
      simp only [insert, orderedMembers, hv]
      rfl
  | cons first map ih =>
      obtain ⟨k, w⟩ := first
      rw [orderedMembers, Bool.and_eq_true, Bool.and_eq_true, List.all_eq_true] at h
      obtain ⟨⟨hk, hw⟩, hmap⟩ := h
      unfold insert
      by_cases hlt : key < k
      · rw [if_pos hlt, orderedMembers, hv, orderedMembers, hw, hmap, Bool.and_true,
          Bool.and_true, Bool.and_true, Bool.and_eq_true, List.all_eq_true, List.all_eq_true]
        refine ⟨fun entry hmem => decide_eq_true ?_, hk⟩
        rcases List.mem_cons.mp hmem with rfl | hmem
        · exact hlt
        · exact String.lt_trans hlt (of_decide_eq_true (hk entry hmem))
      rw [if_neg hlt]
      by_cases heq : key = k
      · rw [if_pos heq, orderedMembers, hv, hmap, heq, Bool.and_true, Bool.and_true,
          List.all_eq_true]
        exact hk
      · rw [if_neg heq, orderedMembers, hw, ih hmap, Bool.and_true, Bool.and_true,
          List.all_eq_true]
        intro entry hmem
        rcases mem_insert hmem with rfl | hmem
        · refine decide_eq_true (Decidable.byContradiction fun hnot => heq ?_)
          exact String.le_antisymm (String.not_lt.mp hnot) (String.not_lt.mp hlt)
        · exact hk entry hmem

theorem numberValue_ordered (f : F64 F) (n : Numeral) :
    ((numberValue f n).getD .null).ordered = true := by
  have hfloat : ∀ o : Option F, ((o.map Value.float).getD .null).ordered = true := by
    intro o
    cases o <;> rfl
  unfold numberValue
  by_cases hpoint : (n.frac.isSome || n.exp.isSome) = true
  · rw [if_pos hpoint]
    exact hfloat _
  rw [if_neg hpoint]
  by_cases hint : n.int.isEmpty = true
  · rw [if_pos hint]
    rfl
  rw [if_neg hint]
  cases parseI64 n with
  | some i => rfl
  | none => exact hfloat _

mutual

theorem treeValue_ordered (f : F64 F) : ∀ t : Tree, (treeValue f t).ordered = true
  | .word w => by cases w <;> rfl
  | .number n => numberValue_ordered f n
  | .string _ => rfl
  | .emptyArray _ => rfl
  | .array items => elementValues_ordered f items
  | .emptyObject _ => rfl
  | .object items => memberValues_ordered f items rfl

theorem elementValues_ordered (f : F64 F) :
    ∀ e : Elements, orderedItems (elementValues f e) = true
  | .last _ v _ => by rw [elementValues, orderedItems, treeValue_ordered f v]; rfl
  | .more _ v _ rest => by
      rw [elementValues, orderedItems, treeValue_ordered f v, elementValues_ordered f rest]
      rfl

theorem memberValues_ordered (f : F64 F) :
    ∀ (e : Members) {map : List (String × Value F)}, orderedMembers map = true →
      orderedMembers (memberValues f map e) = true
  | .last _ _ _ _ v _, _, h => insert_ordered (treeValue_ordered f v) h
  | .more _ _ _ _ v _ rest, _, h =>
      memberValues_ordered f rest (insert_ordered (treeValue_ordered f v) h)

end

/-- **The maps of a parsed value have their keys in order.** -/
theorem parse_ordered {f : F64 F} {text : String} {v : Value F} (h : parse f text = some v) :
    v.ordered = true := by
  obtain ⟨x, -, -, -, rfl⟩ := (parse_iff f text v).mp h
  exact treeValue_ordered f x.root

end Calcar.Agent.Json
