import Mathlib.Data.List.Basic
import Calcar.Lib.Budget

/-!
# UTF-16

Texts as their code units.  A text is any list of units: a surrogate that has lost its
other half is allowed, and counts as a character of its own (a *rune* is a character or
such a half).  The length of a text in UTF-8 is the sum of the sizes of its runes, where a
half takes the three bytes of the replacement character.

## Main results

* `runes_take`, `runes_drop` — a text that is cut behind some of its runes.
* `runes_append` — two texts put together, where no pair comes about.
* `runes_ofString`, `utf8Length_ofString` — what a text of characters is in units.
-/

namespace Calcar.Lib.Utf16

/-- A text. -/
abbrev Text := List UInt16

/-! ## Runes -/

/-- The first half of a pair. -/
def isLead (u : UInt16) : Bool := decide (0xD800 ≤ u.toNat ∧ u.toNat < 0xDC00)

/-- The second half of a pair. -/
def isTrail (u : UInt16) : Bool := decide (0xDC00 ≤ u.toNat ∧ u.toNat < 0xE000)

/-- The character of a pair. -/
def combine (lead trail : UInt16) : Nat :=
  0x10000 + (lead.toNat - 0xD800) * 0x400 + (trail.toNat - 0xDC00)

/-- The runes of a text. -/
def runes : Text → List Nat
  | [] => []
  | [u] => [u.toNat]
  | u :: v :: text =>
      if isLead u && isTrail v then combine u v :: runes text
      else u.toNat :: runes (v :: text)

/-- The units that a rune takes. -/
def width (rune : Nat) : Nat := if 0xFFFF < rune then 2 else 1

/-- The bytes that a rune takes in UTF-8. -/
def size (rune : Nat) : Nat :=
  if rune < 0x80 then 1 else if rune < 0x800 then 2 else if rune < 0x10000 then 3 else 4

/-- The bytes that a text takes in UTF-8. -/
def utf8Length (text : Text) : Nat := total size (runes text)

theorem size_pos (rune : Nat) : 0 < size rune := by
  unfold size
  split
  · omega
  · split
    · omega
    · split <;> omega

theorem size_le (rune : Nat) : size rune ≤ 4 := by
  unfold size
  split
  · omega
  · split
    · omega
    · split <;> omega

@[simp] theorem runes_nil : runes [] = [] := rfl

@[simp] theorem runes_singleton (u : UInt16) : runes [u] = [u.toNat] := rfl

theorem runes_pair {u v : UInt16} (h : (isLead u && isTrail v) = true) (text : Text) :
    runes (u :: v :: text) = combine u v :: runes text := by
  rw [runes, if_pos h]

/-- The text goes on with something that makes no pair with the unit. -/
def Apart (u : UInt16) (text : Text) : Prop :=
  ∀ v ∈ text.head?, (isLead u && isTrail v) = false

theorem runes_cons {u : UInt16} {text : Text} (h : Apart u text) :
    runes (u :: text) = u.toNat :: runes text := by
  cases text with
  | nil => rfl
  | cons v text =>
      have hfree := h v rfl
      rw [runes, if_neg (by simp [hfree])]

theorem width_combine (u v : UInt16) : width (combine u v) = 2 := by
  unfold width combine
  exact if_pos (by omega)

theorem width_unit (u : UInt16) : width u.toNat = 1 := by
  have := u.toNat_lt
  unfold width
  exact if_neg (by omega)

theorem combine_lt {u v : UInt16} (h : (isLead u && isTrail v) = true) :
    combine u v < 0x110000 := by
  simp only [isLead, isTrail, Bool.and_eq_true, decide_eq_true_eq] at h
  unfold combine
  omega

/-- Every rune is a code point. -/
theorem runes_lt (text : Text) : ∀ rune ∈ runes text, rune < 0x110000 := by
  induction text using runes.induct with
  | case1 => simp
  | case2 u =>
      have := u.toNat_lt
      simp
      omega
  | case3 u v text hpair ih =>
      rw [runes_pair hpair]
      simp only [List.mem_cons, forall_eq_or_imp]
      exact ⟨combine_lt hpair, ih⟩
  | case4 u v text hfree ih =>
      have := u.toNat_lt
      rw [runes, if_neg hfree]
      simp only [List.mem_cons, forall_eq_or_imp]
      exact ⟨by omega, ih⟩

/-! ## Cutting a text -/

/-- **What is cut off the front** behind `k` runes has these runes, and what is left has
the others. -/
theorem runes_cut (text : Text) (k : Nat) :
    runes (text.take (total width ((runes text).take k))) = (runes text).take k ∧
      runes (text.drop (total width ((runes text).take k))) = (runes text).drop k := by
  induction text using runes.induct generalizing k with
  | case1 => simp
  | case2 u =>
      cases k with
      | zero => simp
      | succ k => simp [width_unit]
  | case3 u v text hpair ih =>
      rw [runes_pair hpair]
      cases k with
      | zero => simp [runes_pair hpair]
      | succ k =>
          obtain ⟨htake, hdrop⟩ := ih k
          rw [List.take_succ_cons, List.drop_succ_cons, total_cons, width_combine,
            Nat.add_comm 2, List.take_succ_cons, List.take_succ_cons, List.drop_succ_cons,
            List.drop_succ_cons, runes_pair hpair, htake, hdrop]
          exact ⟨rfl, rfl⟩
  | case4 u v text hfree ih =>
      have hall : runes (u :: v :: text) = u.toNat :: runes (v :: text) := by
        rw [runes, if_neg hfree]
      rw [hall]
      cases k with
      | zero => simp [hall]
      | succ k =>
          obtain ⟨htake, hdrop⟩ := ih k
          rw [List.take_succ_cons, List.drop_succ_cons, total_cons, width_unit,
            Nat.add_comm 1, List.take_succ_cons, List.drop_succ_cons, hdrop]
          refine ⟨?_, rfl⟩
          rw [runes_cons, htake]
          -- what is left of the text begins as the text did, or is empty
          intro w hw
          rw [List.head?_take] at hw
          split at hw
          · simp at hw
          · cases hw
            exact Bool.eq_false_iff.mpr hfree

theorem runes_take (text : Text) (k : Nat) :
    runes (text.take (total width ((runes text).take k))) = (runes text).take k :=
  (runes_cut text k).1

theorem runes_drop (text : Text) (k : Nat) :
    runes (text.drop (total width ((runes text).take k))) = (runes text).drop k :=
  (runes_cut text k).2

/-- **Two texts put together**, the second of which does not begin with a second half. -/
theorem runes_append (a : Text) {b : Text} (h : ∀ v ∈ b.head?, isTrail v = false) :
    runes (a ++ b) = runes a ++ runes b := by
  induction a using runes.induct with
  | case1 => rfl
  | case2 u =>
      rw [List.singleton_append, runes_cons, runes_singleton, List.singleton_append]
      intro v hv
      rw [h v hv, Bool.and_false]
  | case3 u v text hpair ih =>
      rw [List.cons_append, List.cons_append, runes_pair hpair, runes_pair hpair, ih,
        List.cons_append]
  | case4 u v text hfree ih =>
      rw [List.cons_append, runes_cons, ih, runes, if_neg hfree, List.cons_append]
      intro w hw
      cases hw
      exact Bool.eq_false_iff.mpr hfree

theorem utf8Length_append (a : Text) {b : Text} (h : ∀ v ∈ b.head?, isTrail v = false) :
    utf8Length (a ++ b) = utf8Length a + utf8Length b := by
  rw [utf8Length, runes_append a h, total_append]
  rfl

/-! ## The text of a rune -/

/-- The units of a rune. -/
def fromCharCode (rune : Nat) : Text :=
  if 0xFFFF < rune then
    [UInt16.ofNat (0xD800 + (rune - 0x10000) / 0x400),
      UInt16.ofNat (0xDC00 + (rune - 0x10000) % 0x400)]
  else [UInt16.ofNat rune]

theorem runes_fromCharCode {rune : Nat} (h : rune < 0x110000) :
    runes (fromCharCode rune) = [rune] := by
  unfold fromCharCode
  by_cases hwide : 0xFFFF < rune
  · rw [if_pos hwide]
    have hlead : (UInt16.ofNat (0xD800 + (rune - 0x10000) / 0x400)).toNat =
        0xD800 + (rune - 0x10000) / 0x400 := by
      rw [UInt16.toNat_ofNat', Nat.mod_eq_of_lt (by omega)]
    have htrail : (UInt16.ofNat (0xDC00 + (rune - 0x10000) % 0x400)).toNat =
        0xDC00 + (rune - 0x10000) % 0x400 := by
      rw [UInt16.toNat_ofNat', Nat.mod_eq_of_lt (by omega)]
    generalize UInt16.ofNat (0xD800 + (rune - 0x10000) / 0x400) = lead at hlead
    generalize UInt16.ofNat (0xDC00 + (rune - 0x10000) % 0x400) = trail at htrail
    have hpair : (isLead lead && isTrail trail) = true := by
      simp only [isLead, isTrail, hlead, htrail, Bool.and_eq_true, decide_eq_true_eq]
      omega
    have hvalue : combine lead trail = rune := by
      unfold combine
      omega
    rw [runes_pair hpair, hvalue, runes_nil]
  · rw [if_neg hwide, runes_singleton, UInt16.toNat_ofNat', Nat.mod_eq_of_lt (by omega)]

theorem length_fromCharCode (rune : Nat) : (fromCharCode rune).length = width rune := by
  unfold fromCharCode width
  split <;> rfl

theorem utf8Length_fromCharCode {rune : Nat} (h : rune < 0x110000) :
    utf8Length (fromCharCode rune) = size rune := by
  simp [utf8Length, runes_fromCharCode h]

/-! ## Texts of characters -/

/-- The units of a text of characters. -/
def ofString (s : String) : Text := s.toList.flatMap fun c => fromCharCode c.toNat

/-- The text is one of characters. -/
def WellFormed (text : Text) : Prop := ∃ s : String, text = ofString s

theorem toNat_lt (c : Char) : c.toNat < 0x110000 := by
  have hvalid := c.valid
  have hval : c.toNat = c.val.toNat := rfl
  simp only [UInt32.isValidChar, Nat.isValidChar] at hvalid
  omega

/-- A character does not begin with a second half. -/
theorem head_fromCharCode (c : Char) : ∀ v ∈ (fromCharCode c.toNat).head?, isTrail v = false := by
  have hvalid := c.valid
  have hval : c.toNat = c.val.toNat := rfl
  simp only [UInt32.isValidChar, Nat.isValidChar] at hvalid
  intro v hv
  unfold fromCharCode at hv
  by_cases hwide : 0xFFFF < c.toNat
  · rw [if_pos hwide] at hv
    cases hv
    simp only [isTrail, UInt16.toNat_ofNat', decide_eq_false_iff_not]
    rw [Nat.mod_eq_of_lt (by omega)]
    omega
  · rw [if_neg hwide] at hv
    cases hv
    simp only [isTrail, UInt16.toNat_ofNat', decide_eq_false_iff_not]
    rw [Nat.mod_eq_of_lt (by omega)]
    omega

theorem head_ofString (cs : List Char) :
    ∀ v ∈ (cs.flatMap fun c => fromCharCode c.toNat).head?, isTrail v = false := by
  cases cs with
  | nil => simp
  | cons c cs =>
      intro v hv
      refine head_fromCharCode c v ?_
      rw [List.flatMap_cons, List.head?_append] at hv
      have hsome : (fromCharCode c.toNat).head?.isSome = true := by
        unfold fromCharCode
        split <;> rfl
      rw [Option.or_of_isSome hsome] at hv
      exact hv

theorem ofString_append (s t : String) : ofString (s ++ t) = ofString s ++ ofString t := by
  simp [ofString]

theorem runes_ofString (s : String) : runes (ofString s) = s.toList.map Char.toNat := by
  unfold ofString
  induction s.toList with
  | nil => rfl
  | cons c cs ih =>
      rw [List.flatMap_cons, runes_append _ (head_ofString cs), runes_fromCharCode (toNat_lt c),
        ih]
      rfl

/-- The units that the first characters take. -/
theorem take_ofString {s : String} {cs : List Char} (h : cs <+: s.toList) :
    (ofString s).take (total width (cs.map Char.toNat)) = ofString (String.ofList cs) := by
  rcases h with ⟨rest, hrest⟩
  have hlength : (cs.flatMap fun c => fromCharCode c.toNat).length =
      total width (cs.map Char.toNat) := by
    clear hrest
    induction cs with
    | nil => rfl
    | cons c cs ih =>
        rw [List.flatMap_cons, List.length_append, length_fromCharCode, ih, List.map_cons,
          total_cons]
  rw [ofString, ofString, ← hrest, List.flatMap_append, String.toList_ofList,
    List.take_left' hlength]

theorem size_char (c : Char) : size c.toNat = c.utf8Size := by
  have hval : c.toNat = c.val.toNat := rfl
  have hone := Char.utf8Size_eq_one_iff (c := c)
  have htwo := Char.utf8Size_eq_two_iff (c := c)
  have hthree := Char.utf8Size_eq_three_iff (c := c)
  have hfour := Char.utf8Size_eq_four_iff (c := c)
  simp only [UInt32.le_iff_toNat_le, UInt32.lt_iff_toNat_lt, ← hval, UInt32.reduceToNat]
    at hone htwo hthree hfour
  unfold size
  rcases Char.utf8Size_eq c with h | h | h | h
  · rw [h, if_pos (by omega)]
  · rw [h, if_neg (by omega), if_pos (by omega)]
  · rw [h, if_neg (by omega), if_neg (by omega), if_pos (by omega)]
  · rw [h, if_neg (by omega), if_neg (by omega), if_neg (by omega)]

/-- The text of characters is as long as they are. -/
theorem utf8Length_ofString (s : String) : utf8Length (ofString s) = s.utf8ByteSize := by
  rw [utf8Length, runes_ofString, ← String.ofList_toList (s := s)]
  simp only [String.toList_ofList]
  induction s.toList with
  | nil => rfl
  | cons c cs ih =>
      rw [String.ofList_cons, String.utf8ByteSize_append, String.utf8ByteSize_singleton,
        List.map_cons, total_cons, size_char, ih]

end Calcar.Lib.Utf16
