import Calcar.Lib.Utf16
import Calcar.Phone.Buffers

/-!
# The caps on any texts

`capTerminalTail`, `headBytes` and `capDiffs` on texts of any code units, a broken pair
included.  `utf8.encode(text).length` is `utf8Length`.
-/

namespace Calcar.Phone.Caps

open Lib.Utf16
open Workflow (BufferedFileOf CapText kDiffFileCap kDiffByteCap tailOf newestLines capTerminalTail
  keepDiffs capDiffs)

/-- `BufferedFile`. -/
abbrev BufferedFile := BufferedFileOf Text

/-- The loop of `headBytes`: where the text is cut. -/
def headEnd (maxBytes : Nat) : Nat → Nat → List Nat → Nat
  | _, cut, [] => cut
  | bytes, cut, rune :: runes =>
      let size := if rune < 128 then 1 else utf8Length (fromCharCode rune)
      if maxBytes < bytes + size then cut
      else headEnd maxBytes (bytes + size) (cut + if 0xFFFF < rune then 2 else 1) runes

/-- `headBytes`. -/
def headBytes (text : Text) (maxBytes : Nat) : Text :=
  text.take (headEnd maxBytes 0 0 (runes text))

/-- What `capDiffs` puts behind a text it cuts. -/
def mark : Text := ofString "...truncated"

instance : CapText Text where
  utf8Length := utf8Length
  headBytes := headBytes
  mark := mark

/-! ## Where a text is cut -/

theorem headEnd_eq {rs : List Nat} (h : ∀ rune ∈ rs, rune < 0x110000) (maxBytes bytes cut : Nat) :
    headEnd maxBytes bytes cut rs =
      cut + Lib.total width (Lib.within size maxBytes bytes rs) := by
  induction rs generalizing bytes cut with
  | nil => rfl
  | cons rune rs ih =>
      have hsize : (if rune < 128 then 1 else utf8Length (fromCharCode rune)) = size rune := by
        rw [utf8Length_fromCharCode (h rune List.mem_cons_self), ite_eq_right_iff]
        intro hlow
        exact (if_pos hlow).symm
      rw [headEnd, Lib.within, hsize]
      split
      · rfl
      · rw [ih fun r hr => h r (List.mem_cons_of_mem _ hr), Lib.total_cons, Nat.add_assoc]
        rfl

/-- **What `headBytes` keeps** are the first runes, as long as their bytes fit. -/
theorem runes_headBytes (text : Text) (maxBytes : Nat) :
    runes (headBytes text maxBytes) = Lib.within size maxBytes 0 (runes text) := by
  have hprefix := Lib.within_front size maxBytes (runes text) 0
  rw [headBytes, headEnd_eq (runes_lt text), Nat.zero_add, List.prefix_iff_eq_take.mp hprefix,
    runes_take]

/-- It cuts between two runes. -/
theorem headBytes_boundary (text : Text) (maxBytes : Nat) :
    ∃ rest, text = headBytes text maxBytes ++ rest ∧
      runes text = runes (headBytes text maxBytes) ++ runes rest := by
  have hprefix := Lib.within_front size maxBytes (runes text) 0
  refine ⟨text.drop (headEnd maxBytes 0 0 (runes text)), (List.take_append_drop _ _).symm, ?_⟩
  rw [runes_headBytes, headEnd_eq (runes_lt text), Nat.zero_add,
    List.prefix_iff_eq_take.mp hprefix, runes_drop, List.take_append_drop]

/-- What it keeps fits. -/
theorem headBytes_le (text : Text) (maxBytes : Nat) :
    utf8Length (headBytes text maxBytes) ≤ maxBytes := by
  have htotal := Lib.within_total size (Nat.zero_le maxBytes) (runes text)
  rw [utf8Length, runes_headBytes]
  omega

/-- Of a text that does not fit it keeps all but three bytes of what fits at least. -/
theorem le_headBytes {text : Text} {maxBytes : Nat} (h : maxBytes < utf8Length text) :
    maxBytes ≤ utf8Length (headBytes text maxBytes) + 3 := by
  have hlong : maxBytes < 0 + Lib.total size (runes text) := by rwa [Nat.zero_add]
  obtain ⟨rune, rest, -, hover⟩ := Lib.within_next hlong (Nat.zero_le _)
  have hsize := size_le rune
  rw [utf8Length, runes_headBytes]
  omega

/-! ## On texts of characters -/

theorem newestLines_ofString (bytes : Nat) (lines : List String) :
    newestLines bytes (lines.map ofString) = (newestLines bytes lines).map ofString := by
  induction lines generalizing bytes with
  | nil => rfl
  | cons line older ih =>
      have hsize : CapText.utf8Length (ofString line) = CapText.utf8Length line :=
        utf8Length_ofString line
      rw [List.map_cons, newestLines, newestLines, hsize]
      split
      · rfl
      · rw [ih, List.map_cons]

/-- **The cap of the buffers** is this one. -/
theorem capTerminalTail_ofString (lines : List String) :
    capTerminalTail (lines.map ofString) = (capTerminalTail lines).map ofString := by
  rw [capTerminalTail, capTerminalTail, tailOf, tailOf, List.length_map,
    ← List.map_drop, ← List.map_reverse, newestLines_ofString, List.map_reverse]

theorem headChars_eq (maxBytes bytes : Nat) (cs : List Char) :
    Workflow.headChars maxBytes bytes cs = Lib.within Char.utf8Size maxBytes bytes cs := by
  induction cs generalizing bytes with
  | nil => rfl
  | cons c cs ih => rw [Workflow.headChars, Lib.within, ih]

theorem headBytes_ofString (s : String) (maxBytes : Nat) :
    headBytes (ofString s) maxBytes = ofString (Workflow.headBytes s maxBytes) := by
  have hprefix := Lib.within_front Char.utf8Size maxBytes s.toList 0
  have hkept : Lib.within size maxBytes 0 (s.toList.map Char.toNat) =
      (Lib.within Char.utf8Size maxBytes 0 s.toList).map Char.toNat :=
    Lib.within_map size_char _ 0
  rw [headBytes, headEnd_eq (runes_lt _), runes_ofString, hkept, Nat.zero_add,
    Workflow.headBytes, headChars_eq, take_ofString hprefix]

/-- The file, its texts in units. -/
def ofFile (hunk : Workflow.BufferedFile) : BufferedFile where
  path := ofString hunk.path
  diff := ofString hunk.diff
  truncated := hunk.truncated

theorem keepDiffs_ofFile (bytes : Nat) (hunks : List Workflow.BufferedFile) :
    keepDiffs bytes (hunks.map ofFile) = (keepDiffs bytes hunks).map ofFile := by
  induction hunks generalizing bytes with
  | nil => rfl
  | cons hunk hunks ih =>
      have hsize : CapText.utf8Length (ofFile hunk).diff = CapText.utf8Length hunk.diff :=
        utf8Length_ofString hunk.diff
      have hhead (room : Nat) : CapText.headBytes (ofFile hunk).diff room ++ CapText.mark =
          ofString (CapText.headBytes hunk.diff room ++ CapText.mark) := by
        rw [ofString_append]
        exact congrArg (· ++ mark) (headBytes_ofString hunk.diff room)
      rw [List.map_cons, keepDiffs, keepDiffs, hsize]
      split
      · dsimp only
        have hmark : (CapText.mark : Text) = ofString CapText.mark := rfl
        rw [hhead, hmark, ← apply_ite ofString]
        rfl
      · rw [ih, List.map_cons]

theorem capDiffs_ofFile (hunks : List Workflow.BufferedFile) :
    capDiffs (hunks.map ofFile) = (capDiffs hunks).map ofFile := by
  rw [capDiffs, capDiffs, ← List.map_take, keepDiffs_ofFile]

end Calcar.Phone.Caps
