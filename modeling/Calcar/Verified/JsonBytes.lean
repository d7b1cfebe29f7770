import Calcar.Agent.JsonBytes
import Calcar.Verified.JsonGrammar

/-!
# The agent's JSON parser never panics

Whatever the text, the parser over bytes stands between two characters whenever it
slices, indexes and slices in range, nests no deeper than 65 calls and comes to an end.
Every move is over ASCII bytes or by the length of a character that was decoded.

## Main results

* `string_safe`, `number_safe`, `array_safe`, `object_safe` — the parts of a document.
* `parse_safe` — no panic, no endless loop, for every text.
-/

namespace Calcar.Agent.JsonBytes

open Calcar.Lib Calcar.Lib.Walk Calcar.Lib.Utf8

variable {F : Type} {cs : List Char} {pos : Nat}

/-! ## Safety -/

/-- An access that cannot panic.  A slice is taken at a boundary, and starts at one. -/
def Good (cs : List Char) : Access → Prop
  | .index pos => pos < (asBytes cs).length
  | .slice pos start stop =>
      Boundary cs pos ∧ Boundary cs start ∧ start ≤ stop ∧ stop ≤ (asBytes cs).length
  | .enter depth => depth ≤ 65

/-- What a part of the parser meets in the bytes of the text. -/
abbrev Safe (cs : List Char) {α : Type} (pos : Nat) (p : Walk α) (Q : α → Nat → Prop) : Prop :=
  Meets (Good cs) (asBytes cs) pos p Q

/-- It ends at a boundary and does not go back. -/
def Forward (cs : List Char) {α : Type} (pos : Nat) (_ : α) (pos' : Nat) : Prop :=
  Boundary cs pos' ∧ pos ≤ pos'

/-- Bytes of ASCII characters only. -/
def lowBytes (bs : Bytes) : Bool := bs.all fun b => decide (b.toNat < 128)

theorem lowBytes_mem {bs : Bytes} (h : lowBytes bs = true) : ∀ b ∈ bs, b.toNat < 128 :=
  fun b hb => of_decide_eq_true (List.all_eq_true.mp h b hb)

theorem isDigit_low {b : UInt8} (h : isDigit b = true) : b.toNat < 128 := by
  have hrange := of_decide_eq_true h
  omega

theorem isAsciiWhitespace_low {b : UInt8} (h : isAsciiWhitespace b = true) : b.toNat < 128 := by
  simp only [isAsciiWhitespace, Bool.or_eq_true, beq_iff_eq] at h
  obtain (((rfl | rfl) | rfl) | rfl) | rfl := h <;> decide

theorem skipWhile_safe {p : UInt8 → Bool} (hp : ∀ b, p b = true → b.toNat < 128)
    (h : Boundary cs pos) (spare : Nat) :
    Safe cs pos (skipWhile spare p) (Forward cs pos) := by
  unfold skipWhile
  refine meets_loop (fun _ => Forward cs pos ()) (fun _ _ hinv => hinv.1.le)
    (fun _ pos' hinv => ?_) ⟨h, Nat.le_refl _⟩
  refine Meets.bind (meets_peek ?_)
  cases hb : (asBytes cs)[pos']? with
  | none => exact meets_pure hinv
  | some b =>
      by_cases hpb : p b = true
      · simp only [hpb, if_true]
        refine Meets.bind (meets_advance (meets_pure ?_))
        exact ⟨⟨hinv.1.byte hb (hp b hpb), Nat.le_succ_of_le hinv.2⟩, Nat.lt_succ_self pos'⟩
      · simp only [hpb]
        exact meets_pure hinv

theorem skipWs_safe (h : Boundary cs pos) (spare : Nat) :
    Safe cs pos (skipWs spare) (Forward cs pos) := by
  unfold skipWs
  refine meets_loop (fun _ => Forward cs pos ()) (fun _ _ hinv => hinv.1.le)
    (fun _ pos' hinv => ?_) ⟨h, Nat.le_refl _⟩
  refine Meets.bind (meets_position (Meets.bind (meets_length ?_)))
  by_cases hlt : pos' < (asBytes cs).length
  · rw [if_pos hlt]
    have hb := List.getElem?_eq_getElem hlt
    refine Meets.bind (meets_index hlt hb ?_)
    generalize (asBytes cs)[pos'] = b at hb
    by_cases hws : isAsciiWhitespace b = true
    · rw [if_pos hws]
      refine Meets.bind (meets_advance (meets_pure ?_))
      exact ⟨⟨hinv.1.byte hb (isAsciiWhitespace_low hws), Nat.le_succ_of_le hinv.2⟩,
        Nat.lt_succ_self pos'⟩
    · rw [if_neg hws]
      exact meets_pure hinv
  · rw [if_neg hlt]
    exact meets_pure hinv

theorem optional_safe {bs : Bytes} (hbs : lowBytes bs = true) (h : Boundary cs pos) :
    Safe cs pos (optional bs) (Forward cs pos) := by
  unfold optional
  refine Meets.bind (meets_peek ?_)
  cases hb : (asBytes cs)[pos]? with
  | none => exact meets_pure ⟨h, Nat.le_refl _⟩
  | some b =>
      by_cases hmem : bs.contains b = true
      · simp only [hmem, if_true]
        refine Meets.bind (meets_advance (meets_pure ?_))
        exact ⟨h.byte hb (lowBytes_mem hbs b (List.contains_iff_mem.mp hmem)), Nat.le_succ pos⟩
      · simp only [hmem]
        exact meets_pure ⟨h, Nat.le_refl _⟩

theorem lit_safe {word : Bytes} (hword : lowBytes word = true) (h : Boundary cs pos) :
    Safe cs pos (lit word) (Forward cs pos) := by
  unfold lit
  refine Meets.bind (meets_position (Meets.bind (meets_length (Meets.bind ?_))))
  refine meets_slice ⟨h, h, h.le, Nat.le_refl _⟩ ⟨h.le, Nat.le_refl _⟩ ?_
  by_cases hpre : word.isPrefixOf
      (((asBytes cs).drop pos).take ((asBytes cs).length - pos)) = true
  · rw [if_pos hpre]
    have hdrop := (List.isPrefixOf_iff_prefix.mp hpre).trans (List.take_prefix _ _)
    exact meets_advance ⟨h.ascii hdrop (lowBytes_mem hword), Nat.le_add_right _ _⟩
  · rw [if_neg hpre]
    exact meets_refuse

/-! ## Escapes and strings -/

theorem hexDigit_low {c : Char} {d : Nat} (h : Lib.Json.hexDigit c = some d) : c.toNat < 128 := by
  unfold Lib.Json.hexDigit at h
  by_cases hdigit : c.isDigit = true
  · have hrange := Char.isDigit_iff_toNat.mp hdigit
    have hnine : '9'.toNat = 57 := rfl
    omega
  rw [if_neg hdigit] at h
  by_cases hlow : 'a' ≤ c ∧ c ≤ 'f'
  · exact Nat.lt_of_le_of_lt (Char.le_def.mp hlow.2) (by decide)
  rw [if_neg hlow] at h
  by_cases hup : 'A' ≤ c ∧ c ≤ 'F'
  · exact Nat.lt_of_le_of_lt (Char.le_def.mp hup.2) (by decide)
  rw [if_neg hup] at h
  cases h

theorem hexDigits_low {ds : List Char} {n code : Nat} (h : Json.hexDigits n ds = some code) :
    ∀ c ∈ ds, c.toNat < 128 := by
  induction ds generalizing n with
  | nil => exact List.forall_mem_nil _
  | cons c ds ih =>
      obtain ⟨d, hd, hrest⟩ := Option.bind_eq_some_iff.mp h
      exact List.forall_mem_cons.mpr ⟨hexDigit_low hd, ih hrest⟩

theorem fromStrRadix16_low {ds : List Char} {code : Nat} (h : fromStrRadix16 ds = some code) :
    ∀ c ∈ ds, c.toNat < 128 := by
  cases ds with
  | nil => cases h
  | cons c rest =>
      simp only [fromStrRadix16] at h
      by_cases hplus : c = '+'
      · rw [if_pos hplus] at h
        by_cases hrest : rest = []
        · rw [if_pos hrest] at h
          cases h
        · rw [if_neg hrest] at h
          exact List.forall_mem_cons.mpr ⟨by rw [hplus]; decide, hexDigits_low h⟩
      · rw [if_neg hplus] at h
        exact hexDigits_low h

theorem hex4_safe (h : Boundary cs pos) : Safe cs pos hex4 (Forward cs pos) := by
  unfold hex4
  refine Meets.bind (meets_position (Meets.bind (meets_length ?_)))
  by_cases hroom : pos + 4 > (asBytes cs).length
  · rw [if_pos hroom]
    exact meets_refuse
  rw [if_neg hroom]
  refine Meets.bind (meets_slice ⟨h, h, by omega, by omega⟩ (by omega) ?_)
  refine Meets.bind (meets_ofOption fun digits hdigits => ?_)
  refine Meets.bind (meets_ofOption fun code hcode => ?_)
  refine Meets.bind (meets_advance (meets_pure ?_))
  -- The digits are four ASCII bytes.
  have hbytes : asBytes digits = ((asBytes cs).drop pos).take 4 := by
    rw [asBytes_fromUtf8 hdigits, Nat.add_sub_cancel_left]
  have hfour : (asBytes digits).length = 4 := by
    rw [hbytes, List.length_take, List.length_drop]
    omega
  have hnext := h.ascii (hbytes ▸ List.take_prefix 4 _) (asBytes_low (fromStrRadix16_low hcode))
  rw [hfour] at hnext
  exact ⟨hnext, Nat.le_add_right pos 4⟩

theorem escapes_low {c : Char} (h : Lib.Json.escapes.contains c = true) : c.toNat < 128 := by
  have hall : (Lib.Json.escapes.all fun c => decide (c.toNat < 128)) = true := by decide
  exact of_decide_eq_true (List.all_eq_true.mp hall c (List.contains_iff_mem.mp h))

/-- A byte that stands for a short escape. -/
theorem shortEscape_low {esc : UInt8} {ch : Char}
    (h : Json.shortEscape (Char.ofNat esc.toNat) = some ch) : esc.toNat < 128 := by
  have hvalid : esc.toNat.isValidChar := Or.inl (by have := esc.toNat_lt; omega)
  have hback : (Char.ofNat esc.toNat).toNat = esc.toNat := by
    rw [Char.ofNat, dif_pos hvalid]
    rfl
  rw [← hback]
  exact escapes_low (Json.shortEscape_some h)

/-- Behind a byte outside ASCII is no boundary, but no escape starts with one either. -/
theorem escaped_safe {esc : UInt8} (h : esc.toNat < 128 → Boundary cs pos) :
    Safe cs pos (escaped esc) (Forward cs pos) := by
  unfold escaped
  by_cases hu : esc = 0x75
  · rw [if_pos hu]
    refine Meets.bind ((hex4_safe (h (by rw [hu]; decide))).mono fun code pos' hnext => ?_)
    exact meets_ofOption fun _ _ => hnext
  · rw [if_neg hu]
    exact meets_ofOption fun ch hch => ⟨h (shortEscape_low hch), Nat.le_refl pos⟩

/-- It ends at a boundary further right. -/
def Onward (cs : List Char) {α : Type} (pos : Nat) (_ : α) (pos' : Nat) : Prop :=
  Boundary cs pos' ∧ pos < pos'

theorem stringRound_safe {out : List Char} {pos' : Nat} (h : Onward cs pos () pos') :
    Safe cs pos' (stringRound out) (Round (fun _ => Onward cs pos ()) (Onward cs pos) pos') := by
  obtain ⟨hbound, hpos⟩ := h
  unfold stringRound
  refine Meets.bind (meets_peek (Meets.bind (meets_ofOption fun byte hbyte => ?_)))
  by_cases hquote : byte = 0x22
  · rw [if_pos hquote]
    refine Meets.bind (meets_advance (meets_pure ?_))
    exact ⟨hbound.byte hbyte (by rw [hquote]; decide), Nat.lt_succ_of_lt hpos⟩
  rw [if_neg hquote]
  by_cases hslash : byte = 0x5C
  · rw [if_pos hslash]
    have hnext : Boundary cs (pos' + 1) := hbound.byte hbyte (by rw [hslash]; decide)
    refine Meets.bind (meets_advance (Meets.bind (meets_peek ?_)))
    refine Meets.bind (meets_ofOption fun esc hesc => Meets.bind (meets_advance ?_))
    refine Meets.bind ((escaped_safe fun hlow => hnext.byte hesc hlow).mono ?_)
    exact fun ch pos'' hend => meets_pure ⟨⟨hend.1, by have := hend.2; omega⟩,
      by have := hend.2; omega⟩
  rw [if_neg hslash]
  by_cases hcontrol : byte.toNat ≤ 0x1F
  · rw [if_pos hcontrol]
    exact meets_refuse
  rw [if_neg hcontrol]
  -- What is left of the text is UTF-8, and its first character leads to the next boundary.
  refine Meets.bind (meets_position (Meets.bind (meets_length (Meets.bind ?_))))
  refine meets_slice ⟨hbound, hbound, hbound.le, Nat.le_refl _⟩ ⟨hbound.le, Nat.le_refl _⟩ ?_
  refine Meets.bind (meets_ofOption fun text htext => ?_)
  refine Meets.bind (meets_ofOption fun ch hch => Meets.bind (meets_advance (meets_pure ?_)))
  obtain ⟨after, hdrop, hnext⟩ := hbound.rest
  have hafter : text = after := by
    rw [List.take_of_length_le (by rw [List.length_drop]), hdrop, fromUtf8_asBytes] at htext
    exact (Option.some.inj htext).symm
  obtain ⟨more, hmore⟩ := List.head?_eq_some_iff.mp hch
  have hsize : 0 < ch.utf8Size := ch.utf8Size_pos
  exact ⟨⟨hnext ch more (hafter.symm.trans hmore), by omega⟩, by omega⟩

theorem string_safe (h : Boundary cs (pos + 1)) (spare : Nat) :
    Safe cs pos (string spare) (Onward cs pos) := by
  unfold string
  refine Meets.bind (meets_advance ?_)
  exact meets_loop (fun _ => Onward cs pos ()) (fun _ _ hinv => hinv.1.le)
    (fun _ _ => stringRound_safe) ⟨h, Nat.lt_succ_self pos⟩

/-! ## Numbers -/

theorem fraction_safe (h : Boundary cs pos) (spare : Nat) :
    Safe cs pos (fraction spare) (Forward cs pos) := by
  unfold fraction
  refine Meets.bind ((optional_safe (by decide) h).mono fun point pos₁ h₁ => ?_)
  cases point with
  | false => exact meets_pure h₁
  | true =>
      refine Meets.bind ((skipWhile_safe (fun _ => isDigit_low) h₁.1 spare).mono ?_)
      exact fun _ pos₂ h₂ => meets_pure ⟨h₂.1, Nat.le_trans h₁.2 h₂.2⟩

theorem exponent_safe (h : Boundary cs pos) (spare : Nat) :
    Safe cs pos (exponent spare) (Forward cs pos) := by
  unfold exponent
  refine Meets.bind ((optional_safe (by decide) h).mono fun letter pos₁ h₁ => ?_)
  cases letter with
  | false => exact meets_pure h₁
  | true =>
      refine Meets.bind ((optional_safe (by decide) h₁.1).mono fun _ pos₂ h₂ => ?_)
      refine Meets.bind ((skipWhile_safe (fun _ => isDigit_low) h₂.1 spare).mono ?_)
      exact fun _ pos₃ h₃ => meets_pure ⟨h₃.1, by have := h₁.2; have := h₂.2; have := h₃.2; omega⟩

theorem number_safe (f : Json.F64 F) (h : Boundary cs pos) (spare : Nat) :
    Safe cs pos (number f spare) (Forward cs pos) := by
  unfold number
  refine Meets.bind (meets_position ?_)
  refine Meets.bind ((optional_safe (by decide) h).mono fun _ pos₁ h₁ => ?_)
  refine Meets.bind ((skipWhile_safe (fun _ => isDigit_low) h₁.1 spare).mono fun _ pos₂ h₂ => ?_)
  refine Meets.bind ((fraction_safe h₂.1 spare).mono fun point pos₃ h₃ => ?_)
  refine Meets.bind ((exponent_safe h₃.1 spare).mono fun letter pos₄ h₄ => ?_)
  have hle : pos ≤ pos₄ := by
    have hpos₁ := h₁.2
    have hpos₂ := h₂.2
    have hpos₃ := h₃.2
    have hpos₄ := h₄.2
    omega
  refine Meets.bind (meets_position (Meets.bind ?_))
  refine meets_slice ⟨h₄.1, h, hle, h₄.1.le⟩ ⟨hle, h₄.1.le⟩ ?_
  exact Meets.bind (meets_ofOption fun _ _ => meets_ofOption fun _ _ => ⟨h₄.1, hle⟩)

/-! ## Documents -/

section Rounds

variable {value : Walk (Json.Value F)} {pos' spare : Nat}

/-- Behind an item: a comma, and the loop goes on further right, or what closes the
container. -/
theorem separated_safe {σ β : Type} {close : UInt8} {more : σ} {last : β} {pos'' : Nat}
    (hclose : close.toNat < 128) (h : Forward cs pos () pos') (hround : pos' ≤ pos'')
    (hbound : Boundary cs pos'') :
    Safe cs pos'' (do
      let byte ← ofOption (← peek)
      if byte = 0x2C then do
        advance 1
        pure (.inl more)
      else if byte = close then do
        advance 1
        pure (.inr last)
      else refuse) (Round (fun _ => Forward cs pos ()) (Forward cs pos) pos') := by
  refine Meets.bind (meets_peek (Meets.bind (meets_ofOption fun byte hbyte => ?_)))
  have hfrom : pos ≤ pos'' := Nat.le_trans h.2 hround
  by_cases hcomma : byte = 0x2C
  · rw [if_pos hcomma]
    refine Meets.bind (meets_advance (meets_pure ?_))
    exact ⟨⟨hbound.byte hbyte (by rw [hcomma]; decide), Nat.le_succ_of_le hfrom⟩,
      Nat.lt_succ_of_le hround⟩
  rw [if_neg hcomma]
  by_cases hend : byte = close
  · rw [if_pos hend]
    refine Meets.bind (meets_advance (meets_pure ?_))
    exact ⟨hbound.byte hbyte (by rwa [hend]), Nat.le_succ_of_le hfrom⟩
  · rw [if_neg hend]
    exact meets_refuse

theorem arrayRound_safe {items : List (Json.Value F)}
    (hvalue : ∀ pos, Boundary cs pos → Safe cs pos value (Forward cs pos))
    (h : Forward cs pos () pos') :
    Safe cs pos' (arrayRound spare value items)
      (Round (fun _ => Forward cs pos ()) (Forward cs pos) pos') := by
  unfold arrayRound
  refine Meets.bind ((skipWs_safe h.1 spare).mono fun _ pos₁ h₁ => ?_)
  refine Meets.bind ((hvalue pos₁ h₁.1).mono fun item pos₂ h₂ => ?_)
  refine Meets.bind ((skipWs_safe h₂.1 spare).mono fun _ pos₃ h₃ => ?_)
  exact separated_safe (by decide) h (Nat.le_trans h₁.2 (Nat.le_trans h₂.2 h₃.2)) h₃.1

theorem array_safe (hvalue : ∀ pos, Boundary cs pos → Safe cs pos value (Forward cs pos))
    (h : Boundary cs (pos + 1)) : Safe cs pos (array spare value) (Forward cs pos) := by
  unfold array
  refine Meets.bind (meets_advance (Meets.bind ((skipWs_safe h spare).mono fun _ pos₁ h₁ => ?_)))
  have hle : pos ≤ pos₁ := Nat.le_of_succ_le h₁.2
  refine Meets.bind (meets_peek ?_)
  by_cases hclose : (asBytes cs)[pos₁]? = some 0x5D
  · rw [if_pos hclose]
    exact Meets.bind (meets_advance (meets_pure ⟨h₁.1.byte hclose (by decide),
      Nat.le_succ_of_le hle⟩))
  · rw [if_neg hclose]
    exact meets_loop (fun _ => Forward cs pos ()) (fun _ _ hinv => hinv.1.le)
      (fun _ _ => arrayRound_safe hvalue) ⟨h₁.1, hle⟩

theorem objectRound_safe {map : List (String × Json.Value F)}
    (hvalue : ∀ pos, Boundary cs pos → Safe cs pos value (Forward cs pos))
    (h : Forward cs pos () pos') :
    Safe cs pos' (objectRound spare value map)
      (Round (fun _ => Forward cs pos ()) (Forward cs pos) pos') := by
  unfold objectRound
  refine Meets.bind ((skipWs_safe h.1 spare).mono fun _ pos₁ h₁ => ?_)
  refine Meets.bind (meets_peek ?_)
  by_cases hquote : (asBytes cs)[pos₁]? = some 0x22
  case neg =>
    rw [if_neg hquote]
    exact meets_refuse
  rw [if_pos hquote]
  have hkey : Boundary cs (pos₁ + 1) := h₁.1.byte hquote (by decide)
  refine Meets.bind ((string_safe hkey spare).mono fun key pos₂ h₂ => ?_)
  refine Meets.bind ((skipWs_safe h₂.1 spare).mono fun _ pos₃ h₃ => ?_)
  refine Meets.bind (meets_peek ?_)
  by_cases hcolon : (asBytes cs)[pos₃]? = some 0x3A
  case neg =>
    rw [if_neg hcolon]
    exact meets_refuse
  rw [if_pos hcolon]
  have hitem : Boundary cs (pos₃ + 1) := h₃.1.byte hcolon (by decide)
  refine Meets.bind (meets_advance (Meets.bind ((skipWs_safe hitem spare).mono ?_)))
  intro _ pos₄ h₄
  refine Meets.bind ((hvalue pos₄ h₄.1).mono fun item pos₅ h₅ => ?_)
  refine Meets.bind ((skipWs_safe h₅.1 spare).mono fun _ pos₆ h₆ => ?_)
  have hround : pos' ≤ pos₆ := by
    have hpos₁ := h₁.2
    have hpos₂ := h₂.2
    have hpos₃ := h₃.2
    have hpos₄ := h₄.2
    have hpos₅ := h₅.2
    have hpos₆ := h₆.2
    omega
  exact separated_safe (by decide) h hround h₆.1

theorem object_safe (hvalue : ∀ pos, Boundary cs pos → Safe cs pos value (Forward cs pos))
    (h : Boundary cs (pos + 1)) : Safe cs pos (object spare value) (Forward cs pos) := by
  unfold object
  refine Meets.bind (meets_advance (Meets.bind ((skipWs_safe h spare).mono fun _ pos₁ h₁ => ?_)))
  have hle : pos ≤ pos₁ := Nat.le_of_succ_le h₁.2
  refine Meets.bind (meets_peek ?_)
  by_cases hclose : (asBytes cs)[pos₁]? = some 0x7D
  · rw [if_pos hclose]
    exact Meets.bind (meets_advance (meets_pure ⟨h₁.1.byte hclose (by decide),
      Nat.le_succ_of_le hle⟩))
  · rw [if_neg hclose]
    exact meets_loop (fun _ => Forward cs pos ()) (fun _ _ hinv => hinv.1.le)
      (fun _ _ => objectRound_safe hvalue) ⟨h₁.1, hle⟩

end Rounds

/-- `value` is called at depth 65 at most, where it refuses. -/
theorem value_safe (f : Json.F64 F) (spare calls : Nat) :
    ∀ (depth pos : Nat), depth ≤ 65 → 65 < calls + depth → Boundary cs pos →
      Safe cs pos (value f spare calls depth) (Forward cs pos) := by
  induction calls with
  | zero =>
      intro depth pos hdepth hcalls
      omega
  | succ calls ih =>
      intro depth pos hdepth hcalls h
      unfold value
      refine Meets.bind (meets_enter hdepth ?_)
      by_cases hdeep : depth > Json.maxDepth
      · rw [if_pos hdeep]
        exact meets_refuse
      rw [if_neg hdeep]
      have hmax : Json.maxDepth = 64 := rfl
      have hvalue : ∀ pos, Boundary cs pos →
          Safe cs pos (value f spare calls (depth + 1)) (Forward cs pos) :=
        fun pos => ih (depth + 1) pos (by omega) (by omega)
      refine Meets.bind (meets_peek (Meets.bind (meets_ofOption fun byte hbyte => ?_)))
      by_cases hbrace : byte = 0x7B
      · rw [if_pos hbrace]
        exact object_safe hvalue (h.byte hbyte (by rw [hbrace]; decide))
      rw [if_neg hbrace]
      by_cases hbracket : byte = 0x5B
      · rw [if_pos hbracket]
        exact array_safe hvalue (h.byte hbyte (by rw [hbracket]; decide))
      rw [if_neg hbracket]
      by_cases hquote : byte = 0x22
      · rw [if_pos hquote]
        have hstring := string_safe (h.byte hbyte (by rw [hquote]; decide)) spare
        exact Meets.bind (hstring.mono fun _ _ hend => meets_pure ⟨hend.1, Nat.le_of_lt hend.2⟩)
      rw [if_neg hquote]
      by_cases htrue : byte = 0x74
      · rw [if_pos htrue]
        exact Meets.bind ((lit_safe (by decide) h).mono fun _ _ hend => meets_pure hend)
      rw [if_neg htrue]
      by_cases hfalse : byte = 0x66
      · rw [if_pos hfalse]
        exact Meets.bind ((lit_safe (by decide) h).mono fun _ _ hend => meets_pure hend)
      rw [if_neg hfalse]
      by_cases hnull : byte = 0x6E
      · rw [if_pos hnull]
        exact Meets.bind ((lit_safe (by decide) h).mono fun _ _ hend => meets_pure hend)
      rw [if_neg hnull]
      by_cases hnumber : byte = 0x2D ∨ isDigit byte = true
      · rw [if_pos hnumber]
        exact number_safe f h spare
      · rw [if_neg hnumber]
        exact meets_refuse

theorem document_safe (f : Json.F64 F) (spare : Nat) :
    Safe cs 0 (document f spare) (Forward cs 0) := by
  unfold document
  refine Meets.bind ((skipWs_safe boundary_zero spare).mono fun _ pos₁ h₁ => ?_)
  have hcalls : 65 < Json.maxDepth + 2 + spare + 0 :=
    Nat.lt_of_lt_of_le (by decide) (Nat.le_add_right 66 spare)
  have hvalue := value_safe f spare _ 0 pos₁ (Nat.zero_le 65) hcalls h₁.1
  refine Meets.bind (hvalue.mono fun item pos₂ h₂ => ?_)
  refine Meets.bind ((skipWs_safe h₂.1 spare).mono fun _ pos₃ h₃ => ?_)
  refine Meets.bind (meets_position (Meets.bind (meets_length ?_)))
  by_cases hmore : pos₃ ≠ (asBytes cs).length
  · rw [if_pos hmore]
    exact meets_refuse
  · rw [if_neg hmore]
    exact meets_pure ⟨h₃.1, Nat.zero_le pos₃⟩

/-- **The parser is safe for every text.**  It is refused or ends with a value; no loop
wants more rounds than the text has bytes and one, whatever `spare` allows, and no call
nests deeper than 65; every slice is in range and taken at a boundary, every index is in
range. -/
theorem parse_safe (f : Json.F64 F) (spare : Nat) (text : String) :
    (∀ access ∈ (parse f spare text).1, Good text.toList access) ∧
      ((parse f spare text).2 = .refused ∨ ∃ v pos, (parse f spare text).2 = .done v pos) := by
  have hsafe : Safe text.toList 0 (document f spare) (Forward text.toList 0) :=
    document_safe f spare
  refine ⟨hsafe.1, ?_⟩
  have hends := hsafe.2
  unfold parse
  cases hend : (document f spare (asBytes text.toList) 0).2 with
  | done v pos => exact .inr ⟨v, pos, rfl⟩
  | refused => exact .inl rfl
  | panicked =>
      rw [hend] at hends
      exact hends.elim
  | spent =>
      rw [hend] at hends
      exact hends.elim

end Calcar.Agent.JsonBytes
