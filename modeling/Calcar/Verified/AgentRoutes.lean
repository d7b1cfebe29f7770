import Mathlib.Data.List.TakeWhile
import Calcar.Lib.Utf8
import Calcar.Phone.AgentUrl
import Calcar.Verified.PercentDecode

/-!
# Requests that reach their route

The phone puts the ids of a request into the text of a path as they are, `Uri.parse`
rewrites the path, and the agent splits it before it decodes.  A rewriting keeps what a
part decodes to; counting separators and ASCII characters shows that nothing is lost
exactly when every id is plain.

## Main results

* `percentDecode_normalize` — a normalised part decodes to what the part itself decodes to.
* `pathSegments_address` — the parts come back exactly when each is sound.
* `agent_requests_routed_iff` — a request reaches its route with its ids exactly when
  they are plain.
-/

namespace Calcar.Phone.Uri

open Agent Lib Lib.Utf8

/-! ## Escapes -/

theorem hexVal_hexDigit {n : Nat} (h : n < 16) :
    hexVal (UInt8.ofNat (hexDigit n).toNat) = some (UInt8.ofNat n) := by
  have hall : ∀ n < 16, hexVal (UInt8.ofNat (hexDigit n).toNat) = some (UInt8.ofNat n) := by
    decide
  exact hall n h

theorem hexDigit_ascii {n : Nat} (h : n < 16) : (hexDigit n).toNat < 128 := by
  have hall : ∀ n < 16, (hexDigit n).toNat < 128 := by decide
  exact hall n h

/-- **An escape is read as its byte.** -/
theorem decodeEscapes_escape (b : UInt8) (rest : Bytes) :
    decodeEscapes (asBytes (escapeByte b) ++ rest) = b :: decodeEscapes rest := by
  have hhi : b.toNat / 16 < 16 := by have := b.toNat_lt; omega
  have hlo : b.toNat % 16 < 16 := Nat.mod_lt _ (by decide)
  have hpercent : String.utf8EncodeChar '%' = [0x25] := by decide
  have hbytes : asBytes (escapeByte b) = [0x25, UInt8.ofNat (hexDigit (b.toNat / 16)).toNat,
      UInt8.ofNat (hexDigit (b.toNat % 16)).toNat] := by
    simp [asBytes, escapeByte, hpercent, utf8_ascii (hexDigit_ascii hhi),
      utf8_ascii (hexDigit_ascii hlo)]
  rw [hbytes]
  simp [decodeEscapes, hexVal_hexDigit hhi, hexVal_hexDigit hlo, nibbles]

/-- A byte sequence written in escapes is read back. -/
theorem decodeEscapes_escapes (bs rest : Bytes) :
    decodeEscapes (asBytes (bs.flatMap escapeByte) ++ rest) = bs ++ decodeEscapes rest := by
  induction bs with
  | nil => rfl
  | cons b bs ih =>
      rw [List.flatMap_cons, asBytes_append, List.append_assoc, decodeEscapes_escape, ih]
      rfl

/-! ## Tokens -/

/-- The bytes a token stands for. -/
def Token.bytes : Token → Bytes
  | .escape b => [b]
  | .plain c => String.utf8EncodeChar c

/-- The digits and the letters of ASCII. -/
theorem alphanum_range {c : Char} (h : c.isAlphanum = true) :
    (48 ≤ c.toNat ∧ c.toNat ≤ 57) ∨ (65 ≤ c.toNat ∧ c.toNat ≤ 90) ∨
      (97 ≤ c.toNat ∧ c.toNat ≤ 122) := by
  have hbetween : ∀ first last : UInt32,
      (decide (first ≤ c.val) && decide (c.val ≤ last)) = true →
        first.toNat ≤ c.toNat ∧ c.toNat ≤ last.toNat := by
    intro first last hrange
    obtain ⟨hfirst, hlast⟩ := Bool.and_eq_true_iff.mp hrange
    exact ⟨UInt32.le_iff_toNat_le.mp (of_decide_eq_true hfirst),
      UInt32.le_iff_toNat_le.mp (of_decide_eq_true hlast)⟩
  have hcases : ((c.isUpper || c.isLower) || c.isDigit) = true := h
  rw [Bool.or_eq_true, Bool.or_eq_true] at hcases
  obtain (hup | hlow) | hdigit := hcases
  · have hrange : 'A'.val ≤ c.val ∧ c.val ≤ 'Z'.val := of_decide_eq_true hup
    exact .inr (.inl ⟨UInt32.le_iff_toNat_le.mp hrange.1, UInt32.le_iff_toNat_le.mp hrange.2⟩)
  · exact .inr (.inr (hbetween 'a'.val 'z'.val hlow))
  · exact .inl (hbetween '0'.val '9'.val hdigit)

theorem alphanum_ascii {c : Char} (h : c.isAlphanum = true) : c.toNat < 128 := by
  obtain hdigit | hup | hlow := alphanum_range h
  · omega
  · omega
  · omega

theorem isUnreserved_ascii {c : Char} (h : isUnreserved c = true) : c.toNat < 128 ∧ c ≠ '%' := by
  have hne : c ≠ '%' := by
    intro heq
    rw [heq] at h
    exact absurd h (by decide)
  refine ⟨?_, hne⟩
  simp only [isUnreserved, Bool.or_eq_true, beq_iff_eq] at h
  obtain (((h | rfl) | rfl) | rfl) | rfl := h
  · exact alphanum_ascii h
  all_goals decide

theorem isPathChar_ascii {c : Char} (h : isPathChar c = true) : c.toNat < 128 ∧ c ≠ '%' := by
  have hlist : ("!$&'()*+,;=:@/".toList.all fun x => x.toNat < 128 && x != '%') = true := by
    decide
  simp only [isPathChar, Bool.or_eq_true, List.contains_iff_mem] at h
  cases h with
  | inl h => exact isUnreserved_ascii h
  | inr h => simpa using List.all_eq_true.mp hlist c h

/-- A character that is no percent sign has no byte of one. -/
theorem byte_ne_percent {c : Char} (hc : c.toNat < 128) (hne : c ≠ '%') :
    UInt8.ofNat c.toNat ≠ 0x25 := by
  intro h
  have hn : (UInt8.ofNat c.toNat).toNat = 0x25 := by rw [h]; rfl
  rw [UInt8.toNat_ofNat', Nat.mod_eq_of_lt (by omega)] at hn
  exact hne (Char.toNat_inj.mp hn)

/-- **A token that was spelled is read as its bytes.** -/
theorem decodeEscapes_spell {t : Token} (ht : t.isSep = false) (rest : Bytes) :
    decodeEscapes (asBytes (t.spell isPathChar true) ++ rest) = t.bytes ++ decodeEscapes rest := by
  cases t with
  | escape b =>
      by_cases h : b < 128 ∧ isUnreserved (Char.ofNat b.toNat) = true
      · rw [Token.spell, if_pos h]
        obtain ⟨hlt, hne⟩ := isUnreserved_ascii h.2
        have hb : b.toNat < 128 := h.1
        have hnat : (Char.ofNat b.toNat).toNat = b.toNat := toNat_ofNat_ascii hb
        have hbytes : asBytes [Char.ofNat b.toNat] = [b] := by
          simp [asBytes, utf8_ascii hlt, hnat]
        have hpercent := byte_ne_percent hlt hne
        rw [hnat, UInt8.ofNat_toNat] at hpercent
        rw [hbytes, List.singleton_append, decodeEscapes_other hpercent, Token.bytes]
        rfl
      · rw [Token.spell, if_neg h]
        exact decodeEscapes_escape b rest
  | plain c =>
      by_cases hkeep : isPathChar c = true
      · rw [Token.spell, if_pos hkeep]
        obtain ⟨hlt, hne⟩ := isPathChar_ascii hkeep
        have hbytes : asBytes [c] = [UInt8.ofNat c.toNat] := by simp [asBytes, utf8_ascii hlt]
        rw [hbytes, List.singleton_append, decodeEscapes_other (byte_ne_percent hlt hne),
          Token.bytes, utf8_ascii hlt]
        rfl
      · have hslash : ¬(c = '\\' ∧ true = true) := by
          intro h
          rw [h.1] at ht
          cases ht
        rw [Token.spell, if_neg hkeep, if_neg hslash]
        exact decodeEscapes_escapes _ rest

theorem decodeEscapes_spells {ts : List Token} (hts : ∀ t ∈ ts, t.isSep = false) :
    decodeEscapes (asBytes (ts.flatMap (Token.spell isPathChar true))) =
      ts.flatMap Token.bytes := by
  induction ts with
  | nil => rfl
  | cons t ts ih =>
      rw [List.flatMap_cons, asBytes_append, decodeEscapes_spell (hts t List.mem_cons_self),
        ih fun u hu => hts u (List.mem_cons_of_mem _ hu), List.flatMap_cons]

/-! ## Segments of a normalized path -/

theorem spell_sep (t : Token) (ht : t.isSep = true) :
    ∃ y, t.spell isPathChar true = [y] ∧ isSlash y = true := by
  cases t with
  | escape b => cases ht
  | plain c =>
      have hsep : isSep c = true := ht
      simp only [isSep, Bool.or_eq_true, beq_iff_eq] at hsep
      obtain rfl | rfl := hsep
      · exact ⟨'/', by decide, by decide⟩
      · exact ⟨'/', by decide, by decide⟩

theorem hexDigit_ne {n : Nat} (h : n < 16) : hexDigit n ≠ '/' ∧ hexDigit n ≠ '?' := by
  have hall : ∀ n < 16, hexDigit n ≠ '/' ∧ hexDigit n ≠ '?' := by decide
  exact hall n h

theorem notMem_escapeByte (b : UInt8) : '/' ∉ escapeByte b ∧ '?' ∉ escapeByte b := by
  have hhi : b.toNat / 16 < 16 := by have := b.toNat_lt; omega
  have hlo : b.toNat % 16 < 16 := Nat.mod_lt _ (by decide)
  simp only [escapeByte, List.mem_cons, List.not_mem_nil, or_false, not_or]
  exact ⟨⟨by decide, (hexDigit_ne hhi).1.symm, (hexDigit_ne hlo).1.symm⟩,
    by decide, (hexDigit_ne hhi).2.symm, (hexDigit_ne hlo).2.symm⟩

theorem spell_other (t : Token) (ht : t.isSep = false) :
    ∀ y ∈ t.spell isPathChar true, isSlash y = false := by
  have hslash : isUnreserved '/' = false := by decide
  intro y hy
  rw [isSlash, beq_eq_false_iff_ne]
  rintro rfl
  cases t with
  | escape b =>
      rw [Token.spell] at hy
      split at hy
      · rename_i h
        rw [List.mem_singleton] at hy
        rw [← hy, hslash] at h
        cases h.2
      · exact (notMem_escapeByte b).1 hy
  | plain c =>
      have hsep : isSep c = false := ht
      have hc : c ≠ '\\' ∧ c ≠ '/' := by
        simp only [isSep, Bool.or_eq_false_iff, beq_eq_false_iff_ne] at hsep
        exact ⟨hsep.2, hsep.1⟩
      rw [Token.spell] at hy
      split at hy
      · rw [List.mem_singleton] at hy
        exact hc.2 hy.symm
      · rw [if_neg fun h => hc.1 h.1] at hy
        obtain ⟨b, -, hb⟩ := List.mem_flatMap.mp hy
        exact (notMem_escapeByte b).1 hb

/-- The segments of a normalized path are the normalized segments of the text. -/
theorem segments_normalize (text : List Char) :
    segments isSlash (normalize isPathChar true text) =
      (segments isSep text).map (normalize isPathChar true) := by
  have hcut := segments_flatMap (f := Token.spell isPathChar true) spell_sep spell_other (scan text)
  rw [segments_scan, List.map_map] at hcut
  exact hcut

theorem query_notMem_spell (t : Token) : '?' ∉ t.spell isPathChar true := by
  have hunreserved : isUnreserved '?' = false := by decide
  have hkept : isPathChar '?' = false := by decide
  intro hmem
  cases t with
  | escape b =>
      rw [Token.spell] at hmem
      split at hmem
      · rename_i h
        rw [List.mem_singleton] at hmem
        rw [← hmem, hunreserved] at h
        cases h.2
      · exact (notMem_escapeByte b).2 hmem
  | plain c =>
      rw [Token.spell] at hmem
      split at hmem
      · rename_i h
        rw [List.mem_singleton] at hmem
        rw [← hmem, hkept] at h
        cases h
      · split at hmem
        · cases hmem with
          | tail _ h => cases h
        · obtain ⟨b, -, hb⟩ := List.mem_flatMap.mp hmem
          exact (notMem_escapeByte b).2 hb

theorem query_notMem_normalize (text : List Char) : '?' ∉ normalize isPathChar true text := by
  intro hmem
  obtain ⟨t, -, ht⟩ := List.mem_flatMap.mp hmem
  exact query_notMem_spell t ht

/-! ## Dot segments -/

/-- A segment that `Uri.parse` removes. -/
def isDots (s : List Char) : Bool := s == ['.'] || s == ['.', '.']

/-- The segments with something in them. -/
def filled (ss : List (List Char)) : List (List Char) := ss.filter fun s => !s.isEmpty

theorem filled_append (ss ts : List (List Char)) :
    filled (ss ++ ts) = filled ss ++ filled ts := List.filter_append ..

/-- What is put out is empty or one of the segments. -/
theorem mem_dots {ss : List (List Char)} {acc : List (List Char) × Bool} {s : List Char}
    (hs : s ∈ (ss.foldl dotSegment acc).1) : s ∈ acc.1 ∨ s = [] ∨ s ∈ ss := by
  induction ss generalizing acc with
  | nil => exact .inl hs
  | cons t ss ih =>
      rw [List.foldl_cons] at hs
      have hstep : ∀ u ∈ (dotSegment acc t).1, u ∈ acc.1 ∨ u = [] ∨ u = t := by
        intro u hu
        unfold dotSegment at hu
        split at hu
        · split at hu
          · cases hu
          · split at hu
            · exact .inr (.inl (List.mem_singleton.mp hu))
            · exact .inl ((List.dropLast_sublist _).subset hu)
        · split at hu
          · exact .inl hu
          · rw [List.mem_append, List.mem_singleton] at hu
            exact hu.imp_right .inr
      obtain h | h | h := ih hs
      · obtain h' | h' | h' := hstep s h
        · exact .inl h'
        · exact .inr (.inl h')
        · exact .inr (.inr (h' ▸ List.mem_cons_self))
      · exact .inr (.inl h)
      · exact .inr (.inr (List.mem_cons_of_mem _ h))

theorem dotSegment_sublist (acc : List (List Char) × Bool) (t : List Char) :
    (filled (dotSegment acc t).1).Sublist
      (filled (acc.1 ++ [t].filter fun s => !isDots s)) := by
  unfold dotSegment
  by_cases hdots : isDots t = true
  · have hnone : ([t].filter fun s => !isDots s) = [] := by simp [hdots]
    rw [hnone, List.append_nil]
    simp only [isDots, Bool.or_eq_true, beq_iff_eq] at hdots
    split
    · split
      · exact List.nil_sublist _
      · split
        · exact List.nil_sublist _
        · exact (List.dropLast_sublist _).filter _
    · rename_i htwo
      rw [if_pos (hdots.resolve_right htwo)]
  · have hsome : ([t].filter fun s => !isDots s) = [t] := by simp [hdots]
    simp only [isDots, Bool.or_eq_true, beq_iff_eq, not_or] at hdots
    rw [hsome, if_neg hdots.2, if_neg hdots.1]

/-- Nothing is put out that was not put in, in the order in which it was put in. -/
theorem dots_sublist (ss : List (List Char)) (acc : List (List Char) × Bool) :
    (filled (ss.foldl dotSegment acc).1).Sublist
      (filled (acc.1 ++ ss.filter fun s => !isDots s)) := by
  induction ss generalizing acc with
  | nil => simp
  | cons t ss ih =>
      have hstep : (filled (dotSegment acc t).1).Sublist
          (filled (acc.1 ++ [t].filter fun s => !isDots s)) := dotSegment_sublist acc t
      have hrest := ih (dotSegment acc t)
      rw [filled_append] at hrest
      have hall := hrest.trans (hstep.append (List.Sublist.refl _))
      rw [← filled_append, List.append_assoc, ← List.filter_append] at hall
      exact hall

/-- Without dots everything is put out. -/
theorem dots_none {ss : List (List Char)} (hss : ∀ s ∈ ss, isDots s = false)
    (acc : List (List Char) × Bool) : (ss.foldl dotSegment acc).1 = acc.1 ++ ss := by
  induction ss generalizing acc with
  | nil => simp
  | cons t ss ih =>
      have ht := hss t List.mem_cons_self
      simp only [isDots, Bool.or_eq_false_iff, beq_eq_false_iff_ne] at ht
      rw [List.foldl_cons, ih fun s hs => hss s (List.mem_cons_of_mem _ hs), dotSegment,
        if_neg ht.2, if_neg ht.1]
      simp

/-- What is cut again after the dots were removed. -/
theorem filled_removeDots (path : List Char) :
    filled (segments isSlash (removeDotSegments path)) =
      filled ((segments isSlash path).foldl dotSegment ([], false)).1 := by
  let acc := (segments isSlash path).foldl dotSegment ([], false)
  let tail : List (List Char) := if acc.2 = true then [[]] else []
  have htail : filled tail = [] := by
    show filled (if acc.2 = true then [[]] else []) = []
    split <;> rfl
  have hplain : ∀ s ∈ acc.1 ++ tail, ∀ c ∈ s, isSlash c = false := by
    intro s hs c hc
    have hcases : s = [] ∨ s ∈ segments isSlash path := by
      rw [List.mem_append] at hs
      cases hs with
      | inl h => exact (mem_dots h).resolve_left List.not_mem_nil
      | inr h =>
          left
          have h' : s ∈ (if acc.2 = true then [[]] else [] : List (List Char)) := h
          split at h'
          · exact List.mem_singleton.mp h'
          · cases h'
    cases hcases with
    | inl h => rw [h] at hc; cases hc
    | inr h => exact mem_segments h c hc
  have hjoin : filled (segments isSlash (['/'].intercalate (acc.1 ++ tail))) =
      filled (acc.1 ++ tail) := by
    by_cases hempty : acc.1 ++ tail = []
    · rw [hempty]
      rfl
    · rw [segments_join (by decide) hempty hplain]
  rw [filled_append, htail, List.append_nil] at hjoin
  exact hjoin

theorem mem_removeDots {path : List Char} {c : Char} (hc : c ∈ removeDotSegments path)
    (hslash : isSlash c = false) : c ∈ path := by
  have hkept : c ∈ (segments isSlash (removeDotSegments path)).flatten := by
    rw [flatten_segments, List.mem_filter]
    exact ⟨hc, by rw [hslash]; rfl⟩
  obtain ⟨s, hs, hcs⟩ := List.mem_flatten.mp hkept
  have hfilled : s ∈ filled (segments isSlash (removeDotSegments path)) := by
    refine List.mem_filter.mpr ⟨hs, ?_⟩
    cases s with
    | nil => cases hcs
    | cons x s => rfl
  rw [filled_removeDots] at hfilled
  have hout := mem_dots (List.mem_filter.mp hfilled).1
  have hmem : c ∈ (segments isSlash path).flatten := by
    obtain h | h | h := hout
    · cases h
    · rw [h] at hcs
      cases hcs
    · exact List.mem_flatten.mpr ⟨s, h, hcs⟩
  rw [flatten_segments] at hmem
  exact (List.mem_filter.mp hmem).1

theorem query_notMem_path (text : List Char) : '?' ∉ Uri.path text := fun h =>
  query_notMem_normalize _ (mem_removeDots h (by decide))

/-- What `Uri.parse` makes of a path, or a slash. -/
def pathOrSlash (text : List Char) : List Char := if path text = [] then ['/'] else path text

theorem splitPath_target (text : List Char) :
    (splitPath (target (String.ofList text))).1.toList = pathOrSlash text := by
  have hpath : ∀ c ∈ pathOrSlash text, c ≠ '?' := by
    intro c hc
    unfold pathOrSlash at hc
    split at hc
    · rw [List.mem_singleton] at hc
      rw [hc]
      decide
    · rintro rfl
      exact query_notMem_path text hc
  have htarget : (target (String.ofList text)).toList = pathOrSlash text ++ query text := by
    unfold target pathOrSlash
    rw [String.toList_ofList, String.toList_ofList]
    cases path text with
    | nil => rfl
    | cons c cs => rfl
  have hquery : (query text).takeWhile (· ≠ '?') = [] := by
    unfold query
    split
    · rfl
    · rfl
  have hall : (pathOrSlash text).takeWhile (· ≠ '?') = pathOrSlash text := by
    rw [List.takeWhile_eq_self_iff]
    simpa using hpath
  rw [splitPath, String.toList_ofList, htarget, List.takeWhile_append, hall, if_pos rfl, hquery,
    List.append_nil]

/-- **The segments that reach the agent.** -/
theorem pathSegments_target (text : List Char) :
    pathSegments (splitPath (target (String.ofList text))).1 =
      (filled (((segments isSep (text.takeWhile fun c => c ≠ '?' ∧ c ≠ '#')).map
        (normalize isPathChar true)).foldl dotSegment ([], false)).1).map
        fun s => percentDecode (String.ofList s) := by
  have hslash : filled (segments isSlash (pathOrSlash text)) =
      filled (segments isSlash (path text)) := by
    unfold pathOrSlash
    split
    · rename_i h
      rw [h]
      rfl
    · rfl
  have hfilled : filled (segments isSlash (path text)) = _ := filled_removeDots _
  rw [segments_normalize] at hfilled
  have hunfold : pathSegments (splitPath (target (String.ofList text))).1 =
      (filled (segments isSlash (splitPath (target (String.ofList text))).1.toList)).map
        fun s => percentDecode (String.ofList s) := rfl
  rw [hunfold, splitPath_target, hslash, hfilled]

/-! ## What a segment is decoded to -/

/-- The bytes that a text without slashes stands for. -/
def unescape (s : List Char) : Bytes := (scan s).flatMap Token.bytes

theorem scan_notSep {s : List Char} (hs : ∀ c ∈ s, isSep c = false) :
    ∀ t ∈ scan s, t.isSep = false := by
  have hcut := segments_scan s
  rw [segments_plain hs] at hcut
  have hmem : scan s ∈ segments Token.isSep (scan s) := by simp [hcut]
  exact mem_segments hmem

theorem percentDecode_normalize {s : List Char} (hs : ∀ c ∈ s, isSep c = false) :
    percentDecode (String.ofList (normalize isPathChar true s)) =
      String.ofList (lossyText (unescape s)) := by
  rw [percentDecode, Trust.utf8_ofList, normalize, decodeEscapes_spells (scan_notSep hs)]
  rfl

def Token.isEscape : Token → Bool
  | .escape _ => true
  | .plain _ => false

/-- The escapes of a text. -/
def escapes (s : List Char) : Nat := (scan s).countP Token.isEscape

theorem lowCount_encode (c : Char) : lowCount (String.utf8EncodeChar c) = asciiCount [c] := by
  have hback := lossyText_encode c []
  rw [List.append_nil] at hback
  rw [← asciiCount_lossyText _ _ (Nat.le_refl _), hback]
  rfl

theorem lowCount_append (a b : Bytes) : lowCount (a ++ b) = lowCount a + lowCount b :=
  List.countP_append

theorem asciiCount_append (a b : List Char) : asciiCount (a ++ b) = asciiCount a + asciiCount b :=
  List.countP_append

theorem asciiCount_cons (c : Char) (s : List Char) :
    asciiCount (c :: s) = asciiCount [c] + asciiCount s :=
  asciiCount_append [c] s

theorem hexValue_ascii {c : Char} {n : Nat} (h : hexValue c = some n) : asciiCount [c] = 1 := by
  have hlt : c.toNat < 128 := by
    have hval : c.toNat = c.val.toNat := rfl
    unfold hexValue at h
    split at h
    · rename_i hc
      exact Nat.lt_of_le_of_lt hc.2 (by decide)
    · split at h
      · rename_i hc
        exact Nat.lt_of_le_of_lt hc.2 (by decide)
      · split at h
        · rename_i hc
          exact Nat.lt_of_le_of_lt hc.2 (by decide)
        · cases h
  simp [asciiCount, hlt]

/-- **Every escape takes three characters and gives a byte.** -/
theorem lowCount_unescape (s : List Char) :
    lowCount (unescape s) + 2 * escapes s ≤ asciiCount s := by
  unfold unescape escapes
  fun_induction scan s with
  | case1 => exact Nat.le_refl _
  | case2 hi lo rest h l hh hl ih =>
      rw [asciiCount_cons '%', asciiCount_cons hi, asciiCount_cons lo, hexValue_ascii hh,
        hexValue_ascii hl, List.flatMap_cons, lowCount_append, List.countP_cons_of_pos rfl]
      have hone : lowCount (Token.escape (UInt8.ofNat (16 * h + l))).bytes ≤ 1 :=
        List.countP_le_length
      have hpercent : asciiCount ['%'] = 1 := by decide
      omega
  | case3 hi lo rest hnone ih =>
      rw [asciiCount_cons, List.flatMap_cons, lowCount_append, Token.bytes, lowCount_encode,
        List.countP_cons_of_neg (by decide)]
      omega
  | case4 c rest hc ih =>
      rw [asciiCount_cons, List.flatMap_cons, lowCount_append, Token.bytes, lowCount_encode,
        List.countP_cons_of_neg (by simp [Token.isEscape])]
      omega

theorem unescape_plain {s : List Char} (h : escapes s = 0) : unescape s = asBytes s := by
  unfold escapes at h
  unfold unescape asBytes
  fun_induction scan s with
  | case1 => rfl
  | case2 hi lo rest a b ha hb ih =>
      rw [List.countP_cons_of_pos rfl] at h
      cases h
  | case3 hi lo rest hnone ih =>
      rw [List.countP_cons_of_neg (by decide)] at h
      rw [List.flatMap_cons, ih h]
      rfl
  | case4 c rest hc ih =>
      rw [List.countP_cons_of_neg (by simp [Token.isEscape])] at h
      rw [List.flatMap_cons, ih h]
      rfl

/-- A text without slashes and escapes is read as it was written. -/
theorem percentDecode_plain {s : List Char} (hs : ∀ c ∈ s, isSep c = false)
    (h : escapes s = 0) :
    percentDecode (String.ofList (normalize isPathChar true s)) = String.ofList s := by
  rw [percentDecode_normalize hs, unescape_plain h]
  exact congrArg String.ofList (lossyText_encoded s)

/-! ## What is lost on the way -/

section Loss

variable {α β : Type}

/-- The sum over a list. -/
def total (f : α → Nat) : List α → Nat
  | [] => 0
  | x :: xs => f x + total f xs

theorem total_map (f : β → Nat) (g : α → β) (xs : List α) :
    total f (xs.map g) = total (fun x => f (g x)) xs := by
  induction xs with
  | nil => rfl
  | cons x xs ih => rw [List.map_cons, total, total, ih]

theorem total_sublist {f : α → Nat} {xs ys : List α} (h : xs.Sublist ys) :
    total f xs ≤ total f ys := by
  induction h with
  | slnil => exact Nat.le_refl _
  | cons y _ ih =>
      rw [total]
      omega
  | cons_cons y _ ih =>
      rw [total, total]
      omega

/-- What is left out weighs at least one each. -/
theorem total_filter {f : α → Nat} {p : α → Bool} {xs : List α}
    (h : ∀ x ∈ xs, p x = false → 1 ≤ f x) :
    total f (xs.filter p) + xs.countP (fun x => !p x) ≤ total f xs := by
  induction xs with
  | nil => exact Nat.le_refl _
  | cons x xs ih =>
      have hrest := ih fun y hy => h y (List.mem_cons_of_mem _ hy)
      by_cases hx : p x = true
      · rw [List.filter_cons_of_pos hx, List.countP_cons_of_neg (by simp [hx]), total, total]
        omega
      · have hone := h x List.mem_cons_self (by simpa using hx)
        rw [List.filter_cons_of_neg hx, List.countP_cons_of_pos (by simp [hx]), total]
        omega

theorem total_le {f g : α → Nat} {xs : List α} (h : ∀ x ∈ xs, f x ≤ g x) :
    total f xs ≤ total g xs := by
  induction xs with
  | nil => exact Nat.le_refl _
  | cons x xs ih =>
      have hx := h x List.mem_cons_self
      have hrest := ih fun y hy => h y (List.mem_cons_of_mem _ hy)
      rw [total, total]
      omega

theorem total_add (f g : α → Nat) (xs : List α) :
    total (fun x => f x + g x) xs = total f xs + total g xs := by
  induction xs with
  | nil => rfl
  | cons x xs ih =>
      rw [total, total, total, ih]
      omega

theorem total_zero {f : α → Nat} {xs : List α} (h : total f xs = 0) : ∀ x ∈ xs, f x = 0 := by
  induction xs with
  | nil => exact fun _ hx => by cases hx
  | cons x xs ih =>
      rw [total] at h
      intro y hy
      cases hy with
      | head => omega
      | tail _ hy => exact ih (by omega) y hy

theorem total_asciiCount (ss : List (List Char)) : total asciiCount ss = asciiCount ss.flatten := by
  induction ss with
  | nil => rfl
  | cons s ss ih => rw [total, List.flatten_cons, asciiCount_append, ih]

end Loss

/-- The weight of a segment that reaches the agent. -/
def weight (s : List Char) : Nat := asciiCount (percentDecode (String.ofList s)).toList

theorem weight_normalize {s : List Char} (hs : ∀ c ∈ s, isSep c = false) :
    weight (normalize isPathChar true s) = lowCount (unescape s) := by
  unfold weight
  rw [percentDecode_normalize hs, String.toList_ofList,
    asciiCount_lossyText _ _ (Nat.le_refl _)]

/-- The separators of a text are ASCII characters. -/
theorem asciiCount_filter (s : List Char) :
    asciiCount (s.filter fun c => !isSep c) + s.countP isSep = asciiCount s := by
  induction s with
  | nil => rfl
  | cons c s ih =>
      by_cases hc : isSep c = true
      · have hone : asciiCount [c] = 1 := by
          simp only [isSep, Bool.or_eq_true, beq_iff_eq] at hc
          obtain rfl | rfl := hc
          · decide
          · decide
        rw [List.filter_cons_of_neg (by simp [hc]), List.countP_cons_of_pos hc, asciiCount_cons]
        omega
      · rw [List.filter_cons_of_pos (by simp [hc]), List.countP_cons_of_neg hc, asciiCount_cons,
          asciiCount_cons c s]
        omega

/-- The part of a text that `Uri.parse` takes for the path, and what is behind it. -/
def pathPart (text : List Char) : List Char := text.takeWhile fun c => c ≠ '?' ∧ c ≠ '#'
def behindPath (text : List Char) : List Char := text.dropWhile fun c => c ≠ '?' ∧ c ≠ '#'

/-- The segments of the normalized path. -/
def written (text : List Char) : List (List Char) :=
  (segments isSep (pathPart text)).map (normalize isPathChar true)

/-- The segments that are sent. -/
def sent (text : List Char) : List (List Char) :=
  filled ((written text).foldl dotSegment ([], false)).1

theorem weight_dots {s : List Char} (h : isDots s = true) : 1 ≤ weight s := by
  simp only [isDots, Bool.or_eq_true, beq_iff_eq] at h
  obtain rfl | rfl := h
  · decide
  · decide

/-- **What is lost**: removed segments, escapes, slashes, and all behind the path. -/
theorem sent_weight (text : List Char) :
    total weight (sent text) + (written text).countP isDots +
        total escapes (segments isSep (pathPart text)) + (pathPart text).countP isSep +
        asciiCount (behindPath text) ≤ asciiCount text := by
  have hsent : total weight (sent text) ≤
      total weight ((written text).filter fun s => !isDots s) :=
    total_sublist ((dots_sublist (written text) ([], false)).trans List.filter_sublist)
  have hdots : total weight ((written text).filter fun s => !isDots s) +
      (written text).countP isDots ≤ total weight (written text) := by
    have h : total weight ((written text).filter fun s => !isDots s) +
        (written text).countP (fun s => !!isDots s) ≤ total weight (written text) :=
      total_filter fun s _ hs => weight_dots (by simpa using hs)
    simpa using h
  have hescapes : total weight (written text) +
      total escapes (segments isSep (pathPart text)) ≤
      total asciiCount (segments isSep (pathPart text)) := by
    rw [written, total_map, ← total_add]
    refine total_le fun s hs => ?_
    have hone := lowCount_unescape s
    rw [weight_normalize (mem_segments hs)]
    omega
  have hslashes : total asciiCount (segments isSep (pathPart text)) +
      (pathPart text).countP isSep = asciiCount (pathPart text) := by
    rw [total_asciiCount, flatten_segments, asciiCount_filter]
  have hcut : asciiCount (pathPart text) + asciiCount (behindPath text) = asciiCount text := by
    rw [← asciiCount_append, pathPart, behindPath, List.takeWhile_append_dropWhile]
  omega

/-! ## Addresses -/

/-- The text of a path: every part behind a slash. -/
def address (ps : List (List Char)) : List Char := ps.flatMap fun p => '/' :: p

theorem asciiCount_address (ps : List (List Char)) :
    asciiCount (address ps) = ps.length + total asciiCount ps := by
  have hslash : asciiCount ['/'] = 1 := by decide
  induction ps with
  | nil => rfl
  | cons p ps ih =>
      rw [address] at ih
      rw [address, List.flatMap_cons, List.cons_append, asciiCount_cons, asciiCount_append, ih,
        List.length_cons, total, hslash]
      omega

theorem countP_address (ps : List (List Char)) :
    (address ps).countP isSep = ps.length + total (List.countP isSep) ps := by
  induction ps with
  | nil => rfl
  | cons p ps ih =>
      rw [address] at ih
      rw [address, List.flatMap_cons, List.cons_append, List.countP_cons_of_pos (by decide),
        List.countP_append, ih, List.length_cons, total]
      omega

/-- What is behind the path begins with a mark that is no slash. -/
theorem behindPath_weight (text : List Char) :
    (behindPath text).countP isSep ≤ asciiCount (behindPath text) ∧
      (behindPath text ≠ [] → (behindPath text).countP isSep < asciiCount (behindPath text)) := by
  have hall := asciiCount_filter (behindPath text)
  refine ⟨by omega, fun hne => ?_⟩
  have hhead : ∃ c rest, behindPath text = c :: rest ∧ (c = '?' ∨ c = '#') := by
    cases h : behindPath text with
    | nil => exact absurd h hne
    | cons c rest =>
        refine ⟨c, rest, rfl, ?_⟩
        have hc := List.head?_dropWhile_not (fun c => decide (c ≠ '?' ∧ c ≠ '#')) text
        have hhead : (text.dropWhile fun c => decide (c ≠ '?' ∧ c ≠ '#')).head? = some c := by
          show (behindPath text).head? = some c
          rw [h]
          rfl
        rw [hhead] at hc
        simp only [decide_eq_false_iff_not] at hc
        by_cases hq : c = '?'
        · exact .inl hq
        · exact .inr (Decidable.byContradiction fun hh => hc ⟨hq, hh⟩)
  obtain ⟨c, rest, heq, hc⟩ := hhead
  have hkept : 1 ≤ asciiCount ((behindPath text).filter fun c => !isSep c) := by
    rw [heq, List.filter_cons_of_pos, asciiCount_cons]
    · obtain rfl | rfl := hc
      · have hone : asciiCount ['?'] = 1 := by decide
        omega
      · have hone : asciiCount ['#'] = 1 := by decide
        omega
    · obtain rfl | rfl := hc
      · decide
      · decide
  omega

/-- A part of a path that is read as it was written. -/
structure Sound (p : List Char) : Prop where
  chars : ∀ c ∈ p, c ≠ '/' ∧ c ≠ '\\' ∧ c ≠ '?' ∧ c ≠ '#'
  dots : isDots p = false
  escapes : escapes p = 0

theorem written_address {ps : List (List Char)} (hps : ∀ p ∈ ps, ∀ c ∈ p, isSep c = false) :
    segments isSep (address ps) = [] :: ps := segments_parts (by decide) hps

theorem pathPart_self {text : List Char} (h : ∀ c ∈ text, c ≠ '?' ∧ c ≠ '#') :
    pathPart text = text := by
  unfold pathPart
  rw [List.takeWhile_eq_self_iff]
  intro c hc
  simpa using h c hc

theorem mem_address {ps : List (List Char)} {c : Char} (h : c ∈ address ps) :
    c = '/' ∨ ∃ p ∈ ps, c ∈ p := by
  obtain ⟨p, hp, hc⟩ := List.mem_flatMap.mp h
  cases hc with
  | head => exact .inl rfl
  | tail _ hc => exact .inr ⟨p, hp, hc⟩

theorem Sound.notSep {p : List Char} (h : Sound p) : ∀ c ∈ p, isSep c = false := by
  intro c hc
  obtain ⟨h₁, h₂, -, -⟩ := h.chars c hc
  simp [isSep, h₁, h₂]

theorem Sound.decoded {p : List Char} (h : Sound p) :
    percentDecode (String.ofList (normalize isPathChar true p)) = String.ofList p :=
  percentDecode_plain h.notSep h.escapes

theorem Sound.written_dots {p : List Char} (h : Sound p) :
    isDots (normalize isPathChar true p) = false := by
  have hdecoded := h.decoded
  have hdots := h.dots
  by_contra hcontra
  simp only [isDots, Bool.or_eq_true, beq_iff_eq, Bool.not_eq_false] at hcontra
  have hone : percentDecode (String.ofList ['.']) = String.ofList ['.'] := by decide
  have htwo : percentDecode (String.ofList ['.', '.']) = String.ofList ['.', '.'] := by
    decide
  obtain heq | heq := hcontra
  · rw [heq, hone, String.ofList_inj] at hdecoded
    rw [← hdecoded] at hdots
    cases hdots
  · rw [heq, htwo, String.ofList_inj] at hdecoded
    rw [← hdecoded] at hdots
    cases hdots

theorem Sound.written_ne_nil {p : List Char} (h : Sound p) (hne : p ≠ []) :
    normalize isPathChar true p ≠ [] := by
  intro heq
  have hdecoded := h.decoded
  have hempty : percentDecode (String.ofList []) = String.ofList [] := by decide
  rw [heq, hempty, String.ofList_inj] at hdecoded
  exact hne hdecoded.symm

/-- Parts that are sound arrive. -/
theorem sent_sound {ps : List (List Char)} (hne : ∀ p ∈ ps, p ≠ []) (hps : ∀ p ∈ ps, Sound p) :
    sent (address ps) = ps.map (normalize isPathChar true) := by
  have hpath : pathPart (address ps) = address ps := by
    refine pathPart_self fun c hc => ?_
    obtain rfl | ⟨p, hp, hcp⟩ := mem_address hc
    · decide
    · exact ⟨((hps p hp).chars c hcp).2.2.1, ((hps p hp).chars c hcp).2.2.2⟩
  have hwritten : written (address ps) = [] :: ps.map (normalize isPathChar true) := by
    rw [written, hpath, written_address fun p hp => (hps p hp).notSep]
    rfl
  have hdots : ∀ s ∈ written (address ps), isDots s = false := by
    rw [hwritten]
    intro s hs
    cases hs with
    | head => rfl
    | tail _ hs =>
        obtain ⟨p, hp, rfl⟩ := List.mem_map.mp hs
        exact (hps p hp).written_dots
  have hfilled : filled (ps.map (normalize isPathChar true)) =
      ps.map (normalize isPathChar true) := by
    refine List.filter_eq_self.mpr fun s hs => ?_
    obtain ⟨p, hp, rfl⟩ := List.mem_map.mp hs
    simpa using (hps p hp).written_ne_nil (hne p hp)
  rw [sent, dots_none hdots, hwritten, List.nil_append]
  exact hfilled

/-- **Parts that arrive are sound**: nothing was lost. -/
theorem sound_of_weight {ps : List (List Char)}
    (h : total asciiCount ps ≤ total weight (sent (address ps))) : ∀ p ∈ ps, Sound p := by
  have hlost := sent_weight (address ps)
  have hascii := asciiCount_address ps
  have hseps := countP_address ps
  have hparts : (pathPart (address ps)).countP isSep + (behindPath (address ps)).countP isSep =
      (address ps).countP isSep := by
    rw [← List.countP_append, pathPart, behindPath, List.takeWhile_append_dropWhile]
  obtain ⟨hbehind, hstrict⟩ := behindPath_weight (address ps)
  have hnil : behindPath (address ps) = [] := by
    by_contra hne
    have hlt := hstrict hne
    omega
  have hnosep : ∀ p ∈ ps, p.countP isSep = 0 := total_zero (by omega)
  have hnodots : (written (address ps)).countP isDots = 0 := by omega
  have hchars : ∀ c ∈ address ps, c ≠ '?' ∧ c ≠ '#' := by
    unfold behindPath at hnil
    rw [List.dropWhile_eq_nil_iff] at hnil
    intro c hc
    simpa using hnil c hc
  have hplain : ∀ p ∈ ps, ∀ c ∈ p, isSep c = false := by
    intro p hp c hc
    simpa using List.countP_eq_zero.mp (hnosep p hp) c hc
  have hwritten : written (address ps) = ([] :: ps).map (normalize isPathChar true) := by
    rw [written, pathPart_self hchars, written_address hplain]
  have hescapes : total escapes ([] :: ps) = 0 := by
    rw [← written_address hplain, ← pathPart_self hchars]
    omega
  intro p hp
  refine ⟨fun c hc => ?_, ?_, total_zero hescapes p (List.mem_cons_of_mem _ hp)⟩
  · have hmark : c ≠ '?' ∧ c ≠ '#' :=
      hchars c (List.mem_flatMap.mpr ⟨p, hp, List.mem_cons_of_mem _ hc⟩)
    have hsep := hplain p hp c hc
    simp only [isSep, Bool.or_eq_false_iff, beq_eq_false_iff_ne] at hsep
    exact ⟨hsep.1, hsep.2, hmark.1, hmark.2⟩
  · have hone : normalize isPathChar true ['.'] = ['.'] := by decide
    have htwo : normalize isPathChar true ['.', '.'] = ['.', '.'] := by decide
    have hmem : normalize isPathChar true p ∈ written (address ps) := by
      rw [hwritten]
      exact List.mem_map_of_mem (List.mem_cons_of_mem _ hp)
    have hdots := List.countP_eq_zero.mp hnodots _ hmem
    by_contra hcontra
    simp only [isDots, Bool.or_eq_true, beq_iff_eq, Bool.not_eq_false] at hcontra
    obtain rfl | rfl := hcontra
    · rw [hone] at hdots
      exact hdots rfl
    · rw [htwo] at hdots
      exact hdots rfl

/-- **Which parts of a path reach the agent as they are.** -/
theorem pathSegments_address {ps : List (List Char)} (hne : ∀ p ∈ ps, p ≠ []) :
    pathSegments (splitPath (target (String.ofList (address ps)))).1 = ps.map String.ofList ↔
      ∀ p ∈ ps, Sound p := by
  have hunfold : pathSegments (splitPath (target (String.ofList (address ps)))).1 =
      (sent (address ps)).map fun s => percentDecode (String.ofList s) := pathSegments_target _
  rw [hunfold]
  constructor
  · intro heq
    refine sound_of_weight (Nat.le_of_eq ?_)
    have hcount := congrArg (total fun t : String => asciiCount t.toList) heq
    rw [total_map, total_map] at hcount
    simp only [String.toList_ofList] at hcount
    exact hcount.symm
  · intro hps
    rw [sent_sound hne hps, List.map_map]
    exact List.map_congr_left fun p hp => (hps p hp).decoded

/-! ## Escapes in an id -/

/-- A percent sign with two hexadecimal digits behind it. -/
def HasEscape (s : List Char) : Prop :=
  ∃ before hi lo rest, s = before ++ '%' :: hi :: lo :: rest ∧
    (hexValue hi).isSome = true ∧ (hexValue lo).isSome = true

theorem HasEscape.cons {s : List Char} (h : HasEscape s) (c : Char) : HasEscape (c :: s) := by
  obtain ⟨before, hi, lo, rest, heq, hhi, hlo⟩ := h
  exact ⟨c :: before, hi, lo, rest, by rw [heq, List.cons_append], hhi, hlo⟩

/-- Where a text begins with no escape, it has one further on or none. -/
theorem HasEscape.tail {c : Char} {s : List Char} (h : HasEscape (c :: s))
    (hc : ∀ hi lo rest, c = '%' → s = hi :: lo :: rest →
      (hexValue hi).isSome = true → (hexValue lo).isSome = true → False) : HasEscape s := by
  obtain ⟨before, hi, lo, rest, heq, hhi, hlo⟩ := h
  cases before with
  | nil =>
      cases heq
      exact (hc hi lo rest rfl rfl hhi hlo).elim
  | cons d before =>
      cases heq
      exact ⟨before, hi, lo, rest, rfl, hhi, hlo⟩

theorem escapes_iff (s : List Char) : escapes s = 0 ↔ ¬HasEscape s := by
  unfold escapes
  fun_induction scan s with
  | case1 =>
      refine iff_of_true rfl ?_
      rintro ⟨before, hi, lo, rest, heq, -⟩
      cases before with
      | nil => cases heq
      | cons d before => cases heq
  | case2 hi lo rest a b ha hb ih =>
      rw [List.countP_cons_of_pos rfl]
      refine iff_of_false (by omega) (not_not_intro ⟨[], hi, lo, rest, rfl, ?_, ?_⟩)
      · simp [hb]
      · simp [ha]
  | case3 hi lo rest hnone ih =>
      rw [List.countP_cons_of_neg (by decide), ih, not_iff_not]
      refine ⟨fun h => h.cons _, fun h => h.tail fun hi' lo' rest' _ heq hhi hlo => ?_⟩
      cases heq
      obtain ⟨a, ha⟩ := Option.isSome_iff_exists.mp hhi
      obtain ⟨b, hb⟩ := Option.isSome_iff_exists.mp hlo
      exact hnone a b ha hb
  | case4 rest c hc ih =>
      rw [List.countP_cons_of_neg (by simp [Token.isEscape]), ih, not_iff_not]
      exact ⟨fun h => h.cons _, fun h => h.tail fun hi lo rest' heq hrest _ _ =>
        hc hi lo rest' heq hrest⟩

end Calcar.Phone.Uri

namespace Calcar.Phone

open Agent Lib Uri

/-! ## Requests -/

/-- An id that is read as it was written: no slash, backslash, question mark or hash,
not one or two dots alone, and no percent sign with two hexadecimal digits behind it. -/
structure PlainId (id : String) : Prop where
  chars : ∀ c ∈ id.toList, c ≠ '/' ∧ c ≠ '\\' ∧ c ≠ '?' ∧ c ≠ '#'
  dots : id ≠ "." ∧ id ≠ ".."
  escapes : ¬HasEscape id.toList

/-- Soundness can be evaluated. -/
theorem sound_of_checks {p : List Char}
    (hchars : (p.all fun c => c != '/' && c != '\\' && c != '?' && c != '#') = true)
    (hdots : isDots p = false) (hescapes : escapes p = 0) : Sound p := by
  refine ⟨fun c hc => ?_, hdots, hescapes⟩
  have h := List.all_eq_true.mp hchars c hc
  simpa only [Bool.and_eq_true, bne_iff_ne, and_assoc] using h

theorem plainId_iff (id : String) : PlainId id ↔ Sound id.toList := by
  have hdots : isDots id.toList = false ↔ id ≠ "." ∧ id ≠ ".." := by
    simp only [isDots, Bool.or_eq_false_iff, beq_eq_false_iff_ne]
    constructor
    · rintro ⟨h₁, h₂⟩
      refine ⟨?_, ?_⟩
      · rintro rfl
        exact h₁ rfl
      · rintro rfl
        exact h₂ rfl
    · rintro ⟨h₁, h₂⟩
      exact ⟨fun h => h₁ (String.toList_inj.mp h), fun h => h₂ (String.toList_inj.mp h)⟩
  constructor
  · exact fun h => ⟨h.chars, hdots.mpr h.dots, (escapes_iff _).mpr h.escapes⟩
  · exact fun h => ⟨h.chars, hdots.mp h.dots, (escapes_iff _).mp h.escapes⟩

namespace AgentCall

/-- The ids of a request. -/
def ids : AgentCall → List String
  | .fetchComputer computerId => [computerId]
  | .fetchSysinfo computerId => [computerId]
  | .fetchWorkflow computerId workflowId => [computerId, workflowId]
  | .postApprovalResolve workflowId => [workflowId]
  | .postInput workflowId => [workflowId]

/-- The route that a request is meant for. -/
def meant : AgentCall → Route
  | .fetchComputer computerId => .computer computerId
  | .fetchSysinfo computerId => .sysinfo computerId
  | .fetchWorkflow computerId workflowId => .workflowSnapshot computerId workflowId
  | .postApprovalResolve workflowId => .approval workflowId
  | .postInput workflowId => .input workflowId

/-- The parts of its path. -/
def parts : AgentCall → List String
  | .fetchComputer computerId => ["v1", "agent", "computers", computerId]
  | .fetchSysinfo computerId => ["v1", "agent", "computers", computerId, "sysinfo"]
  | .fetchWorkflow computerId workflowId =>
      ["v1", "agent", "computers", computerId, "workflows", workflowId]
  | .postApprovalResolve workflowId => ["v1", "agent", "workflows", workflowId, "approvals"]
  | .postInput workflowId => ["v1", "agent", "workflows", workflowId, "inputs"]

theorem path_eq (call : AgentCall) :
    call.path = String.ofList (address (call.parts.map String.toList)) := by
  rw [← String.toList_inj, String.toList_ofList]
  cases call with
  | fetchComputer computerId =>
      show ("/v1/agent/computers/" ++ computerId).toList = _
      simp [parts, address]
  | fetchSysinfo computerId =>
      show ("/v1/agent/computers/" ++ computerId ++ "/sysinfo").toList = _
      simp [parts, address]
  | fetchWorkflow computerId workflowId =>
      show ("/v1/agent/computers/" ++ computerId ++ "/workflows/" ++ workflowId).toList = _
      simp [parts, address]
  | postApprovalResolve workflowId =>
      show ("/v1/agent/workflows/" ++ workflowId ++ "/approvals").toList = _
      simp [parts, address]
  | postInput workflowId =>
      show ("/v1/agent/workflows/" ++ workflowId ++ "/inputs").toList = _
      simp [parts, address]

theorem route_iff (call : AgentCall) (url : String) :
    route call.method url = call.meant ↔ pathSegments (splitPath url).1 = call.parts := by
  unfold route
  generalize pathSegments (splitPath url).1 = segs
  constructor
  · intro h
    cases call <;> simp only [method, meant, parts] at h ⊢ <;> split at h <;> simp_all
  · intro h
    subst h
    cases call <;> rfl

/-- The parts that are no ids are plain. -/
theorem plain_parts (call : AgentCall) :
    (∀ p ∈ call.parts, PlainId p) ↔ ∀ id ∈ call.ids, PlainId id := by
  have hplain : ∀ p ∈ ["v1", "agent", "computers", "workflows", "sysinfo", "approvals", "inputs"],
      PlainId p := by
    intro p hp
    rw [plainId_iff]
    simp only [List.mem_cons, List.not_mem_nil, or_false] at hp
    obtain rfl | rfl | rfl | rfl | rfl | rfl | rfl := hp <;>
      exact sound_of_checks (by decide) (by decide) (by decide)
  simp only [List.forall_mem_cons] at hplain
  cases call <;> simp [parts, ids, hplain]

/-- No part is empty where no id is. -/
theorem parts_ne_empty {call : AgentCall} (hne : ∀ id ∈ call.ids, id ≠ "") :
    ∀ p ∈ call.parts, p ≠ "" := by
  cases call <;> simpa [parts, ids] using hne

theorem served_iff {call : AgentCall} (hne : ∀ id ∈ call.ids, id ≠ "") :
    call.served = call.meant ↔ ∀ id ∈ call.ids, PlainId id := by
  have hparts : ∀ p ∈ call.parts.map String.toList, p ≠ [] := by
    rw [List.forall_mem_map]
    exact fun p hp h => call.parts_ne_empty hne p hp (String.toList_eq_nil_iff.mp h)
  have hsound : (∀ p ∈ call.parts.map String.toList, Sound p) ↔ ∀ id ∈ call.ids, PlainId id := by
    rw [List.forall_mem_map, ← call.plain_parts]
    exact forall₂_congr fun p _ => (plainId_iff p).symm
  have hmap : (call.parts.map String.toList).map String.ofList = call.parts := by
    rw [List.map_map]
    exact List.map_id'' (fun s => String.ofList_toList) _
  rw [served, route_iff, path_eq, ← hsound, ← pathSegments_address hparts, hmap]

end AgentCall

/-- **A request reaches its route with its ids exactly when they are plain.** -/
theorem agent_requests_routed_iff (call : AgentCall) (hne : ∀ id ∈ call.ids, id ≠ "") :
    call.served = call.meant ↔ ∀ id ∈ call.ids, PlainId id := AgentCall.served_iff hne

theorem agent_requests_routed_iff_sample :
    (AgentCall.fetchWorkflow "PC-1 日本" "w %").served = .workflowSnapshot "PC-1 日本" "w %" :=
  (agent_requests_routed_iff (.fetchWorkflow "PC-1 日本" "w %") (by decide)).mpr (by
    intro id hid
    simp only [AgentCall.ids, List.mem_cons, List.not_mem_nil, or_false] at hid
    rw [plainId_iff]
    obtain rfl | rfl := hid <;> exact sound_of_checks (by decide) (by decide) (by decide))

/-- A slash in an id splits it. -/
theorem slash_misrouted :
    ¬∀ call : AgentCall, (∀ id ∈ call.ids, id ≠ "") → call.served = call.meant := by
  intro h
  exact absurd (h (.fetchComputer "a/b") (by decide)) (by decide)

end Calcar.Phone
