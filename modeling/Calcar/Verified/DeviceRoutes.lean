import Mathlib.Data.Bool.AllAny
import Calcar.Phone.Devices
import Calcar.Verified.AgentRoutes

/-!
# Posts that reach the handler of a revoke

The phone encodes the device id as one component of a path, `Uri.parse` leaves an encoded
component as it is unless it is a dot segment, and the mux unescapes what it has cut out.
So the handler is handed the id the phone was shown, or the post does not get to it.

## Main results

* `normalize_component` — `Uri.parse` rewrites nothing in an encoded component.
* `mux_revoke` — the path of a revoke, taken apart again.
* `revocation_revoke` — which revokes of the device screen their handler sees.
-/

namespace Calcar.Phone

open Agent Lib Lib.Utf8 Uri

/-! ## Encoded components -/

namespace Uri

theorem hexDigit_chars {n : Nat} (h : n < 16) :
    Char.ofNat (Percent.hexDigit n).toNat = hexDigit n := by
  have hall : ∀ n < 16, Char.ofNat (Percent.hexDigit n).toNat = hexDigit n := by decide
  exact hall n h

theorem hexValue_hexDigit {n : Nat} (h : n < 16) : hexValue (hexDigit n) = some n := by
  have hall : ∀ n < 16, hexValue (hexDigit n) = some n := by decide
  exact hall n h

/-- What is unreserved in a component needs no escape in a path either. -/
theorem isPathChar_unreserved {n : Nat} (h : Percent.unreserved n = true) :
    isPathChar (Char.ofNat n) = true := by
  have hall : ∀ n < 128, Percent.unreserved n = true → isPathChar (Char.ofNat n) = true := by
    decide
  exact hall n (Percent.unreserved_plain h).1 h

/-- No escape is needed in a path that is not unreserved in a component. -/
theorem unreserved_isUnreserved {n : Nat} (hn : n < 128)
    (h : isUnreserved (Char.ofNat n) = true) : Percent.unreserved n = true := by
  have hall : ∀ n < 128, isUnreserved (Char.ofNat n) = true → Percent.unreserved n = true := by
    decide
  exact hall n hn h

/-- The characters of an encoded byte. -/
theorem chars_escape (b : UInt8) :
    Percent.chars (Percent.escape b) =
      if Percent.unreserved b.toNat = true then [Char.ofNat b.toNat] else escapeByte b := by
  have hb : b.toNat < 256 := b.toNat_lt
  unfold Percent.escape
  split
  · rename_i h
    have hunit : (UInt16.ofNat b.toNat).toNat = b.toNat := by
      rw [UInt16.toNat_ofNat', Nat.mod_eq_of_lt (by omega)]
    show [Char.ofNat (UInt16.ofNat b.toNat).toNat] = _
    rw [hunit]
  · show [Char.ofNat (0x25 : UInt16).toNat, Char.ofNat (Percent.hexDigit (b.toNat / 16)).toNat,
      Char.ofNat (Percent.hexDigit (b.toNat % 16)).toNat] = _
    rw [hexDigit_chars (by omega), hexDigit_chars (by omega)]
    rfl

theorem scan_other {c : Char} (h : c ≠ '%') (rest : List Char) :
    scan (c :: rest) = .plain c :: scan rest := by
  rw [scan]
  exact fun _ _ _ heq => absurd heq h

theorem scan_escapeByte (b : UInt8) (rest : List Char) :
    scan (escapeByte b ++ rest) = .escape b :: scan rest := by
  have hb : b.toNat < 256 := b.toNat_lt
  have hvalue : 16 * (b.toNat / 16) + b.toNat % 16 = b.toNat := by omega
  show scan ('%' :: hexDigit (b.toNat / 16) :: hexDigit (b.toNat % 16) :: rest) = _
  rw [scan, hexValue_hexDigit (by omega), hexValue_hexDigit (by omega)]
  show Token.escape (UInt8.ofNat (16 * (b.toNat / 16) + b.toNat % 16)) :: _ = _
  rw [hvalue, UInt8.ofNat_toNat]

/-- What may stay in a path stays. -/
theorem normalize_keep {c : Char} (h : isPathChar c = true) (rest : List Char) :
    normalize isPathChar true (c :: rest) = c :: normalize isPathChar true rest := by
  rw [normalize, scan_other (isPathChar_ascii h).2, List.flatMap_cons, Token.spell, if_pos h]
  rfl

theorem normalize_kept {text : List Char} (h : ∀ c ∈ text, isPathChar c = true)
    (rest : List Char) :
    normalize isPathChar true (text ++ rest) = text ++ normalize isPathChar true rest := by
  induction text with
  | nil => rfl
  | cons c text ih =>
      rw [List.cons_append, normalize_keep (h c List.mem_cons_self),
        ih fun d hd => h d (List.mem_cons_of_mem _ hd), List.cons_append]

/-- An encoded byte stays. -/
theorem normalize_escape (b : UInt8) (rest : List Char) :
    normalize isPathChar true (Percent.chars (Percent.escape b) ++ rest) =
      Percent.chars (Percent.escape b) ++ normalize isPathChar true rest := by
  rw [chars_escape]
  split
  · rename_i h
    exact normalize_keep (isPathChar_unreserved h) rest
  · rename_i h
    have hneeded : ¬(b < 128 ∧ isUnreserved (Char.ofNat b.toNat) = true) := fun hb =>
      h (unreserved_isUnreserved hb.1 hb.2)
    rw [normalize, scan_escapeByte, List.flatMap_cons, Token.spell, if_neg hneeded]
    rfl

theorem normalize_escapes (bs : Bytes) (rest : List Char) :
    normalize isPathChar true (Percent.chars (bs.flatMap Percent.escape) ++ rest) =
      Percent.chars (bs.flatMap Percent.escape) ++ normalize isPathChar true rest := by
  induction bs with
  | nil => rfl
  | cons b bs ih =>
      have hchars : Percent.chars ((b :: bs).flatMap Percent.escape) =
          Percent.chars (Percent.escape b) ++ Percent.chars (bs.flatMap Percent.escape) := by
        rw [List.flatMap_cons, Percent.chars, List.map_append]
        rfl
      rw [hchars, List.append_assoc, normalize_escape, ih, List.append_assoc]

end Uri

/-! ## Paths without dots -/

namespace Uri

theorem dots_slash {ss : List (List Char)} (hss : ∀ s ∈ ss, isDots s = false)
    {acc : List (List Char) × Bool} (hacc : acc.2 = false) :
    (ss.foldl dotSegment acc).2 = false := by
  induction ss generalizing acc with
  | nil => exact hacc
  | cons s ss ih =>
      have hs := hss s List.mem_cons_self
      simp only [isDots, Bool.or_eq_false_iff, beq_eq_false_iff_ne] at hs
      rw [List.foldl_cons]
      refine ih (fun t ht => hss t (List.mem_cons_of_mem _ ht)) ?_
      rw [dotSegment, if_neg hs.2, if_neg hs.1]

theorem intercalate_parts (p : List Char) (ps : List (List Char)) :
    ['/'].intercalate ([] :: p :: ps) = address (p :: ps) := by
  induction ps generalizing p with
  | nil => simp [address]
  | cons q ps ih =>
      have htail := ih q
      simp only [address, List.intercalate_cons_cons, List.flatMap_cons, List.nil_append,
        List.cons_append] at htail ⊢
      rw [List.append_assoc, List.singleton_append, htail]

/-- **Without dots nothing is removed.** -/
theorem removeDots_address {p : List Char} {ps : List (List Char)}
    (hplain : ∀ s ∈ p :: ps, ∀ c ∈ s, isSlash c = false)
    (hdots : ∀ s ∈ p :: ps, isDots s = false) :
    removeDotSegments (address (p :: ps)) = address (p :: ps) := by
  have hcut : segments isSlash (address (p :: ps)) = [] :: p :: ps :=
    segments_parts (by decide) hplain
  have hall : ∀ s ∈ [] :: p :: ps, isDots s = false := by
    intro s hs
    cases hs with
    | head => rfl
    | tail _ hs => exact hdots s hs
  unfold removeDotSegments
  rw [hcut]
  have hslash : (([] :: p :: ps).foldl dotSegment ([], false)).2 = false := dots_slash hall rfl
  simp only [dots_none hall, hslash, List.nil_append,
    Bool.false_eq_true, if_false, List.append_nil]
  exact intercalate_parts p ps

end Uri

theorem toList_component (id : String) :
    (encodeComponent id).toList =
      Percent.chars ((asBytes id.toList).flatMap Percent.escape) := by
  rw [encodeComponent, String.toList_ofList, Percent.encode, Percent.bytesOf_ofString]

/-- **Nothing in an encoded component is rewritten.** -/
theorem normalize_component (id : String) (rest : List Char) :
    normalize isPathChar true ((encodeComponent id).toList ++ rest) =
      (encodeComponent id).toList ++ normalize isPathChar true rest := by
  rw [toList_component]
  exact normalize_escapes _ rest

/-- A component is made of percent signs and unreserved characters. -/
theorem mem_component {id : String} {c : Char} (h : c ∈ (encodeComponent id).toList) :
    c = '%' ∨ ∃ n, Percent.unreserved n = true ∧ c = Char.ofNat n := by
  rw [encodeComponent, String.toList_ofList] at h
  obtain ⟨u, hu, rfl⟩ := List.mem_map.mp h
  obtain rfl | hplain := Percent.encode_units _ u hu
  · exact .inl rfl
  · exact .inr ⟨_, hplain, rfl⟩

/-- It has no character at which a path is cut. -/
theorem component_plain {id : String} {c : Char} (h : c ∈ (encodeComponent id).toList) :
    c ≠ '/' ∧ c ≠ '?' ∧ c ≠ '#' := by
  have hall : ∀ n < 128, Percent.unreserved n = true →
      Char.ofNat n ≠ '/' ∧ Char.ofNat n ≠ '?' ∧ Char.ofNat n ≠ '#' := by decide
  obtain rfl | ⟨n, hn, rfl⟩ := mem_component h
  · decide
  · exact hall n (Percent.unreserved_plain hn).1 hn

/-- **The mux reads a component back.** -/
theorem pathUnescape_component (id : String) :
    Api.pathUnescape (encodeComponent id).toList = some id := by
  have hlow : ∀ u ∈ Percent.encode (Utf16.ofString id), u.toNat ≤ 127 := by
    intro u hu
    obtain rfl | hplain := Percent.encode_units _ u hu
    · decide
    · exact Nat.le_of_lt_succ (Percent.unreserved_plain hplain).1
  rw [Api.pathUnescape, encodeComponent, String.toList_ofList, Percent.ofString_chars hlow,
    Percent.encode, Percent.unescape_encoded, Percent.bytesOf_ofString, Option.bind_some,
    fromUtf8_asBytes, Option.map_some, String.ofList_toList]

/-! ## The path of a revoke -/

/-- The segments of a revoke's path. -/
def revokeParts (component : List Char) : List (List Char) :=
  [['v', '1'], ['d', 'e', 'v', 'i', 'c', 'e', 's'], component, ['r', 'e', 'v', 'o', 'k', 'e']]

/-- The path of a revoke, as it is asked for. -/
def revokePath (id : String) : List Char := address (revokeParts (encodeComponent id).toList)

theorem revokeParts_plain (id : String) : ∀ p ∈ revokeParts (encodeComponent id).toList,
    ∀ c ∈ p, c ≠ '/' ∧ c ≠ '?' ∧ c ≠ '#' := by
  intro p hp
  simp only [revokeParts, List.mem_cons, List.not_mem_nil, or_false] at hp
  obtain rfl | rfl | rfl | rfl := hp
  · exact List.all_iff_forall_prop.mp (by decide)
  · exact List.all_iff_forall_prop.mp (by decide)
  · exact fun c hc => component_plain hc
  · exact List.all_iff_forall_prop.mp (by decide)

/-- No query and no fragment begins in the path. -/
theorem revokePath_plain (id : String) : ∀ c ∈ revokePath id, c ≠ '?' ∧ c ≠ '#' := by
  intro c hc
  obtain rfl | ⟨p, hp, hcp⟩ := mem_address hc
  · decide
  · exact (revokeParts_plain id p hp c hcp).2

/-- What decodes to another id is not the component of this one. -/
theorem component_ne {id other : String} (h : id ≠ other)
    (hother : Api.pathUnescape other.toList = some other) :
    (encodeComponent id).toList ≠ other.toList := by
  intro heq
  have hback := pathUnescape_component id
  rw [heq, hother] at hback
  exact h (Option.some.inj hback).symm

/-- The component stays in the path unless it is a dot segment. -/
theorem revokeParts_dots {id : String} (hone : id ≠ ".") (htwo : id ≠ "..") :
    ∀ p ∈ revokeParts (encodeComponent id).toList, isDots p = false := by
  have hcomponent : isDots (encodeComponent id).toList = false := by
    rw [isDots, Bool.or_eq_false_iff, beq_eq_false_iff_ne, beq_eq_false_iff_ne]
    exact ⟨component_ne hone (by decide), component_ne htwo (by decide)⟩
  intro p hp
  simp only [revokeParts, List.mem_cons, List.not_mem_nil, or_false] at hp
  obtain rfl | rfl | rfl | rfl := hp
  · decide
  · decide
  · exact hcomponent
  · decide

/-- The path is written as it is asked for. -/
theorem normalize_revokePath (id : String) :
    normalize isPathChar true (revokePath id) = revokePath id := by
  have hfront : ∀ c ∈ address [['v', '1'], ['d', 'e', 'v', 'i', 'c', 'e', 's'], []],
      isPathChar c = true := List.all_iff_forall_prop.mp (by decide)
  have hend : ∀ c ∈ address [['r', 'e', 'v', 'o', 'k', 'e']], isPathChar c = true :=
    List.all_iff_forall_prop.mp (by decide)
  have hsplit : revokePath id =
      address [['v', '1'], ['d', 'e', 'v', 'i', 'c', 'e', 's'], []] ++
        ((encodeComponent id).toList ++ (address [['r', 'e', 'v', 'o', 'k', 'e']] ++ [])) := by
    simp [revokePath, revokeParts, address]
  rw [hsplit, normalize_kept hfront, normalize_component, normalize_kept hend]
  rfl

theorem path_revokePath {id : String} (hone : id ≠ ".") (htwo : id ≠ "..") :
    path (revokePath id) = revokePath id := by
  have hwhole : (revokePath id).takeWhile (fun c => c ≠ '?' ∧ c ≠ '#') = revokePath id := by
    rw [List.takeWhile_eq_self_iff]
    intro c hc
    simpa using revokePath_plain id c hc
  rw [path, hwhole, normalize_revokePath]
  exact removeDots_address
    (fun p hp c hc => beq_eq_false_iff_ne.mpr (revokeParts_plain id p hp c hc).1)
    (revokeParts_dots hone htwo)

theorem query_revokePath (id : String) : query (revokePath id) = [] := by
  have hnone : (revokePath id).dropWhile (fun c => c ≠ '?' ∧ c ≠ '#') = [] := by
    rw [List.dropWhile_eq_nil_iff]
    intro c hc
    simpa using revokePath_plain id c hc
  rw [query, hnone]

/-- What the phone sends for a component that is no dot segment. -/
theorem target_revoke {id : String} (hone : id ≠ ".") (htwo : id ≠ "..") :
    Uri.target ("/v1/devices/" ++ encodeComponent id ++ "/revoke") =
      String.ofList (revokePath id) := by
  have htext : ("/v1/devices/" ++ encodeComponent id ++ "/revoke").toList = revokePath id := by
    simp [revokePath, revokeParts, address]
  rw [target, htext, path_revokePath hone htwo, query_revokePath, List.append_nil]
  rfl

/-- **The mux takes the path apart again**, unless a segment goes from it. -/
theorem mux_revoke {id : String} (hempty : id ≠ "") (hone : id ≠ ".") (htwo : id ≠ "..") :
    Api.mux .post (String.ofList (revokePath id)) = some (.deviceRevoke id) := by
  have hclean : Api.unclean (encodeComponent id).toList = false := by
    unfold Api.unclean
    rw [Bool.or_eq_false_iff, Bool.or_eq_false_iff, beq_eq_false_iff_ne, beq_eq_false_iff_ne,
      beq_eq_false_iff_ne]
    exact ⟨⟨component_ne hempty (by decide), component_ne hone (by decide)⟩,
      component_ne htwo (by decide)⟩
  have hquery : (revokePath id).takeWhile (· ≠ '?') = revokePath id := by
    rw [List.takeWhile_eq_self_iff]
    intro c hc
    simpa using (revokePath_plain id c hc).1
  have hparts : (revokeParts (encodeComponent id).toList).mapM Api.pathUnescape =
      some ["v1", "devices", id, "revoke"] := by
    have hversion : Api.pathUnescape ['v', '1'] = some "v1" := by decide
    have hdevices : Api.pathUnescape ['d', 'e', 'v', 'i', 'c', 'e', 's'] = some "devices" := by
      decide
    have hrevoke : Api.pathUnescape ['r', 'e', 'v', 'o', 'k', 'e'] = some "revoke" := by decide
    rw [revokeParts, List.mapM_cons, List.mapM_cons, List.mapM_cons, List.mapM_cons, hversion,
      hdevices, pathUnescape_component, hrevoke]
    rfl
  have hany : (revokeParts (encodeComponent id).toList).any Api.unclean = false := by
    simp only [revokeParts, List.any_cons, List.any_nil, hclean]
    decide
  have hcut : segments (· == '/') (revokePath id) =
      [] :: revokeParts (encodeComponent id).toList :=
    segments_parts rfl fun p hp c hc => beq_eq_false_iff_ne.mpr (revokeParts_plain id p hp c hc).1
  rw [Api.mux, String.toList_ofList, hquery, hcut]
  simp only [hany, hparts]
  rfl

/-! ## The revoke that arrives -/

/-- The text can be a header: ASCII without control characters, a tab apart. -/
def HeaderText (value : String) : Prop :=
  ∀ c ∈ value.toList, c = '\t' ∨ 32 ≤ c.toNat ∧ c.toNat < 127

/-- The revoke of an id can be sent: the id stands as a segment of its own in a path, and
it and the token stand in headers. -/
structure Sendable (token : Option String) (id : String) : Prop where
  segment : id ≠ "" ∧ id ≠ "." ∧ id ≠ ".."
  token : HeaderText (authorizationOf token)
  id : HeaderText id

/-- The revoke of an id, at its handler. -/
def revokeRequest (token : Option String) (id : String) : Api.Request where
  authorization := authorizationOf token
  requestId := revokeIdempotencyKey id
  route := .deviceRevoke id (some (.ok (buildRevokeBody "")))

/-- The phone sends a header and the server takes it exactly if it is plain. -/
theorem headerText_iff (value : String) :
    isHeaderValue value = true ∧ Api.validHeaderFieldValue value = true ↔ HeaderText value := by
  unfold isHeaderValue Api.validHeaderFieldValue HeaderText
  rw [List.all_eq_true, List.all_eq_true, ← forall₂_and]
  refine forall₂_congr fun c _ => ?_
  simp only [Bool.or_eq_true, Bool.and_eq_true, beq_iff_eq, decide_eq_true_eq, bne_iff_ne]
  constructor
  · rintro ⟨rfl | ⟨hlow, hhigh⟩, hc⟩
    · exact .inl rfl
    · obtain rfl | ⟨-, hdel⟩ := hc
      · exact .inl rfl
      · exact .inr ⟨hlow, by omega⟩
  · rintro (rfl | ⟨hlow, hhigh⟩)
    · exact ⟨.inl rfl, .inl rfl⟩
    · exact ⟨.inr ⟨hlow, by omega⟩, .inr ⟨hlow, by omega⟩⟩

theorem headerText_key (id : String) : HeaderText (revokeIdempotencyKey id) ↔ HeaderText id := by
  have hkey : (revokeIdempotencyKey id).toList = ['r', 'e', 'v', 'o', 'k', 'e', '-'] ++ id.toList :=
    by simp [revokeIdempotencyKey]
  have hfront : ∀ c ∈ ['r', 'e', 'v', 'o', 'k', 'e', '-'], 32 ≤ c.toNat ∧ c.toNat < 127 :=
    List.all_iff_forall_prop.mp (by decide)
  unfold HeaderText
  rw [hkey]
  refine ⟨fun h c hc => h c (List.mem_append_right _ hc), fun h c hc => ?_⟩
  obtain hc | hc := List.mem_append.mp hc
  · exact .inr (hfront c hc)
  · exact h c hc

/-- An id that is no segment of its own does not reach the handler. -/
theorem mux_gone {id : String} (h : id = "" ∨ id = "." ∨ id = "..") :
    Api.mux .post (Uri.target ("/v1/devices/" ++ encodeComponent id ++ "/revoke")) = none := by
  obtain rfl | rfl | rfl := h <;> decide +kernel

/-- The mux hands the id on exactly if it is a segment of its own. -/
theorem mux_target (id : String) :
    Api.mux .post (Uri.target ("/v1/devices/" ++ encodeComponent id ++ "/revoke")) =
      if id = "" ∨ id = "." ∨ id = ".." then none else some (.deviceRevoke id) := by
  split
  · rename_i h
    exact mux_gone h
  · rename_i h
    simp only [not_or] at h
    rw [target_revoke h.2.1 h.2.2, mux_revoke h.1 h.2.1 h.2.2]

/-- The revoke of an id, as it is sent. -/
def revokePost (token : Option String) (id : String) : Api.Posted Api.RevokeReq where
  target := Uri.target ("/v1/devices/" ++ encodeComponent id ++ "/revoke")
  authorization := authorizationOf token
  requestId := revokeIdempotencyKey id
  body := buildRevokeBody ""

theorem revoke_eq (token : Option String) (id : String) :
    revoke token id =
      if isHeaderValue (authorizationOf token) = true ∧
        isHeaderValue (revokeIdempotencyKey id) = true then some (revokePost token id)
      else none := rfl

/-- What the server makes of it. -/
theorem revocation_eq (token : Option String) (id : String) :
    (revokePost token id).revocation =
      if (Api.validHeaderFieldValue (authorizationOf token) = true ∧
          Api.validHeaderFieldValue (revokeIdempotencyKey id) = true) ∧
        ¬(id = "" ∨ id = "." ∨ id = "..") then some (revokeRequest token id)
      else none := by
  have hmux : Api.mux .post (revokePost token id).target = _ := mux_target id
  unfold Api.Posted.revocation
  rw [hmux]
  by_cases hvalid : Api.validHeaderFieldValue (authorizationOf token) = true ∧
      Api.validHeaderFieldValue (revokeIdempotencyKey id) = true
  · rw [if_pos (show Api.validHeaderFieldValue (revokePost token id).authorization = true ∧
      Api.validHeaderFieldValue (revokePost token id).requestId = true from hvalid)]
    by_cases hgone : id = "" ∨ id = "." ∨ id = ".."
    · rw [if_pos hgone, if_neg fun h => h.2 hgone]
    · rw [if_neg hgone, if_pos ⟨hvalid, hgone⟩]
      rfl
  · rw [if_neg (show ¬(Api.validHeaderFieldValue (revokePost token id).authorization = true ∧
      Api.validHeaderFieldValue (revokePost token id).requestId = true) from hvalid),
      if_neg fun h => hvalid h.1]

/-- **Which revokes arrive**, and as what. -/
theorem revocation_revoke (token : Option String) (id : String) (r : Api.Request) :
    (revoke token id).bind Api.Posted.revocation = some r ↔
      Sendable token id ∧ r = revokeRequest token id := by
  have htoken := headerText_iff (authorizationOf token)
  have hkey := (headerText_iff (revokeIdempotencyKey id)).trans (headerText_key id)
  rw [revoke_eq]
  by_cases hsent : isHeaderValue (authorizationOf token) = true ∧
      isHeaderValue (revokeIdempotencyKey id) = true
  · rw [if_pos hsent, Option.bind_some, revocation_eq]
    by_cases hvalid : (Api.validHeaderFieldValue (authorizationOf token) = true ∧
        Api.validHeaderFieldValue (revokeIdempotencyKey id) = true) ∧
      ¬(id = "" ∨ id = "." ∨ id = "..")
    · rw [if_pos hvalid, Option.some_inj, eq_comm]
      have hsegment : id ≠ "" ∧ id ≠ "." ∧ id ≠ ".." := by simpa only [not_or] using hvalid.2
      exact (and_iff_right ⟨hsegment, htoken.mp ⟨hsent.1, hvalid.1.1⟩,
        hkey.mp ⟨hsent.2, hvalid.1.2⟩⟩).symm
    · rw [if_neg hvalid]
      refine iff_of_false (Option.some_ne_none r).symm fun h => hvalid ?_
      refine ⟨⟨(htoken.mpr h.1.token).2, (hkey.mpr h.1.id).2⟩, ?_⟩
      simpa only [not_or] using h.1.segment
  · rw [if_neg hsent, Option.bind_none]
    refine iff_of_false (Option.some_ne_none r).symm fun h => hsent ?_
    exact ⟨(htoken.mpr h.1.token).1, (hkey.mpr h.1.id).1⟩

end Calcar.Phone
