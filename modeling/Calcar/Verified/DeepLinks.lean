import Mathlib.Data.List.Forall2
import Calcar.Phone.DeepLink

/-!
# Links and their paths

A path is a part for each keyword and each id; the ids are encoded, so that no slash in
them makes a part of its own.  What parses is the list of the decoded parts, and a part
that does not decode is empty, which is no keyword and no id.

## Main results

* `tryParsePath_eq` — parsing reads the list of parts, and never throws.
* `linkOf_names` — the parts of a link are read back.
* `deep_link_law` — links are read back from their paths, and their parents from the paths
  above.
-/

namespace Calcar.Phone.DeepLink

open Lib Lib.Utf16

/-! ## What parses -/

def computers : Text := ofString "computers"
def workflows : Text := ofString "workflows"
def approvals : Text := ofString "approvals"

def toComputer (c : Text) : DeepLink where
  kind := .computer
  computerId := c

def toWorkflow (c w : Text) : DeepLink where
  kind := .workflow
  computerId := c
  workflowId := w

def toApproval (c w a : Text) : DeepLink where
  kind := .approval
  computerId := c
  workflowId := w
  approvalId := a

/-- The link of the decoded parts. -/
def linkOf : List Text → Option DeepLink
  | [k, c] => if k = computers ∧ c ≠ [] then some (toComputer c) else none
  | [k, c, l] =>
      if k = computers ∧ c ≠ [] ∧ l = workflows then some (toComputer c) else none
  | [k, c, l, w] =>
      if k = computers ∧ c ≠ [] ∧ l = workflows ∧ w ≠ [] then some (toWorkflow c w) else none
  | [k, c, l, w, m] =>
      if k = computers ∧ c ≠ [] ∧ l = workflows ∧ w ≠ [] ∧ m = approvals then
        some (toWorkflow c w)
      else none
  | [k, c, l, w, m, a] =>
      if k = computers ∧ c ≠ [] ∧ l = workflows ∧ w ≠ [] ∧ m = approvals ∧ a ≠ [] then
        some (toApproval c w a)
      else none
  | _ => none

@[simp] theorem partAt_zero (part : Text) (parts : List Text) :
    partAt (part :: parts) 0 = .ok part := rfl

@[simp] theorem partAt_succ {index : Nat} {part : Text} {parts : List Text}
    (h : index < parts.length) : partAt (part :: parts) (index + 1) = partAt parts index := by
  simp [partAt, List.getElem?_eq_getElem h]

@[simp] theorem ok_bind {α β : Type} (a : α) (f : α → Except DartError β) :
    ((Except.ok a : Except DartError α) >>= f) = f a := rfl

/-- **Parsing** reads the decoded parts, and never throws. -/
theorem tryParsePath_eq (uri : Uri) (path : Text) :
    tryParsePath uri path = .ok (linkOf ((splitPath path).map (decodeSegment uri))) := by
  unfold tryParsePath
  generalize (splitPath path).map (decodeSegment uri) = parts
  match parts with
  | [] => rfl
  | [_] => rfl
  | [k, c] =>
      simp [linkOf, pure, Except.pure, toComputer, computers]
      grind
  | [k, c, l] =>
      simp [linkOf, computers, workflows, pure, Except.pure, toComputer]
      grind
  | [k, c, l, w] =>
      simp [linkOf, computers, workflows, pure, Except.pure, toWorkflow]
      grind
  | [k, c, l, w, m] =>
      simp [linkOf, computers, workflows, approvals, pure, Except.pure, toWorkflow]
      grind
  | [k, c, l, w, m, a] =>
      simp [linkOf, computers, workflows, approvals, pure, Except.pure, toApproval]
      grind
  | _ :: _ :: _ :: _ :: _ :: _ :: _ :: more => simp [linkOf, pure, Except.pure]

theorem computers_ne : computers ≠ [] := by decide
theorem workflows_ne : workflows ≠ [] := by decide
theorem approvals_ne : approvals ≠ [] := by decide

/-- **An empty part** makes no link. -/
theorem linkOf_empty {parts : List Text} (h : [] ∈ parts) : linkOf parts = none := by
  have hk := computers_ne
  have hl := workflows_ne
  have hm := approvals_ne
  match parts with
  | [] => rfl
  | [_] => rfl
  | [k, c] => simp [linkOf] at h ⊢; grind
  | [k, c, l] => simp [linkOf] at h ⊢; grind
  | [k, c, l, w] => simp [linkOf] at h ⊢; grind
  | [k, c, l, w, m] => simp [linkOf] at h ⊢; grind
  | [k, c, l, w, m, a] => simp [linkOf] at h ⊢; grind
  | _ :: _ :: _ :: _ :: _ :: _ :: _ :: more => rfl

/-! ## Paths of links -/

/-- The path of the parts. -/
def pathOf (parts : List Text) : Text := parts.flatMap fun part => 0x2F :: part

/-- The path that ends behind the first `k` segments. -/
def upTo (path : Text) (k : Nat) : Text := pathOf ((splitPath path).take k)

/-- The keywords and ids of a link. -/
def names (link : DeepLink) : List Text :=
  match link.kind with
  | .computer => [computers, link.computerId]
  | .workflow => [computers, link.computerId, workflows, link.workflowId]
  | .approval =>
      [computers, link.computerId, workflows, link.workflowId, approvals, link.approvalId]

/-- The parts of a link's path. -/
def parts (uri : Uri) (link : DeepLink) : List Text :=
  match link.kind with
  | .computer => [computers, uri.encodeComponent link.computerId]
  | .workflow =>
      [computers, uri.encodeComponent link.computerId, workflows,
        uri.encodeComponent link.workflowId]
  | .approval =>
      [computers, uri.encodeComponent link.computerId, workflows,
        uri.encodeComponent link.workflowId, approvals, uri.encodeComponent link.approvalId]

/-- The text is an id: it is not empty, and one of characters. -/
def IsId (text : Text) : Prop := text ≠ [] ∧ WellFormed text

/-- The link has the ids of its kind, and no others. -/
def Addressed (link : DeepLink) : Prop :=
  match link.kind with
  | .computer => IsId link.computerId ∧ link.workflowId = [] ∧ link.approvalId = []
  | .workflow => IsId link.computerId ∧ IsId link.workflowId ∧ link.approvalId = []
  | .approval => IsId link.computerId ∧ IsId link.workflowId ∧ IsId link.approvalId

/-- The link above. -/
def parent (link : DeepLink) : Option DeepLink :=
  match link.kind with
  | .computer => none
  | .workflow => some (toComputer link.computerId)
  | .approval => some (toWorkflow link.computerId link.workflowId)

/-- The link so many levels above. -/
def above : Nat → DeepLink → Option DeepLink
  | 0, link => some link
  | levels + 1, link => link.parent.bind (above levels)

section Codec

variable {uri : Uri}

theorem path_eq (link : DeepLink) : link.path uri = pathOf (link.parts uri) := by
  have hcomputers : ofString "/computers/" = 0x2F :: computers ++ [0x2F] := by decide
  have hworkflows : ofString "/workflows/" = 0x2F :: workflows ++ [0x2F] := by decide
  have happrovals : ofString "/approvals/" = 0x2F :: approvals ++ [0x2F] := by decide
  unfold path parts
  cases link.kind <;> simp [pathOf, hcomputers, hworkflows, happrovals]

/-- A part that can stand between slashes, and what it decodes to. -/
def Stands (uri : Uri) (part name : Text) : Prop :=
  part ≠ [] ∧ (∀ u ∈ part, (u == 0x2F) = false) ∧ decodeSegment uri part = name

/-- **Parts between slashes** are split again. -/
theorem splitPath_pathOf {parts : List Text}
    (h : ∀ part ∈ parts, part ≠ [] ∧ ∀ u ∈ part, (u == 0x2F) = false) :
    splitPath (pathOf parts) = parts := by
  rw [splitPath, pathOf, segments_parts (by decide) fun part hpart => (h part hpart).2]
  simpa using fun part hpart => (h part hpart).1

/-- A text without a percent sign or slash, in ASCII. -/
theorem stands_keyword (h : uri.Inverse) {text : Text} (hne : text ≠ [])
    (hplain : text.all (fun u => decide (u.toNat ≤ 127) && u != 0x25 && u != 0x2F) = true) :
    Stands uri text text := by
  simp only [List.all_eq_true, Bool.and_eq_true, decide_eq_true_eq, bne_iff_ne] at hplain
  refine ⟨hne, fun u hu => beq_eq_false_iff_ne.2 (hplain u hu).2, ?_⟩
  rw [decodeSegment, h.decode_plain text fun u hu => (hplain u hu).1]

theorem stands_id (h : uri.Inverse) {id : Text} (hid : IsId id) :
    Stands uri (uri.encodeComponent id) id := by
  have hback := h.decode_encode id hid.2
  refine ⟨?_, ?_, by rw [decodeSegment, hback]⟩
  · intro hempty
    rw [hempty, h.decode_plain [] (by simp)] at hback
    cases hback
    exact hid.1 rfl
  · intro u hu
    rcases h.encode_units id u hu with rfl | hunreserved
    · decide
    · rw [beq_eq_false_iff_ne]
      rintro rfl
      exact absurd hunreserved (by decide)

/-- The parts of a link stand for its names. -/
theorem parts_stand (h : uri.Inverse) {link : DeepLink} (hlink : link.Addressed) :
    List.Forall₂ (Stands uri) (link.parts uri) link.names := by
  have hcomputers : Stands uri computers computers := stands_keyword h (by decide) (by decide)
  have hworkflows : Stands uri workflows workflows := stands_keyword h (by decide) (by decide)
  have happrovals : Stands uri approvals approvals := stands_keyword h (by decide) (by decide)
  unfold Addressed at hlink
  unfold parts names
  cases hkind : link.kind with
  | computer =>
      simp only [hkind] at hlink
      simp [hcomputers, stands_id h hlink.1]
  | workflow =>
      simp only [hkind] at hlink
      simp [hcomputers, hworkflows, stands_id h hlink.1, stands_id h hlink.2.1]
  | approval =>
      simp only [hkind] at hlink
      simp [hcomputers, hworkflows, happrovals, stands_id h hlink.1, stands_id h hlink.2.1,
        stands_id h hlink.2.2]

/-- Parts that stand for names are split again, and decode to these. -/
theorem stand_split {parts names : List Text} (h : List.Forall₂ (Stands uri) parts names) :
    (∀ part ∈ parts, part ≠ [] ∧ ∀ u ∈ part, (u == 0x2F) = false) ∧
      parts.map (decodeSegment uri) = names := by
  induction h with
  | nil => exact ⟨by simp, rfl⟩
  | cons hpart _ ih =>
      refine ⟨?_, by rw [List.map_cons, hpart.2.2, ih.2]⟩
      rw [List.forall_mem_cons]
      exact ⟨⟨hpart.1, hpart.2.1⟩, ih.1⟩

/-- **What is read** of parts that stand for names. -/
theorem tryParsePath_stand {parts names : List Text}
    (h : List.Forall₂ (Stands uri) parts names) :
    tryParsePath uri (pathOf parts) = .ok (linkOf names) := by
  rw [tryParsePath_eq, splitPath_pathOf (stand_split h).1, (stand_split h).2]

theorem splitPath_path (h : uri.Inverse) {link : DeepLink} (hlink : link.Addressed) :
    splitPath (link.path uri) = link.parts uri := by
  rw [path_eq]
  exact splitPath_pathOf (stand_split (parts_stand h hlink)).1

end Codec

/-- **The names of a link**, or the first of them: the link itself, or one above. -/
theorem linkOf_names {link : DeepLink} (hlink : link.Addressed) {k : Nat}
    (hk : k ≤ link.names.length) :
    linkOf (link.names.take k) = link.above ((link.names.length - k + 1) / 2) := by
  rcases link with ⟨kind, c, w, a⟩
  cases kind with
  | computer =>
      rcases hlink with ⟨⟨hc, -⟩, rfl, rfl⟩
      match k, hk with
      | 0, _ | 1, _ | 2, _ => simp_all [names, linkOf, above, parent, toComputer]
  | workflow =>
      rcases hlink with ⟨⟨hc, -⟩, ⟨hw, -⟩, rfl⟩
      match k, hk with
      | 0, _ | 1, _ | 2, _ | 3, _ | 4, _ =>
          simp_all [names, linkOf, above, parent, toComputer, toWorkflow]
  | approval =>
      rcases hlink with ⟨⟨hc, -⟩, ⟨hw, -⟩, ha, -⟩
      match k, hk with
      | 0, _ | 1, _ | 2, _ | 3, _ | 4, _ | 5, _ | 6, _ =>
          simp_all [names, linkOf, above, parent, toComputer, toWorkflow, toApproval]

/-- The path up to any of its segments. -/
theorem tryParsePath_upTo {uri : Uri} (h : uri.Inverse) {link : DeepLink}
    (hlink : link.Addressed) {k : Nat} (hk : k ≤ (splitPath (link.path uri)).length) :
    tryParsePath uri (upTo (link.path uri) k) =
      .ok (link.above (((splitPath (link.path uri)).length - k + 1) / 2)) := by
  have hstand := parts_stand h hlink
  have hlength := List.Forall₂.length_eq hstand
  rw [splitPath_path h hlink, hlength] at hk ⊢
  rw [upTo, splitPath_path h hlink, tryParsePath_stand (List.forall₂_take k hstand), linkOf_names hlink hk]

/-- **Deep links.**  The link with the ids of its kind is read back from its path; every
path above, which lacks so many segments, is read as the link half as many levels above,
that is, as none from the computer on; the root path is none as well.  Whatever the path,
parsing does not throw, and a segment with a malformed escape, or that does not decode for
another reason, makes no link. -/
theorem deep_link_law (uri : Uri) (h : uri.Inverse) :
    (∀ link : DeepLink, link.Addressed →
      tryParsePath uri (link.path uri) = .ok (some link) ∧
        ∀ k < (splitPath (link.path uri)).length,
          tryParsePath uri (upTo (link.path uri) k) =
            .ok (link.above (((splitPath (link.path uri)).length - k + 1) / 2))) ∧
      tryParsePath uri (ofString "/") = .ok none ∧
      (∀ path, ∃ result, tryParsePath uri path = .ok result) ∧
      ∀ path, ∀ part ∈ splitPath path,
        Percent.BadEscape part ∨ (∃ thrown, uri.decodeComponent part = .error thrown) →
          tryParsePath uri path = .ok none := by
  refine ⟨fun link hlink => ⟨?_, fun k hk => ?_⟩, ?_, fun path => ?_, fun path part hpart hbad => ?_⟩
  · rw [path_eq, tryParsePath_stand (parts_stand h hlink)]
    have hnames := linkOf_names hlink (Nat.le_refl _)
    rw [List.take_length, Nat.sub_self] at hnames
    rw [hnames]
    rfl
  · exact tryParsePath_upTo h hlink (Nat.le_of_lt hk)
  · rw [tryParsePath_eq]
    rfl
  · exact ⟨_, tryParsePath_eq uri path⟩
  · have hthrown : ∃ thrown, uri.decodeComponent part = .error thrown := by
      rcases hbad with hbad | hthrown
      · exact h.decode_badEscape part hbad
      · exact hthrown
    rcases hthrown with ⟨thrown, hthrown⟩
    have hempty : decodeSegment uri part = [] := by rw [decodeSegment, hthrown]
    rw [tryParsePath_eq, linkOf_empty]
    exact List.mem_map.mpr ⟨part, hpart, hempty⟩

/-- Percent-encoded UTF-8 is what links rely on. -/
theorem utf8_inverse : Uri.utf8.Inverse := by
  have hsome {text back : Text} (h : Percent.decode text = some back) :
      Uri.utf8.decodeComponent text = .ok back := by
    unfold Percent.decode at h
    cases hbytes : Percent.unescape text with
    | none => simp [hbytes] at h
    | some bytes =>
        cases hchars : Utf8.fromUtf8 bytes with
        | none => simp [hbytes, hchars] at h
        | some chars => simpa [Uri.utf8, hbytes, hchars] using h
  constructor
  · exact fun text htext => hsome (Percent.decode_encode htext)
  · exact Percent.encode_units
  · exact fun text htext => hsome (Percent.decode_plain htext)
  · rintro text ⟨front, rest, rfl, hpair⟩
    exact ⟨.argumentError, by simp [Uri.utf8, Percent.unescape_badEscape hpair]⟩

namespace Sample

/-- Ids with a slash, a percent sign, and a keyword. -/
def link : DeepLink := toApproval (ofString "a/b") (ofString "100%") (ofString "workflows")

end Sample

/-- An approval whose ids are hard to read back, and what is above it. -/
theorem deep_link_sample :
    tryParsePath Uri.utf8 (Sample.link.path Uri.utf8) = .ok (some Sample.link) ∧
      tryParsePath Uri.utf8 (upTo (Sample.link.path Uri.utf8) 5) =
        .ok (some (toWorkflow (ofString "a/b") (ofString "100%"))) ∧
      tryParsePath Uri.utf8 (ofString "/computers/a%2") = .ok none := by
  have hid (s : String) (hne : ofString s ≠ []) : IsId (ofString s) := ⟨hne, s, rfl⟩
  have haddressed : Sample.link.Addressed :=
    ⟨hid "a/b" (by decide), hid "100%" (by decide), hid "workflows" (by decide)⟩
  have hlaw := deep_link_law Uri.utf8 utf8_inverse
  have hlength : (splitPath (Sample.link.path Uri.utf8)).length = 6 := by decide
  rcases hlaw.1 Sample.link haddressed with ⟨hself, habove⟩
  have hparent := habove 5 (by omega)
  rw [hlength] at hparent
  refine ⟨hself, hparent, hlaw.2.2.2 (ofString "/computers/a%2") (ofString "a%2") ?_ (.inl ?_)⟩
  · decide
  · exact ⟨ofString "a", ofString "2", by decide, by decide⟩

end Calcar.Phone.DeepLink
