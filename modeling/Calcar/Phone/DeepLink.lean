import Calcar.Lib.Percent
import Calcar.Lib.Segments

/-!
# Deep links

`DeepLink` of `app.dart`: its path form and `tryParsePath`.  The codec of `Uri` is a
parameter, `Inverse` what links rely on it for.
-/

namespace Calcar.Phone

open Lib Lib.Utf16

/-- What the core library throws. -/
inductive DartError where
  | argumentError
  | formatException
  | rangeError (index : Nat)
  deriving DecidableEq, Repr

/-- `Uri`, with the component codec. -/
structure Uri where
  encodeComponent : Text → Text
  decodeComponent : Text → Except DartError Text

namespace Uri

/-- Components are percent-encoded, and read back: a text of characters is read back from its
encoding, which is made of percent signs and unreserved characters; ASCII without escapes
stands for itself; and a malformed escape throws.  Dart's `utf8.decode` drops a U+FEFF in front
of a text; that such a text, too, is read back is assumed here. -/
structure Inverse (uri : Uri) : Prop where
  decode_encode : ∀ text, WellFormed text →
    uri.decodeComponent (uri.encodeComponent text) = .ok text
  encode_units : ∀ text, ∀ u ∈ uri.encodeComponent text,
    u = 0x25 ∨ Percent.unreserved u.toNat = true
  decode_plain : ∀ text : Text, (∀ u ∈ text, u.toNat ≤ 127 ∧ u ≠ 0x25) →
    uri.decodeComponent text = .ok text
  decode_badEscape : ∀ text, Percent.BadEscape text →
    ∃ thrown, uri.decodeComponent text = .error thrown

/-- The codec of percent-encoded UTF-8, which keeps a U+FEFF in front of a text. -/
def utf8 : Uri where
  encodeComponent := Percent.encode
  decodeComponent text :=
    match Percent.unescape text with
    | none => .error .argumentError
    | some bytes =>
        match Utf8.fromUtf8 bytes with
        | none => .error .formatException
        | some chars => .ok (ofString (String.ofList chars))

end Uri

/-- `DeepLinkKind`. -/
inductive DeepLinkKind where
  | computer
  | workflow
  | approval
  deriving DecidableEq, Repr

/-- `DeepLink`. -/
structure DeepLink where
  kind : DeepLinkKind
  computerId : Text
  workflowId : Text := []
  approvalId : Text := []
  deriving DecidableEq, Repr

/-- `parts[index]`. -/
def partAt (parts : List Text) (index : Nat) : Except DartError Text :=
  match parts[index]? with
  | some part => .ok part
  | none => .error (.rangeError index)

namespace DeepLink

variable (uri : Uri)

/-- `path`. -/
def path (link : DeepLink) : Text :=
  match link.kind with
  | .computer => ofString "/computers/" ++ uri.encodeComponent link.computerId
  | .workflow =>
      ofString "/computers/" ++ uri.encodeComponent link.computerId ++
        ofString "/workflows/" ++ uri.encodeComponent link.workflowId
  | .approval =>
      ofString "/computers/" ++ uri.encodeComponent link.computerId ++
        ofString "/workflows/" ++ uri.encodeComponent link.workflowId ++
        ofString "/approvals/" ++ uri.encodeComponent link.approvalId

/-- `_decodeSegment`. -/
def decodeSegment (segment : Text) : Text :=
  match uri.decodeComponent segment with
  | .ok text => text
  | .error _ => []

/-- `path.split('/')`, the empty parts left out. -/
def splitPath (path : Text) : List Text :=
  (segments (· == 0x2F) path).filter fun part => part ≠ []

/-- `tryParsePath`. -/
def tryParsePath (path : Text) : Except DartError (Option DeepLink) := do
  let parts := (splitPath path).map (decodeSegment uri)
  if parts.length < 2 ∨ 6 < parts.length then
    return none
  if (← partAt parts 0) ≠ ofString "computers" then
    return none
  if (← partAt parts 1) = [] then
    return none
  let computerId ← partAt parts 1
  if parts.length = 2 then
    return some { kind := .computer, computerId := computerId }
  if (← partAt parts 2) ≠ ofString "workflows" then
    return none
  if parts.length = 3 then
    return some { kind := .computer, computerId := computerId }
  if (← partAt parts 3) = [] then
    return none
  let workflow : DeepLink :=
    { kind := .workflow, computerId := computerId, workflowId := ← partAt parts 3 }
  if parts.length = 4 then
    return some workflow
  if (← partAt parts 4) ≠ ofString "approvals" then
    return none
  if parts.length = 5 then
    return some workflow
  if (← partAt parts 5) = [] then
    return none
  return some {
    kind := .approval
    computerId := computerId
    workflowId := ← partAt parts 3
    approvalId := ← partAt parts 5 }

end DeepLink

end Calcar.Phone
