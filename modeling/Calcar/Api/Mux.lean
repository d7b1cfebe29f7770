import Calcar.Api.Routes
import Calcar.Lib.Percent
import Calcar.Lib.Segments

/-!
# How a request finds its handler

What `net/http` does with a request before a handler of `server.go` sees it: the header
values are checked, and the `ServeMux` of `Server.routes` takes the path apart.  The path
is cut at its slashes first, and the segments are unescaped afterwards.
-/

namespace Calcar.Api

open Lib

/-- The methods the patterns name. -/
inductive Method where
  | get
  | post
  deriving DecidableEq, Repr

/-- The patterns of `Server.routes`, with what stands for `{id}`. -/
inductive Endpoint where
  | healthz
  | readyz
  | bootstrap
  | challenge
  | verify
  | refresh
  | devicesList
  | devicesRegister
  | deviceRevoke (id : String)
  | pushToken (id : String)
  | pairingCreate
  | pairingJoin (id : String)
  | pairingGet (id : String)
  | pairingDecision (id : String)
  | trustGraph
  | heartbeat
  | presenceGet (id : String)
  | attention
  | relayAlloc
  | ws
  deriving DecidableEq, Repr

/-- The pattern that takes these segments. -/
def endpoint : Method → List String → Option Endpoint
  | .get, ["healthz"] => some .healthz
  | .get, ["readyz"] => some .readyz
  | .post, ["v1", "users", "bootstrap"] => some .bootstrap
  | .post, ["v1", "auth", "challenge"] => some .challenge
  | .post, ["v1", "auth", "verify"] => some .verify
  | .post, ["v1", "auth", "refresh"] => some .refresh
  | .get, ["v1", "devices"] => some .devicesList
  | .post, ["v1", "devices"] => some .devicesRegister
  | .post, ["v1", "devices", id, "revoke"] => some (.deviceRevoke id)
  | .post, ["v1", "devices", id, "push-token"] => some (.pushToken id)
  | .post, ["v1", "pairing", "sessions"] => some .pairingCreate
  | .post, ["v1", "pairing", "sessions", id, "join-request"] => some (.pairingJoin id)
  | .get, ["v1", "pairing", "sessions", id] => some (.pairingGet id)
  | .post, ["v1", "pairing", "sessions", id, "decision"] => some (.pairingDecision id)
  | .get, ["v1", "trust", "graph"] => some .trustGraph
  | .post, ["v1", "presence", "heartbeat"] => some .heartbeat
  | .get, ["v1", "computers", id, "presence"] => some (.presenceGet id)
  | .post, ["v1", "notify", "attention"] => some .attention
  | .post, ["v1", "relay", "alloc"] => some .relayAlloc
  | .get, ["v1", "ws"] => some .ws
  | _, _ => none

/-- `cleanPath` would leave the segment out, or the one before it. -/
def unclean (segment : List Char) : Bool :=
  segment == [] || segment == ['.'] || segment == ['.', '.']

/-- `url.PathUnescape`, on a segment of ASCII whose bytes are a text. -/
def pathUnescape (segment : List Char) : Option String :=
  ((Percent.unescape (Utf16.ofString (String.ofList segment))).bind Utf8.fromUtf8).map
    String.ofList

/-- The handler of a path; `none` is a reply of `ServeMux` itself.  A path that is not
clean is redirected. -/
def mux (method : Method) (target : String) : Option Endpoint :=
  match segments (· == '/') (target.toList.takeWhile (· ≠ '?')) with
  | [] :: parts =>
      if parts.any unclean = true then none
      else (parts.mapM pathUnescape).bind (endpoint method)
  | _ => none

/-- `httpguts.ValidHeaderFieldValue`: no control character but the tab. -/
def validHeaderFieldValue (value : String) : Bool :=
  value.toList.all fun c => c == '\t' || (decide (32 ≤ c.toNat) && c.toNat != 127)

/-- A post as it comes in: its target, the two headers the handlers read, and the body. -/
structure Posted (β : Type) where
  target : String
  authorization : String
  requestId : String
  body : β

/-- A posted revoke as its handler sees it; `none` where it is turned down before. -/
def Posted.revocation (post : Posted RevokeReq) : Option Request :=
  if validHeaderFieldValue post.authorization = true ∧
      validHeaderFieldValue post.requestId = true then
    match mux .post post.target with
    | some (.deviceRevoke id) => some {
        authorization := post.authorization
        requestId := post.requestId
        route := .deviceRevoke id (some (.ok post.body)) }
    | _ => none
  else none

end Calcar.Api
