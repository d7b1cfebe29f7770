import Calcar.Agent.Adapters
import Calcar.Agent.Snapshot
import Calcar.Lib.Segments
import Calcar.Lib.Walk
import Calcar.Trust

/-!
# The routes of the agent's server

How `reply` of `server.rs` takes the target of a request apart: the path in front of
the query, its segments, and the route they select.  Segments are split at the slashes
first and percent-decoded afterwards.  Of the routes the three that work on a workflow
are carried on here; what `reply` does on the others is a parameter.
-/

namespace Calcar.Agent

open Lib

/-- `split_path`: the path, and the query behind the first question mark. -/
def splitPath (url : String) : String × String :=
  (String.ofList (url.toList.takeWhile (· ≠ '?')),
    String.ofList ((url.toList.dropWhile (· ≠ '?')).drop 1))

/-- `hex_val`. -/
def hexVal (byte : UInt8) : Option UInt8 :=
  if 0x30 ≤ byte ∧ byte ≤ 0x39 then some (byte - 0x30)
  else if 0x61 ≤ byte ∧ byte ≤ 0x66 then some (byte - 0x61 + 10)
  else if 0x41 ≤ byte ∧ byte ≤ 0x46 then some (byte - 0x41 + 10)
  else none

/-- The loop of `percent_decode`; what is no escape stays as it is. -/
def decodeEscapes : Bytes → Bytes
  | [] => []
  | 0x25 :: hi :: lo :: rest =>
      match hexVal hi, hexVal lo with
      | some h, some l => (h <<< 4 ||| l) :: decodeEscapes rest
      | _, _ => 0x25 :: decodeEscapes (hi :: lo :: rest)
  | byte :: rest => byte :: decodeEscapes rest

/-- `percent_decode`. -/
def percentDecode (part : String) : String := fromUtf8Lossy (decodeEscapes (Trust.utf8 part))

/-- A round of the loop of `percent_decode` over positions, with what it has put out. -/
def percentRound (out : Bytes) : Walk (Bytes ⊕ Bytes) := do
  let index ← Walk.position
  if index < (← Walk.length) then
    let triple ← Walk.get (index + 1) (index + 3)
    let byte ← Walk.index
    let plain : Walk (Bytes ⊕ Bytes) := do
      Walk.advance 1
      pure (.inl (out ++ [byte]))
    if byte = 0x25 then
      match triple with
      | none => plain
      | some [hi, lo] =>
          match hexVal hi, hexVal lo with
          | some h, some l => do
              Walk.advance 3
              pure (.inl (out ++ [h <<< 4 ||| l]))
          | _, _ => plain
      | some _ => Walk.outOfRange
    else plain
  else pure (.inr out)

/-- The loop of `percent_decode` as it walks over the bytes of the part. -/
def percentWalk (spare : Nat) : Walk Bytes := Walk.loop spare percentRound []

/-- What a path is split at. -/
def isSlash (c : Char) : Bool := c == '/'

/-- `path_segments`: empty parts are dropped. -/
def pathSegments (path : String) : List String :=
  ((segments isSlash path.toList).filter fun part => !part.isEmpty).map fun part =>
    percentDecode (String.ofList part)

inductive Method where
  | get
  | post
  | other
  deriving DecidableEq, Repr

/-- What `reply` calls, with the ids it hands on. -/
inductive Route where
  | devices (query : String)
  | computer (id : String)
  | sysinfo (id : String)
  | workflowSnapshot (computer workflow : String)
  | approval (workflow : String)
  | input (workflow : String)
  | notFound
  deriving DecidableEq, Repr

/-- The routes of `reply`, for a request with the right token. -/
def route (method : Method) (url : String) : Route :=
  match method, pathSegments (splitPath url).1 with
  | .get, ["v1", "agent", "devices"] => .devices (splitPath url).2
  | .get, ["v1", "agent", "computers", id] => .computer id
  | .get, ["v1", "agent", "computers", id, "sysinfo"] => .sysinfo id
  | .get, ["v1", "agent", "computers", computer, "workflows", workflow] =>
      .workflowSnapshot computer workflow
  | .post, ["v1", "agent", "workflows", workflow, "approvals"] => .approval workflow
  | .post, ["v1", "agent", "workflows", workflow, "inputs"] => .input workflow
  | _, _ => .notFound

/-- A post is served by one of two routes or not at all. -/
theorem route_post (url : String) : (∃ w, route .post url = .approval w) ∨
    (∃ w, route .post url = .input w) ∨ route .post url = .notFound := by
  unfold route
  split <;> simp_all

/-! ## Requests -/

/-- A request as the server takes it. -/
structure HttpRequest where
  method : Method
  target : String
  headers : List (String × String)
  body : Body

/-- `reply`, with the programs of the other routes. -/
def replyRequest (cfg : ConnectConfig) (computerId : String) (others : Route → Code Response)
    (q : HttpRequest) : Code Response :=
  match route q.method q.target with
  | .workflowSnapshot computer workflow =>
      replySnapshot cfg computerId ⟨q.headers, computer, workflow⟩
  | .approval workflow => replyApproval cfg ⟨q.headers, workflow, q.body⟩
  | .input workflow => replyInput cfg ⟨q.headers, workflow, q.body⟩
  | .notFound =>
      reply cfg ⟨q.headers, "", q.body⟩ fun _ =>
        return errorBody 404 "NOT_FOUND" "unknown route"
  | r => reply cfg ⟨q.headers, "", q.body⟩ fun _ => others r

end Calcar.Agent
