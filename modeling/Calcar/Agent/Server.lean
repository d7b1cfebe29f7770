import Calcar.Agent.Requests

/-!
# The posts of the agent's server

The two POST routes of `calcar-connect`: `handle_approval` and `handle_input`
of `server.rs`, with the checks of `auth.rs` and `exec.rs` that they make.
Requests are served one at a time, and every function here is one program
from the request to the response.
-/

namespace Calcar.Agent

open Lib

/-- What the server reads from the request body: `read_body`, and what
`json::parse` makes of the text. -/
inductive Body where
  | tooLarge
  | unreadable
  | notUtf8
  | text (parsed : Option Value)

/-- Request bodies over this many bytes are refused unread. -/
def maxBodyBytes : Nat := 1024 * 1024

/-- How an object arrives that is so many bytes long. -/
def Body.ofObject (size : Nat) (fields : List (String × Value)) : Body :=
  if maxBodyBytes < size then .tooLarge else .text (some (.obj fields))

/-- A request to one of the two routes, the path taken apart. -/
structure Post where
  headers : List (String × String)
  workflow : String
  body : Body

/-- A response; the body is a JSON value or empty. -/
structure Response where
  status : Nat
  body : Option Value

/-- The configuration these routes read. -/
structure ConnectConfig where
  token : String
  execTimeoutSecs : Nat

/-! ## Responses -/

/-- `json_ok` and `json_status`. -/
def jsonStatus (status : Nat) (body : Value) : Response := ⟨status, some body⟩
def jsonOk (body : Value) : Response := jsonStatus 200 body

/-- `error_body`. -/
def errorBody (status : Nat) (code message : String) : Response :=
  jsonStatus status (.obj [("code", .str code), ("message", .str message)])

/-- The first line of a text, without its line break. -/
def firstLine (s : String) : List Char :=
  let line := s.toList.takeWhile (· ≠ '\n')
  if line.length < s.toList.length ∧ line.getLast? = some '\r' then line.dropLast else line

/-- `short_error`. -/
def shortError (detail : String) : String :=
  if detail = "" then "error" else String.ofList ((firstLine detail).take 160)

/-- The answer to a failure of the store. -/
def internalError (e : StorageError) : Code Response := do
  let text ← describe e
  return errorBody 500 "INTERNAL" (shortError text)

/-- Go on with the value, or answer 500. -/
def orInternal {α : Type} (p : Code (Except StorageError α)) (f : α → Code Response) :
    Code Response := do
  match ← p with
  | .error e => internalError e
  | .ok a => f a

/-! ## What a request carries -/

/-- Header names are compared without regard to ASCII case. -/
def equiv (a b : String) : Bool := a.toList.map Char.toLower = b.toList.map Char.toLower

/-- `strip_prefix("Bearer ")`. -/
def bearerRest (value : String) : Option String :=
  if value.toList.take 7 = "Bearer ".toList then some (String.ofList (value.toList.drop 7))
  else none

/-- `bearer_ok`. -/
def bearerOk (p : Post) (token : String) : Bool :=
  match p.headers.filterMap fun h =>
      if equiv h.1 "Authorization" then bearerRest h.2 else none with
  | [] => false
  | rest :: _ => Text.trimSpace rest = token

/-- `request_id_of`. -/
def requestIdOf (p : Post) : Option String :=
  (p.headers.find? fun h => equiv h.1 "X-Request-ID" && Text.trimSpace h.2 ≠ "").map fun h =>
    Text.trimSpace h.2

/-- `read_body`, then `parse_object`. -/
def bodyObject : Body → Except Response Value
  | .tooLarge => .error (errorBody 413 "PAYLOAD_TOO_LARGE" "body exceeds 1 MiB")
  | .unreadable => .error (errorBody 400 "MALFORMED" "unreadable body")
  | .notUtf8 => .error (errorBody 400 "MALFORMED" "body must be UTF-8")
  | .text (some (.obj fields)) => .ok (.obj fields)
  | .text _ => .error (errorBody 400 "MALFORMED" "body must be a JSON object")

/-- `check_input_id`. -/
def checkInputId (i : String) : Bool :=
  i ≠ "" && i.utf8ByteSize ≤ 128 && i.toList.all fun c => c.isAlphanum || c == '-' || c == '_'

/-- The fields of an approval post and the checks they pass. -/
def approvalFields (p : Post) : Except Response (String × Bool) :=
  match bodyObject p.body with
  | .error r => .error r
  | .ok parsed =>
      match parsed.strField "approval_id", parsed.boolField "allow" with
      | some approvalId, some allow =>
          if approvalId = "" then
            .error (errorBody 400 "MALFORMED" "approval_id must not be empty")
          -- the idempotency key binds to the approval
          else if requestIdOf p ≠ some approvalId then
            .error (errorBody 400 "MALFORMED" "X-Request-ID must equal approval_id")
          else .ok (approvalId, allow)
      | _, _ => .error (errorBody 400 "MALFORMED" "approval_id and allow are required")

/-- The fields of an input post and the checks they pass. -/
def inputFields (p : Post) : Except Response (String × String × Bool) :=
  match bodyObject p.body with
  | .error r => .error r
  | .ok parsed =>
      match parsed.strField "input_id", parsed.strField "body",
          parsed.boolField "destructive" with
      | some inputId, some text, some destructive =>
          if requestIdOf p ≠ some inputId then
            .error (errorBody 400 "MALFORMED" "X-Request-ID must equal input_id")
          else if ¬checkInputId inputId then
            .error (errorBody 400 "MALFORMED" "input_id uses an unsafe alphabet")
          else if text = "" then
            .error (errorBody 400 "MALFORMED" "body must not be empty")
          else .ok (inputId, text, destructive)
      | _, _, _ =>
          .error (errorBody 400 "MALFORMED" "input_id, body, and destructive are required")

/-! ## Approvals -/

/-- What `handle_approval` does after the row is resolved. -/
def approvalResolved (w approvalId payload : String) : Code Response := do
  Prog.perform (Cmd.touchWorkflow w)
  Prog.perform (Cmd.recordApproval ⟨approvalId, w, payload⟩)
  Prog.perform Cmd.saveRegistry
  return jsonOk (.obj [("approval_id", .str approvalId), ("resolution", .str payload)])

/-- The answer to a `resolve_pending_request` that failed. -/
def approvalRefused : StorageError → Code Response
  | .notFound _ => return errorBody 404 "APPROVAL_UNKNOWN" "unknown approval"
  | .alreadyResolved _ => return errorBody 409 "ALREADY_RESOLVED" "approval already resolved"
  | .expired _ => return errorBody 410 "EXPIRED" "approval expired"
  | e => internalError e

/-- `handle_approval`. -/
def handleApproval (p : Post) : Code Response :=
  match approvalFields p with
  | .error r => return r
  | .ok (approvalId, allow) =>
      orInternal openStore fun _ =>
        orInternal (getWorkflow p.workflow) fun row =>
          match row with
          | none => return errorBody 404 "WORKFLOW_UNKNOWN" "unknown workflow"
          | some _ =>
              orInternal openStore fun _ => do
                let payload := if allow then "approved" else "rejected"
                match ← resolvePendingRequest approvalId payload with
                | .ok () => approvalResolved p.workflow approvalId payload
                | .error e => approvalRefused e

/-! ## Inputs -/

/-- The second half of `run_generic`: wait for the child, then take its output
or kill it. -/
def collectChild (timeoutSecs : Nat) : Code (Except ExecError ExecOutcome) := do
  match ← Prog.perform (Cmd.wait timeoutSecs) with
  | .error e => return .error (.spawn e)
  | .ok true =>
      match ← Prog.perform Cmd.join with
      | .error e => return .error (.join e)
      | .ok outcome => return .ok outcome
  | .ok false => do
      Prog.perform Cmd.kill
      return .error .timeout

/-- `run_generic`. -/
def runGeneric (w i text : String) (timeoutSecs : Nat) : Code (Except ExecError ExecOutcome) :=
  if Text.trimSpace text = "" then
    return .error (.spawn "command body must not be empty")
  else do
    match ← Prog.perform (Cmd.spawn w i text) with
    | .error e => return .error (.spawn e)
    | .ok () => collectChild timeoutSecs

/-- The two events behind one run. -/
def startedDraft (w i : String) (session : Option String) (destructive : Bool) (t : Int) :
    EventDraft where
  workflowId := w
  eventId := "input-" ++ i ++ "-started"
  providerSessionId := session
  occurredAtMillis := t
  eventType := .commandStarted
  summary := "input " ++ i ++ " applied" ++ if destructive then " (destructive)" else ""
  detailPointer := none

def completedDraft (w i : String) (session : Option String) (outcome : ExecOutcome)
    (destructive : Bool) (tailPath : String) (tailCut : Bool) (t : Int) : EventDraft where
  workflowId := w
  eventId := "input-" ++ i ++ "-completed"
  providerSessionId := session
  occurredAtMillis := t
  eventType := .commandCompleted
  summary := "input " ++ i ++ " completed with exit code " ++ toString outcome.exitCode ++
    (if destructive then " (destructive)" else "") ++ if tailCut then " (truncated)" else ""
  detailPointer := some tailPath

/-- `record_run`. -/
def recordRun (w i : String) (session : Option String) (outcome : ExecOutcome)
    (destructive : Bool) : Code (Except String Bool) := do
  match ← Prog.perform (Cmd.writeTail w i outcome) with
  | .error e => return .error (shortError e)
  | .ok (tailPath, tailCut) => do
      let startedAt ← now
      let completedAt ← now
      match ← appendEvent (startedDraft w i session destructive startedAt) with
      | .error e => do
          let text ← describe e
          return .error (shortError text)
      | .ok _ =>
          match ← appendEvent
              (completedDraft w i session outcome destructive tailPath tailCut completedAt) with
          | .error e => do
              let text ← describe e
              return .error (shortError text)
          | .ok _ => return .ok tailCut

/-- What `handle_input` does once the command has run. -/
def recordInput (w i : String) (destructive : Bool) (session : Option String)
    (outcome : ExecOutcome) : Code Response :=
  orInternal openStore fun _ => do
    match ← recordRun w i session outcome destructive with
    | .error message => return errorBody 500 "EXEC_RECORD_FAILED" message
    | .ok truncated => do
        Prog.perform (Cmd.touchWorkflow w)
        Prog.perform Cmd.saveRegistry
        return jsonOk (.obj [("input_id", .str i), ("outcome", .str "delivered"),
          ("exit_code", .int outcome.exitCode), ("truncated", .bool truncated)])

/-- What `handle_input` does once the input is delivered. -/
def executeInput (cfg : ConnectConfig) (w i text : String) (destructive : Bool)
    (session : Option String) : Code Response := do
  match ← runGeneric w i text cfg.execTimeoutSecs with
  | .error .timeout => return errorBody 504 "EXEC_TIMEOUT" "command timed out and was killed"
  | .error e => return errorBody 500 "INTERNAL" (shortError e.text)
  | .ok outcome => recordInput w i destructive session outcome

/-- The answer to a repeated input. -/
def duplicateInput (w i : String) : Code Response := do
  Prog.perform (Cmd.touchWorkflow w)
  Prog.perform Cmd.saveRegistry
  return jsonOk (.obj [("input_id", .str i), ("outcome", .str "duplicate")])

/-- The generic path: through the router, then the run. -/
def routeInput (cfg : ConnectConfig) (w i text : String) (destructive : Bool)
    (session : Option String) : Code Response :=
  orInternal openStore fun _ => do
    match ← deliver w i with
    | .error (.notFound _) => return errorBody 404 "WORKFLOW_UNKNOWN" "unknown workflow"
    | .error (.invalidState _) =>
        return errorBody 400 "MALFORMED" "invalid workflow or input id"
    | .error e => internalError e
    | .ok .duplicate => duplicateInput w i
    | .ok .delivered => executeInput cfg w i text destructive session

/-- The answer to an input for an interactive provider. -/
def interactiveInput (w : String) : Code Response :=
  orInternal openStore fun _ => do
    let found ← getSessionBinding w
    let bound := match found with
      | .ok (some _) => true
      | _ => false
    return jsonStatus 501 (.obj [("code", .str "CONPTY_UNAVAILABLE"),
      ("message", .str "interactive input needs ConPTY, which is not green"),
      ("workflow_id", .str w), ("has_binding", .bool bound)])

/-- `handle_input`. -/
def handleInput (cfg : ConnectConfig) (p : Post) : Code Response :=
  match inputFields p with
  | .error r => return r
  | .ok (inputId, text, destructive) =>
      orInternal openStore fun _ =>
        orInternal (getWorkflow p.workflow) fun row =>
          match row with
          | none => return errorBody 404 "WORKFLOW_UNKNOWN" "unknown workflow"
          | some row =>
              -- before the router: a 501 leaves the input id unused
              if Provider.fromI32 row.provider ≠ some .generic then
                interactiveInput p.workflow
              else
                routeInput cfg p.workflow inputId text destructive row.providerSessionId

/-- `reply` on the two routes. -/
def reply (cfg : ConnectConfig) (p : Post) (handle : Post → Code Response) : Code Response :=
  if bearerOk p cfg.token then handle p else return ⟨401, none⟩

def replyInput (cfg : ConnectConfig) (p : Post) : Code Response := reply cfg p (handleInput cfg)
def replyApproval (cfg : ConnectConfig) (p : Post) : Code Response := reply cfg p handleApproval

end Calcar.Agent
