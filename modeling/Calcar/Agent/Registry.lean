import Calcar.Agent.Catalog
import Calcar.Agent.Json
import Calcar.Text

/-!
# The registry file

`Registry::load` and `Registry::save` of `catalog.rs`, with the JSON of
`json.rs`.  The set of workflow ids is a list here, and its order that of
`BTreeSet` when it is written.
-/

namespace Calcar.Agent

namespace Json

variable {F : Type}

/-- `str_field`. -/
def Value.strField (v : Value F) (key : String) : Option String :=
  match v with
  | .obj map =>
      match (map.find? fun entry => entry.1 = key).map Prod.snd with
      | some (.str text) => some text
      | _ => none
  | _ => none

/-- The array under a key of an object. -/
def Value.arrField (v : Value F) (key : String) : List (Value F) :=
  match v with
  | .obj map =>
      match (map.find? fun entry => entry.1 = key).map Prod.snd with
      | some (.arr items) => items
      | _ => []
  | _ => []

/-- `json::obj`. -/
def obj (pairs : List (String × Value F)) : Value F :=
  .obj (pairs.foldl (fun map pair => insert pair.1 pair.2 map) [])

end Json

namespace Registry

variable {F : Type}

/-- One id of the file; `touch_workflow` leaves out an empty one just the same. -/
def readWorkflow (r : Registry) : Json.Value F → Registry
  | .str text => r.touchWorkflow text
  | _ => r

/-- One approval of the file. -/
def readApproval (r : Registry) (row : Json.Value F) : Registry :=
  let approvalId := (row.strField "approval_id").getD ""
  let workflowId := (row.strField "workflow_id").getD ""
  let resolution := (row.strField "resolution").getD ""
  if approvalId ≠ "" ∧ workflowId ≠ "" then
    { r with
      approvals := r.approvals ++
        [⟨approvalId, workflowId, if resolution = "" then "approved" else resolution⟩] }
  else r

/-- `from_value`. -/
def fromValue (value : Json.Value F) : Registry :=
  (value.arrField "approvals").foldl readApproval
    ((value.arrField "workflows").foldl readWorkflow {})

/-- `load`, with what the file reads as, if it can be read. -/
def load (f : Json.F64 F) (file : Option String) : Registry :=
  if Text.trimSpace (file.getD "") = "" then {}
  else fromValue ((Json.parse f (file.getD "")).getD .null)

/-- The ids in the order of the set. -/
def orderedWorkflows (r : Registry) : List String := r.workflows.mergeSort fun a b => a ≤ b

/-- The entry of one approval. -/
def approvalEntry (row : ResolvedApproval) : Json.Value F :=
  Json.obj [("approval_id", .str row.approvalId), ("workflow_id", .str row.workflowId),
    ("resolution", .str row.resolution)]

def toValue (r : Registry) : Json.Value F :=
  Json.obj [("workflows", .arr (r.orderedWorkflows.map .str)),
    ("approvals", .arr (r.approvals.map approvalEntry))]

/-- The text that `save` writes. -/
def text (f : Json.F64 F) (r : Registry) : String := Json.render f r.toValue

end Registry

end Calcar.Agent
