import Calcar.Trust

/-!
# The approval registry

`ApprovalRegistry` of `backend/trust/trust.go`.  A message carries a decision as
an open enumeration: a number the schema does not name decodes to itself.
-/

namespace Calcar.Trust

/-- `calcarv1.ApprovalDecision`. -/
inductive ApprovalDecision where
  | unspecified
  | allow
  | reject
  | unnamed (n : Int)
  deriving DecidableEq, Repr

/-- `calcarv1.ApprovalState`. -/
inductive ApprovalState where
  | unspecified
  | pending
  | approved
  | rejected
  | expired
  | superseded
  deriving DecidableEq, Repr

/-- `ApprovalRegistry`. -/
structure ApprovalRegistry where
  states : String → Option ApprovalState
  expires : String → Option Int

/-- `NewApprovalRegistry`. -/
def newApprovalRegistry : ApprovalRegistry := ⟨fun _ => none, fun _ => none⟩

namespace ApprovalRegistry

/-- `r.states[id] = s`. -/
def setState (r : ApprovalRegistry) (id : String) (s : ApprovalState) : ApprovalRegistry :=
  { r with states := fun id' => if id' = id then some s else r.states id' }

/-- `r.expires[id] = t`. -/
def setExpires (r : ApprovalRegistry) (id : String) (t : Int) : ApprovalRegistry :=
  { r with expires := fun id' => if id' = id then some t else r.expires id' }

/-- `Create`. -/
def create (r : ApprovalRegistry) (approvalId : String) (expiresAtMillis : Int) :
    Except TrustError Unit × ApprovalRegistry :=
  if approvalId = "" then (.error ⟨.invalidInput, "approval id required"⟩, r)
  else
    match r.states approvalId with
    | some _ => (.error ⟨.replayedId, "duplicate approval id"⟩, r)
    | none => (.ok (), (r.setState approvalId .pending).setExpires approvalId expiresAtMillis)

/-- `Resolve`. -/
def resolve (r : ApprovalRegistry) (approvalId : String) (decision : ApprovalDecision)
    (nowMillis : Int) : Except TrustError Unit × ApprovalRegistry :=
  match r.states approvalId with
  | none => (.error ⟨.unknownApproval, "unknown approval"⟩, r)
  | some state =>
      if state ≠ .pending then (.error ⟨.approvalResolved, "approval already resolved"⟩, r)
      else if (r.expires approvalId).getD 0 ≤ nowMillis then
        (.error ⟨.approvalExpired, "approval expired"⟩, r.setState approvalId .expired)
      else
        match decision with
        | .allow => (.ok (), r.setState approvalId .approved)
        | .reject => (.ok (), r.setState approvalId .rejected)
        | _ => (.error ⟨.invalidInput, "decision must be ALLOW or REJECT"⟩, r)

/-- `State`. -/
def state (r : ApprovalRegistry) (approvalId : String) : Option ApprovalState :=
  r.states approvalId

end ApprovalRegistry

end Calcar.Trust
