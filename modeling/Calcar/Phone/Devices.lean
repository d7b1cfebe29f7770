import Calcar.Api.Mux
import Calcar.Phone.AgentUrl

/-!
# The phone's device screen

`wired_devices.dart`: the revoke the Owner asks for on a device row, down to
the post `CalcarApiClient.revokeDevice` sends for it.
-/

namespace Calcar.Phone

open Lib

/-- `CalcarApiClient._headers`: the `Authorization` of the token the client holds. -/
def authorizationOf (token : Option String) : String :=
  match token with
  | none => ""
  | some t => if t = "" then "" else "Bearer " ++ t

/-- `buildRevokeBody`. -/
def buildRevokeBody (reason : String) : Api.RevokeReq := { reason := reason }

/-- `Uri.encodeComponent`. -/
def encodeComponent (component : String) : String :=
  String.ofList (Percent.chars (Percent.encode (Utf16.ofString component)))

/-- `CalcarApiClient.revokeDevice`; `none` where a header throws. -/
def revokeDevice (token : Option String) (deviceId requestId reason : String) :
    Option (Api.Posted Api.RevokeReq) :=
  if isHeaderValue (authorizationOf token) = true ∧ isHeaderValue requestId = true then
    some {
      target := Uri.target ("/v1/devices/" ++ encodeComponent deviceId ++ "/revoke")
      authorization := authorizationOf token
      requestId := requestId
      body := buildRevokeBody reason }
  else none

/-- `revokeIdempotencyKey`: stable for a device. -/
def revokeIdempotencyKey (deviceId : String) : String := "revoke-" ++ deviceId

/-- The post of `_revoke`, which gives no reason. -/
def revoke (token : Option String) (deviceId : String) : Option (Api.Posted Api.RevokeReq) :=
  revokeDevice token deviceId (revokeIdempotencyKey deviceId) ""

end Calcar.Phone
