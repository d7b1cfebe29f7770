import Calcar.Phone.Devices

/-!
# What the phone keeps

`SessionStore`, `OwnerKeyService` and `CalcarApiClient`, as far as setup and
restore use them.  The secure store is a seam, as in `owner_keys.dart`; what a
call to it does when it fails is up to whoever provides it.
-/

namespace Calcar.Phone

/-- `SeedStore`. -/
structure SeedStore (m : Type → Type) where
  read : String → m (Option String)
  write : String → String → m Unit
  delete : String → m Unit

/-- `OwnerSession`. -/
structure OwnerSession where
  deviceId : String
  userId : String
  token : String
  refreshToken : String := ""
  deriving DecidableEq, Repr

/-- `OwnerKeyService.seedKey`. -/
def seedKey : String := "calcar_owner_seed"

namespace SessionStore

def deviceKey : String := "calcar_session_device"
def userKey : String := "calcar_session_user"
def tokenKey : String := "calcar_session_token"
def refreshKey : String := "calcar_session_refresh"

variable {m : Type → Type} [Monad m] (store : SeedStore m)

/-- `save`. -/
def save (session : OwnerSession) : m Unit := do
  store.write deviceKey session.deviceId
  store.write userKey session.userId
  store.write tokenKey session.token
  store.write refreshKey session.refreshToken

/-- `clear`. -/
def clear : m Unit := do
  store.delete deviceKey
  store.delete userKey
  store.delete tokenKey
  store.delete refreshKey

/-- `load`: a partial record loads as nothing and clears itself. -/
def load : m (Option OwnerSession) := do
  let deviceId ← store.read deviceKey
  let userId ← store.read userKey
  let token ← store.read tokenKey
  if deviceId.getD "" = "" ∨ userId.getD "" = "" ∨ token.getD "" = "" then
    clear store
    return none
  else
    let refreshToken ← store.read refreshKey
    return some {
      deviceId := deviceId.getD ""
      userId := userId.getD ""
      token := token.getD ""
      refreshToken := refreshToken.getD "" }

end SessionStore

/-- The fields of `CalcarApiClient` that change. -/
structure Client where
  token : Option String := none
  refreshToken : String := ""
  userId : String := ""
  deviceId : String := ""
  deriving DecidableEq, Repr

/-- A decoded JSON object: the text of each field that is not null. -/
abbrev JsonFields : Type := String → Option String

/-- `TokenResponse.fromJson`, of the fields that are used. -/
structure TokenResponse where
  accessToken : String
  refreshToken : String
  deriving DecidableEq, Repr

def TokenResponse.fromJson (json : JsonFields) : TokenResponse where
  accessToken := (json "access_token").getD ""
  refreshToken := (json "refresh_token").getD ""

/-- What `verify` and `refresh` store of the tokens they are answered. -/
def Client.withTokens (client : Client) (resp : TokenResponse) : Client :=
  { client with token := some resp.accessToken, refreshToken := resp.refreshToken }

end Calcar.Phone
