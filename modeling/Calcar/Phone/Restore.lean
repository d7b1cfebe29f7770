import Calcar.Lib.Conc
import Calcar.Phone.OwnerSetup

/-!
# Session restore

`_restoreSession` of `main.dart` as a program over the secure store and the two
calls it makes, and the runs of any number of app starts.  Only the start that
began last goes on; a start that is killed, at whatever point, never does.

Of the server its tokens for this phone are kept.  It takes a token that is
alive and rejects one that is not; on top of that every call may fail before it
reaches the server, or lose its answer.
-/

namespace Calcar.Phone.Restore

open Lib

/-- `CalcarStart`. -/
inductive CalcarStart where
  | computers
  | firstRun
  | returning
  deriving DecidableEq, Repr

/-- What a start waits for. -/
inductive Cmd where
  | begin
  | read (key : String)
  | write (key value : String)
  | delete (key : String)
  | listDevices (token : String)
  | refresh (deviceId refreshToken : String)

/-- The answers; an error is whatever the call threw. -/
abbrev Cmd.Ans : Cmd → Type
  | .begin => Unit
  | .read _ => Except Unit (Option String)
  | .write _ _ | .delete _ => Except Unit Unit
  | .listDevices _ => Except Unit Unit
  | .refresh _ _ => Except Unit TokenResponse

abbrev Code (α : Type) : Type := Prog Cmd Cmd.Ans α

def call (c : Cmd) : Code c.Ans := Prog.perform c

/-- Code that may throw. -/
abbrev App (α : Type) : Type := ExceptT Unit (Prog Cmd Cmd.Ans) α

/-- `SecureSeedStore`. -/
def secureStore : SeedStore (ExceptT Unit (Prog Cmd Cmd.Ans)) where
  read key := ExceptT.mk (call (.read key))
  write key value := ExceptT.mk (call (.write key value))
  delete key := ExceptT.mk (call (.delete key))

/-- `listDevices`, of which it only matters whether it throws. -/
def listDevices (api : Client) : App Unit :=
  ExceptT.mk (call (.listDevices (api.token.getD "")))

/-- `refresh`. -/
def refresh (api : Client) (deviceId : String) : App Client := do
  if api.refreshToken = "" then
    throw ()
  else
    let resp ← ExceptT.mk (call (.refresh deviceId api.refreshToken))
    return api.withTokens resp

/-- The client with the stored session. -/
def clientOf (saved : OwnerSession) : Client where
  token := some saved.token
  refreshToken := saved.refreshToken
  deviceId := saved.deviceId
  userId := saved.userId

/-- The inner `try` of `_restoreSession`: one rotation attempt. -/
def rotateSession (saved : OwnerSession) : App (CalcarStart × Client) := do
  let api ← refresh (clientOf saved) saved.deviceId
  listDevices api
  SessionStore.save secureStore {
    deviceId := saved.deviceId
    userId := saved.userId
    token := api.token.getD ""
    refreshToken := api.refreshToken }
  return (.returning, api)

/-- `_restoreSession`; the client that it leaves is returned beside the start. -/
def restoreSession : App (CalcarStart × Client) := do
  let saved ← SessionStore.load secureStore
  match saved with
  | none => return (.firstRun, {})
  | some saved =>
      tryCatch
        (do
          listDevices (clientOf saved)
          return (.returning, clientOf saved))
        fun _ => tryCatch (rotateSession saved) fun _ => do
          SessionStore.clear secureStore
          return (.firstRun, {})

/-- A start of the app. -/
def main : Code (Except Unit (CalcarStart × Client)) := do
  call .begin
  restoreSession.run

/-- The secure store, and what the server holds for this phone. -/
structure Install where
  stored : String → Option String
  /-- The access tokens that are alive. -/
  access : List String
  /-- The refresh tokens that are alive, with the device each was issued to. -/
  refresh : List (String × String)
  /-- The refresh token that was minted last. -/
  newest : String × String
  /-- The tokens the server has rejected. -/
  rejectedAccess : List String := []
  rejectedRefresh : List (String × String) := []
  /-- The start that goes on, and the pair it was answered by `refresh`. -/
  current : Option Nat := none
  rotated : Option TokenResponse := none

namespace Install

/-- The stored refresh token, as `refresh` presents it. -/
def credential (w : Install) : String × String :=
  ((w.stored SessionStore.deviceKey).getD "", (w.stored SessionStore.refreshKey).getD "")

def token (w : Install) : String := (w.stored SessionStore.tokenKey).getD ""

/-- A session is stored: what `load` does not clear. -/
def HasSession (w : Install) : Prop :=
  (w.stored SessionStore.deviceKey).getD "" ≠ "" ∧ (w.stored SessionStore.userKey).getD "" ≠ "" ∧
    w.token ≠ ""

instance (w : Install) : Decidable w.HasSession := inferInstanceAs (Decidable (_ ∧ _ ∧ _))

def setStored (w : Install) (key : String) (value : Option String) : Install :=
  { w with stored := Function.update w.stored key value }

/-- `handleRefresh` for a live token: it is used up, and a pair is minted. -/
def rotate (w : Install) (deviceId refreshToken : String) (pair : TokenResponse) : Install :=
  { w with
    access := if pair.accessToken = "" then w.access else pair.accessToken :: w.access
    refresh :=
      let rest := w.refresh.filter fun c => c ≠ (deviceId, refreshToken)
      if pair.refreshToken = "" then rest else (deviceId, pair.refreshToken) :: rest
    newest := (deviceId, pair.refreshToken) }

end Install

/-- What becomes of a call: it is carried out, or throws before it does anything,
or throws although it was carried out.  A refresh that is carried out takes the
pair that is minted from here. -/
inductive Oracle where
  | fine (minted : TokenResponse := ⟨"", ""⟩)
  | fails
  | lost (minted : TokenResponse := ⟨"", ""⟩)
  deriving DecidableEq, Repr

namespace Oracle

def reaches : Oracle → Bool
  | .fails => false
  | _ => true

def answers : Oracle → Bool
  | .fine _ => true
  | _ => false

def minted : Oracle → TokenResponse
  | .fine pair | .lost pair => pair
  | .fails => ⟨"", ""⟩

/-- The answer, where the call got through. -/
def answer {α : Type} (o : Oracle) (a : Except Unit α) : Except Unit α :=
  if o.answers = true then a else .error ()

end Oracle

/-- One call of start `i`.  A token is not minted again once it was rejected. -/
def exec (i : Nat) (cmd : Cmd) (o : Oracle) (w : Install) : Option (Install × cmd.Ans) :=
  match cmd with
  | .begin => some ({ w with current := some i, rotated := none }, ())
  | .read key =>
      if w.current = some i then some (w, o.answer (.ok (w.stored key))) else none
  | .write key value =>
      if w.current = some i then
        some (if o.reaches = true then w.setStored key (some value) else w, o.answer (.ok ()))
      else none
  | .delete key =>
      if w.current = some i then
        some (if o.reaches = true then w.setStored key none else w, o.answer (.ok ()))
      else none
  | .listDevices token =>
      if w.current = some i then
        if o.reaches = true ∧ token ∉ w.access then
          some ({ w with rejectedAccess := token :: w.rejectedAccess }, .error ())
        else some (w, o.answer (.ok ()))
      else none
  | .refresh deviceId refreshToken =>
      if w.current = some i then
        if o.reaches = false then some (w, .error ())
        else if (deviceId, refreshToken) ∉ w.refresh then
          some ({ w with rejectedRefresh := (deviceId, refreshToken) :: w.rejectedRefresh },
            .error ())
        else if o.minted.accessToken ∈ w.rejectedAccess ∨
            (deviceId, o.minted.refreshToken) ∈ w.rejectedRefresh then none
        else
          some ({ w.rotate deviceId refreshToken o.minted with
            rotated := if o.answers = true then some o.minted else w.rotated },
            o.answer (.ok o.minted))
      else none

/-- What happens beside the starts. -/
inductive Env where
  | kill
  | expireAccess (token : String)
  | expireRefresh (credential : String × String)
  | revoke
  deriving DecidableEq, Repr

def env : Env → Install → Option Install
  | .kill, w => some { w with current := none }
  | .expireAccess token, w => some { w with access := w.access.filter (· ≠ token) }
  | .expireRefresh credential, w =>
      some { w with refresh := w.refresh.filter (· ≠ credential) }
  | .revoke, w => some { w with access := [], refresh := [] }

/-- App starts over one phone. -/
abbrev starts : System Unit Install Oracle Env Cmd Cmd.Ans
    (Except Unit (CalcarStart × Client)) where
  code _ := main
  exec := exec
  env := env

/-- The phone as a login left it: the session is stored and its tokens are alive. -/
def signedIn (session : OwnerSession) (other : String → Option String) : Install where
  stored key :=
    if key = SessionStore.deviceKey then some session.deviceId
    else if key = SessionStore.userKey then some session.userId
    else if key = SessionStore.tokenKey then some session.token
    else if key = SessionStore.refreshKey then some session.refreshToken
    else other key
  access := [session.token]
  refresh :=
    if session.refreshToken = "" then [] else [(session.deviceId, session.refreshToken)]
  newest := (session.deviceId, session.refreshToken)

end Calcar.Phone.Restore
