import Calcar.Lib.Events

/-!
# The update controller

`UpdateController` with the operations that are under way and the files they
stage.  An operation is answered at each of its `await`s by an event of its own.
`downloadApk` writes one file and sweeps others; which ones, and whether a file
that is to be deleted goes, is up to the run.  Beside the controller the record
numbers the operations and keeps who wrote the status last, which installs are
over and what release the staged file was downloaded for.
-/

namespace Calcar.Phone.Update

/-- The contents of a file. -/
abbrev Contents := List UInt8

/-! ## Releases -/

/-- `UpdateRelease`. -/
structure UpdateRelease where
  versionCode : Int
  versionName : String
  apkUrl : String
  sha256 : String
  deriving DecidableEq, Repr

/-- `UpdateManifest`. -/
structure UpdateManifest where
  latest : UpdateRelease
  previous : Option UpdateRelease := none
  deriving DecidableEq, Repr

/-- `updateAvailable`. -/
def UpdateManifest.updateAvailable (m : UpdateManifest) (installedCode : Int) : Bool :=
  decide (installedCode < m.latest.versionCode)

/-! ## Files -/

/-- The staged files by path. -/
abbrev Files := List (String × Contents)

namespace Files

def read (files : Files) (path : String) : Option Contents :=
  (files.find? fun entry => entry.1 = path).map Prod.snd

def remove (files : Files) (path : String) : Files :=
  files.filter fun entry => entry.1 ≠ path

def write (files : Files) (path : String) (contents : Contents) : Files :=
  (path, contents) :: files.remove path

end Files

/-! ## State -/

/-- `UpdateStatus`. -/
inductive UpdateStatus where
  | idle
  | checking
  | upToDate
  | updateAvailable
  | downloading
  | readyToInstall
  | waitingInstaller
  | error
  deriving DecidableEq, Repr

/-- `UpdateState`.  The progress is kept as the bytes received and their total. -/
structure UpdateState where
  status : UpdateStatus := .idle
  currentCode : Option Int := none
  latest : Option UpdateRelease := none
  previous : Option UpdateRelease := none
  apkPath : String := ""
  targetCode : Option Int := none
  error : String := ""
  progress : Option (Nat × Nat) := none
  deriving DecidableEq, Repr

/-- `busy`. -/
def UpdateState.busy (s : UpdateState) : Bool :=
  s.status = .checking ∨ s.status = .downloading

/-- The state a check or a download starts with. -/
def UpdateState.begun (s : UpdateState) (status : UpdateStatus) : UpdateState := { s with
  status := status
  error := ""
  targetCode := none
  apkPath := ""
  progress := none }

/-- The state of an operation that failed. -/
def UpdateState.failed (s : UpdateState) (error : String) : UpdateState :=
  { s with status := .error, error := error }

/-- What an operation waits for. -/
inductive Stage where
  | manifest
  | code (manifest : UpdateManifest)
  | fetch (target : UpdateRelease)
  | staged (target : UpdateRelease) (path : String)
  | verify (target : UpdateRelease) (path : String)
  | install (path : String) (release : Option UpdateRelease)
  deriving DecidableEq, Repr

/-- An operation that is under way. -/
structure Op where
  id : Nat
  stage : Stage
  deriving DecidableEq, Repr

/-- `UpdateController`. -/
structure Controller where
  state : UpdateState := {}
  gone : Bool := false
  files : Files := []
  ops : List Op := []
  /-- The operations started so far; each has its number. -/
  started : Nat := 0
  /-- The number of the operation that wrote the status last. -/
  owner : Nat := 0
  /-- The installs that are over. -/
  ended : List Nat := []
  /-- The release the staged file was downloaded for. -/
  stagedFor : Option UpdateRelease := none
  deriving DecidableEq, Repr

/-- `ApkInstallResult`. -/
structure ApkInstallResult where
  opened : Bool
  detail : String
  deriving DecidableEq, Repr

/-- What happens to a controller: its calls, and what the `await` of an operation
is answered.  `deleted` says whether a file that is to be deleted goes, `swept`
are the files `downloadApk` deletes. -/
inductive Event where
  | checkForUpdates (deleted : Bool)
  | download (latest deleted : Bool)
  | installStaged
  | manifest (i : Nat) (answer : Except String UpdateManifest)
  | code (i : Nat) (answer : Except String Int)
  | progress (i received total : Nat)
  | written (i : Nat) (path : String) (body : Contents) (swept : List String)
  | fetched (i : Nat) (thrown : Option String)
  | verified (i : Nat) (readError : String) (deleted : Bool)
  | installed (i : Nat) (result : ApkInstallResult)
  | dispose

namespace Controller

section Calls

variable (c : Controller)

/-- `_emit`, of a status. -/
def emit (id : Nat) (next : UpdateState) : Controller :=
  if c.gone = true then c else { c with state := next, owner := id }

/-- The deletion of a file, if it goes. -/
def delete (path : String) (deleted : Bool) : Controller :=
  if deleted = true then { c with files := c.files.remove path } else c

/-- `_dropStaged`. -/
def dropStaged (deleted : Bool) : Controller :=
  if c.state.apkPath = "" then c else c.delete c.state.apkPath deleted

/-- The next operation. -/
def begin : Controller := { c with started := c.started + 1 }

/-- The operation waits for its first answer. -/
def waits (stage : Stage) : Controller := { c with ops := c.ops ++ [⟨c.started, stage⟩] }

/-- The operation is over. -/
def finish (i : Nat) : Controller := { c with ops := c.ops.eraseIdx i }

/-- The operation waits for its next answer. -/
def goesOn (i : Nat) (op : Op) (stage : Stage) : Controller :=
  { c with ops := c.ops.set i { op with stage := stage } }

/-- `checkForUpdates`, up to the manifest. -/
def checkForUpdates (deleted : Bool) : Controller :=
  if c.state.busy = true then c
  else
    let c := (c.dropStaged deleted).begin
    (c.emit c.started (c.state.begun .checking)).waits .manifest

/-- `_downloadTarget`, up to the download. -/
def download (latest deleted : Bool) : Controller :=
  if c.state.busy = true then c
  else
    match if latest then c.state.latest else c.state.previous with
    | none =>
        c.begin.emit c.begin.started (c.state.failed
          (if latest then "Check for updates first." else "No previous release available."))
    | some target =>
        if latest = false ∧ (c.state.currentCode.any fun current =>
            decide (current ≤ target.versionCode)) = true then
          c.begin.emit c.begin.started (c.state.failed "No previous release available.")
        else
          let c := (c.dropStaged deleted).begin
          (c.emit c.started (c.state.begun .downloading)).waits (.fetch target)

/-- `installStaged`, up to the installer. -/
def installStaged : Controller :=
  if c.state.busy = true ∨ c.state.apkPath = "" then c
  else c.begin.waits (.install c.state.apkPath c.stagedFor)

/-- The end of a check. -/
def checked (id : Nat) (manifest : UpdateManifest) (current : Int) : Controller :=
  if current ≤ 0 then
    c.emit id (c.state.failed "FormatException: installed versionCode is invalid")
  else
    c.emit id { c.state with
      status := if manifest.updateAvailable current then .updateAvailable else .upToDate
      currentCode := some current
      latest := some manifest.latest
      previous := manifest.previous }

/-- A download that failed on its file: the file goes, then the error shows. -/
def refused (id : Nat) (path error : String) (deleted : Bool) : Controller :=
  let c := c.delete path deleted
  c.emit id (c.state.failed error)

/-- A download whose file was verified. -/
def ready (id : Nat) (target : UpdateRelease) (path : String) : Controller :=
  if c.gone = true then c
  else { c.emit id { c.state with
      status := .readyToInstall
      apkPath := path
      targetCode := some target.versionCode } with stagedFor := some target }

/-- The end of `installStaged`. -/
def installed (id : Nat) (result : ApkInstallResult) : Controller :=
  let c := { c with ended := id :: c.ended }
  if result.opened = true then c.emit id { c.state with status := .waitingInstaller }
  else
    c.emit id (c.state.failed
      (if result.detail = "" then "The installer refused the file." else result.detail))

/-- `dispose`. -/
def dispose : Controller := { c with gone := true }

end Calls

section Step

variable (sha256Hex : Contents → String) (c : Controller)

/-- The end of `verifyApkSha256`: the error it throws, if it does. -/
def verifyApkSha256 (contents : Option Contents) (readError expectedSha256 : String) :
    Option String :=
  match contents with
  | none => some readError
  | some bytes =>
      if bytes = [] then some "Bad state: staged APK is empty or corrupt"
      else if sha256Hex bytes ≠ expectedSha256.toLower then
        some ("Bad state: checksum mismatch: expected " ++ expectedSha256 ++ ", got " ++
          sha256Hex bytes)
      else none

/-- The end of a download. -/
def verified (id : Nat) (target : UpdateRelease) (path readError : String) (deleted : Bool) :
    Controller :=
  match verifyApkSha256 sha256Hex (c.files.read path) readError target.sha256 with
  | some error => c.refused id path error deleted
  | none => c.ready id target path

/-- The answer to an operation. -/
def answered (i : Nat) (op : Op) : Event → Option Controller
  | .manifest _ answer =>
      match op.stage, answer with
      | .manifest, .ok manifest => some (c.goesOn i op (.code manifest))
      | .manifest, .error error => some ((c.finish i).emit op.id (c.state.failed error))
      | _, _ => none
  | .code _ answer =>
      match op.stage, answer with
      | .code manifest, .ok current => some ((c.finish i).checked op.id manifest current)
      | .code _, .error error => some ((c.finish i).emit op.id (c.state.failed error))
      | _, _ => none
  | .progress _ received total =>
      match op.stage with
      | .fetch _ =>
          some (if c.gone = true then c
            else { c with state := { c.state with progress := some (received, total) } })
      | _ => none
  | .written _ path body swept =>
      match op.stage with
      | .fetch target =>
          some { c.goesOn i op (.staged target path) with
            files := (swept.foldl Files.remove c.files).write path body }
      | _ => none
  | .fetched _ thrown =>
      match op.stage, thrown with
      | .fetch _, some error => some ((c.finish i).emit op.id (c.state.failed error))
      | .staged _ _, some error => some ((c.finish i).emit op.id (c.state.failed error))
      | .staged target path, none =>
          if (c.files.read path).isNone = true then
            some ((c.finish i).emit op.id (c.state.failed "Bad state: staged APK is missing"))
          else some (c.goesOn i op (.verify target path))
      | _, _ => none
  | .verified _ readError deleted =>
      match op.stage with
      | .verify target path =>
          some ((c.finish i).verified sha256Hex op.id target path readError deleted)
      | _ => none
  | .installed _ result =>
      match op.stage with
      | .install _ _ => some ((c.finish i).installed op.id result)
      | _ => none
  | _ => none

/-- The operation an event answers. -/
def answers : Event → Option Nat
  | .manifest i _ => some i
  | .code i _ => some i
  | .progress i _ _ => some i
  | .written i _ _ _ => some i
  | .fetched i _ => some i
  | .verified i _ _ => some i
  | .installed i _ => some i
  | .checkForUpdates _ => none
  | .download _ _ => none
  | .installStaged => none
  | .dispose => none

/-- A controller that was disposed of is not called any more. -/
def next (e : Event) : Option Controller :=
  match answers e with
  | some i => c.ops[i]?.bind fun op => c.answered sha256Hex i op e
  | none =>
      if c.gone = true then none
      else
        match e with
        | .checkForUpdates deleted => some (c.checkForUpdates deleted)
        | .download latest deleted => some (c.download latest deleted)
        | .installStaged => some c.installStaged
        | .dispose => some c.dispose
        | _ => none

end Step

end Controller

end Calcar.Phone.Update
