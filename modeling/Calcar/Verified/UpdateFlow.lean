import Calcar.Phone.Update

/-!
# The update flow

A check and a download exclude each other and everything else through `busy`.  An
install does not count as busy, so a check or a download may start under it: it
deletes the file that is being installed, and the end of the install overwrites
its status, after which a third operation may start.

## Main results

* `Safe` — what holds of the operations under way, their files and the status.
* `Safe.checkForUpdates`, `Safe.download`, `Safe.installStaged`, `Safe.answered` —
  every function keeps it.
* `update_flow` — a run in which nothing starts under an install and installs end
  in the order they were started is sound.
-/

namespace Calcar.Phone.Update

open Lib

/-- The operation is at the installer. -/
def Stage.installs : Stage → Bool
  | .install _ _ => true
  | .manifest => false
  | .code _ => false
  | .fetch _ => false
  | .staged _ _ => false
  | .verify _ _ => false

namespace Controller

variable {sha256Hex : Contents → String}

/-! ## The law -/

variable (sha256Hex) in
/-- The file is there and has the hash of the release. -/
def Verified (c : Controller) (path : String) (release : Option UpdateRelease) : Prop :=
  ∃ r bytes, release = some r ∧ c.files.read path = some bytes ∧
    sha256Hex bytes = r.sha256.toLower

variable (sha256Hex) in
/-- After the step at most one check or download is under way, every install is at
a file that is there and has the hash of the release it was downloaded for, and
the status was not taken back from a newer operation. -/
structure Sound (c : Controller) (_ : Event) (c' : Controller) : Prop where
  single : (c'.ops.filter fun op => op.stage.installs = false).length ≤ 1
  verified : ∀ op ∈ c'.ops, ∀ path release, op.stage = .install path release →
    Verified sha256Hex c' path release
  newest : c.owner ≤ c'.owner

/-- No check or download is called for while an install is under way, and no
install ends after one that was started later. -/
structure InTurn (c : Controller) (e : Event) (_ : Controller) : Prop where
  check (deleted : Bool) : e = .checkForUpdates deleted →
    ∀ op ∈ c.ops, op.stage.installs = false
  download (latest deleted : Bool) : e = .download latest deleted →
    ∀ op ∈ c.ops, op.stage.installs = false
  inOrder (i : Nat) (result : ApkInstallResult) (op : Op) : e = .installed i result →
    c.ops[i]? = some op → ∀ id ∈ c.ended, id ≤ op.id

/-! ## The invariant -/

variable (sha256Hex) in
/-- What holds of the operations under way, their files and the status. -/
structure Safe (c : Controller) : Prop where
  numbered : ∀ op ∈ c.ops, op.id ≤ c.started
  owner : c.owner ≤ c.started
  alone : ∀ op ∈ c.ops, op.stage.installs = false →
    c.ops = [op] ∧ c.state.busy = true ∧ c.state.apkPath = "" ∧ c.owner = op.id
  staged : c.state.apkPath ≠ "" → Verified sha256Hex c c.state.apkPath c.stagedFor
  installs : ∀ op ∈ c.ops, ∀ path release, op.stage = .install path release →
    c.state.apkPath ≠ "" ∧ path = c.state.apkPath ∧ release = c.stagedFor
  order : ∀ op ∈ c.ops, op.stage.installs = true → c.owner ≤ op.id ∨ c.owner ∈ c.ended

section Safe

variable {c c' : Controller}

theorem Safe.sound {e : Event} (h : Safe sha256Hex c') (hnewest : c.owner ≤ c'.owner) :
    Sound sha256Hex c e c' where
  single := by
    by_cases hbusy : ∃ op ∈ c'.ops, op.stage.installs = false
    · obtain ⟨op, hmem, hstage⟩ := hbusy
      rw [(h.alone op hmem hstage).1]
      exact List.length_filter_le _ [op]
    · have hnone : c'.ops.filter (fun op => op.stage.installs = false) = [] := by
        rw [List.filter_eq_nil_iff]
        intro op hmem
        simpa using fun hstage => hbusy ⟨op, hmem, hstage⟩
      exact Nat.le_trans (Nat.le_of_eq (congrArg List.length hnone)) (Nat.zero_le 1)
  verified := by
    intro op hmem path release hstage
    obtain ⟨hpath, rfl, rfl⟩ := h.installs op hmem path release hstage
    exact h.staged hpath
  newest := hnewest

/-- What is under way where the controller is not busy. -/
theorem Safe.all_install (h : Safe sha256Hex c) (hidle : ¬c.state.busy = true) :
    ∀ op ∈ c.ops, op.stage.installs = true := by
  intro op hmem
  cases hstage : op.stage.installs with
  | true => rfl
  | false => exact absurd (h.alone op hmem hstage).2.1 hidle

/-- Nothing is under way where the controller is not busy and nothing installs. -/
theorem Safe.idle (h : Safe sha256Hex c) (hidle : ¬c.state.busy = true)
    (hnone : ∀ op ∈ c.ops, op.stage.installs = false) : c.ops = [] := by
  refine List.eq_nil_iff_forall_not_mem.2 fun op hmem => ?_
  have hstage := hnone op hmem
  rw [h.all_install hidle op hmem] at hstage
  cases hstage

/-- A check or a download that just started. -/
theorem Safe.begun (id : Nat) (stage : Stage) (hstarted : c.started = id) (howner : c.owner = id)
    (hops : c.ops = [⟨id, stage⟩]) (hstage : stage.installs = false)
    (hbusy : c.state.busy = true) (hpath : c.state.apkPath = "") : Safe sha256Hex c where
  numbered := by
    rw [hops, hstarted]
    intro op hmem
    exact Nat.le_of_eq (congrArg Op.id (List.mem_singleton.1 hmem))
  owner := Nat.le_of_eq (howner.trans hstarted.symm)
  alone := by
    rw [hops]
    intro op hmem _
    rw [List.mem_singleton.1 hmem]
    exact ⟨rfl, hbusy, hpath, howner⟩
  staged := fun hne => absurd hpath hne
  installs := by
    rw [hops]
    intro op hmem path release hinstall
    rw [List.mem_singleton.1 hmem] at hinstall
    rw [show stage = .install path release from hinstall] at hstage
    cases hstage
  order := by
    rw [hops]
    intro op hmem hinstall
    rw [List.mem_singleton.1 hmem] at hinstall
    rw [show stage.installs = true from hinstall] at hstage
    cases hstage

/-- A controller with nothing under way. -/
theorem Safe.resting (hops : c.ops = []) (howner : c.owner ≤ c.started)
    (hstaged : c.state.apkPath ≠ "" → Verified sha256Hex c c.state.apkPath c.stagedFor) :
    Safe sha256Hex c where
  numbered := by rw [hops]; intro op hmem; cases hmem
  owner := howner
  alone := by rw [hops]; intro op hmem; cases hmem
  staged := hstaged
  installs := by rw [hops]; intro op hmem; cases hmem
  order := by rw [hops]; intro op hmem; cases hmem

end Safe

/-! ## Calls -/

section Calls

variable {c c' : Controller}

theorem emit_live (hlive : c.gone = false) (id : Nat) (next : UpdateState) :
    c.emit id next = { c with state := next, owner := id } := by
  simp [emit, hlive]

theorem emit_gone (hgone : c.gone = true) (id : Nat) (next : UpdateState) :
    c.emit id next = c := by
  simp [emit, hgone]

/-- Nothing but files goes with the staged file. -/
theorem dropStaged_eq (c : Controller) (deleted : Bool) :
    ∃ files, c.dropStaged deleted = { c with files := files } := by
  unfold dropStaged delete
  split
  · exact ⟨c.files, rfl⟩
  · split
    · exact ⟨c.files.remove c.state.apkPath, rfl⟩
    · exact ⟨c.files, rfl⟩

/-- A check or a download that starts while nothing is under way. -/
theorem Safe.starts (h : Safe sha256Hex c) (hlive : c.gone = false) (hops : c.ops = [])
    (deleted : Bool) (status : UpdateStatus) (hbusy : (c.state.begun status).busy = true)
    {stage : Stage} (hstage : stage.installs = false) {c₁ c₂ : Controller}
    (h₁ : c₁ = (c.dropStaged deleted).begin)
    (h₂ : c₂ = (c₁.emit c₁.started (c₁.state.begun status)).waits stage) :
    Safe sha256Hex c₂ ∧ c.owner ≤ c₂.owner := by
  obtain ⟨files, hdrop⟩ := dropStaged_eq c deleted
  rw [hdrop] at h₁
  subst h₁
  have hemit := emit_live (c := ({ c with files := files } : Controller).begin) hlive
    (c.started + 1) (c.state.begun status)
  rw [show ({ c with files := files } : Controller).begin.started = c.started + 1 from rfl,
    show ({ c with files := files } : Controller).begin.state = c.state from rfl, hemit] at h₂
  subst h₂
  refine ⟨Safe.begun (c.started + 1) stage rfl rfl ?_ hstage hbusy rfl, ?_⟩
  · show c.ops ++ [_] = _
    rw [hops]
    rfl
  · exact Nat.le_succ_of_le h.owner

theorem Safe.checkForUpdates (h : Safe sha256Hex c) (hlive : c.gone = false)
    (hnone : ∀ op ∈ c.ops, op.stage.installs = false) (deleted : Bool) :
    Safe sha256Hex (c.checkForUpdates deleted) ∧ c.owner ≤ (c.checkForUpdates deleted).owner := by
  unfold Controller.checkForUpdates
  by_cases hbusy : c.state.busy = true
  · rw [if_pos hbusy]
    exact ⟨h, Nat.le_refl _⟩
  · rw [if_neg hbusy]
    exact h.starts hlive (h.idle hbusy hnone) deleted .checking (by rfl) (by rfl) rfl rfl

/-- A call that is turned down with an error while nothing is under way. -/
theorem Safe.turnedDown (h : Safe sha256Hex c) (hlive : c.gone = false) (hops : c.ops = [])
    (error : String) :
    Safe sha256Hex (c.begin.emit c.begin.started (c.state.failed error)) ∧
      c.owner ≤ (c.begin.emit c.begin.started (c.state.failed error)).owner := by
  rw [emit_live (c := c.begin) hlive]
  exact ⟨Safe.resting hops (Nat.le_refl _) h.staged, Nat.le_succ_of_le h.owner⟩

theorem Safe.download (h : Safe sha256Hex c) (hlive : c.gone = false)
    (hnone : ∀ op ∈ c.ops, op.stage.installs = false) (latest deleted : Bool) :
    Safe sha256Hex (c.download latest deleted) ∧
      c.owner ≤ (c.download latest deleted).owner := by
  unfold Controller.download
  by_cases hbusy : c.state.busy = true
  · rw [if_pos hbusy]
    exact ⟨h, Nat.le_refl _⟩
  · rw [if_neg hbusy]
    have hops := h.idle hbusy hnone
    cases htarget : (if latest then c.state.latest else c.state.previous) with
    | none => exact h.turnedDown hlive hops _
    | some target =>
        dsimp only
        split
        · exact h.turnedDown hlive hops _
        · exact h.starts hlive hops deleted .downloading (by rfl) (by rfl) rfl rfl

theorem Safe.installStaged (h : Safe sha256Hex c) :
    Safe sha256Hex c.installStaged ∧ c.owner ≤ c.installStaged.owner := by
  unfold Controller.installStaged
  by_cases hguard : c.state.busy = true ∨ c.state.apkPath = ""
  · rw [if_pos hguard]
    exact ⟨h, Nat.le_refl _⟩
  · rw [if_neg hguard]
    rw [not_or] at hguard
    have hall := h.all_install hguard.1
    have hcases (op : Op) (hmem : op ∈ (c.begin.waits (.install c.state.apkPath c.stagedFor)).ops) :
        op ∈ c.ops ∨ op = ⟨c.started + 1, .install c.state.apkPath c.stagedFor⟩ := by
      cases List.mem_append.1 hmem with
      | inl hold => exact .inl hold
      | inr hnew => exact .inr (List.mem_singleton.1 hnew)
    refine ⟨⟨?_, Nat.le_succ_of_le h.owner, ?_, h.staged, ?_, ?_⟩, Nat.le_refl _⟩
    · intro op hmem
      cases hcases op hmem with
      | inl hold => exact Nat.le_succ_of_le (h.numbered op hold)
      | inr hnew => rw [hnew]; exact Nat.le_refl _
    · intro op hmem hstage
      cases hcases op hmem with
      | inl hold =>
          rw [hall op hold] at hstage
          cases hstage
      | inr hnew =>
          rw [hnew] at hstage
          cases hstage
    · intro op hmem path release hstage
      cases hcases op hmem with
      | inl hold => exact h.installs op hold path release hstage
      | inr hnew =>
          rw [hnew] at hstage
          cases hstage
          exact ⟨hguard.2, rfl, rfl⟩
    · intro op hmem hstage
      cases hcases op hmem with
      | inl hold => exact h.order op hold hstage
      | inr hnew => rw [hnew]; exact .inl (Nat.le_succ_of_le h.owner)

end Calls

/-! ## Answers -/

section Answers

variable {c c' : Controller} {i : Nat} {op : Op}

/-- Where an operation that is no install is answered, nothing else is under way. -/
theorem Safe.answersAlone (h : Safe sha256Hex c) (hop : c.ops[i]? = some op)
    (hstage : op.stage.installs = false) :
    c.ops = [op] ∧ i = 0 ∧ c.state.busy = true ∧ c.state.apkPath = "" ∧ c.owner = op.id := by
  obtain ⟨hops, hbusy, hpath, howner⟩ := h.alone op (List.mem_of_getElem? hop) hstage
  refine ⟨hops, ?_, hbusy, hpath, howner⟩
  rw [hops] at hop
  cases i with
  | zero => rfl
  | succ i => cases hop

/-- The operation goes on to another stage; files may change. -/
theorem Safe.goesOn (h : Safe sha256Hex c) (hop : c.ops[i]? = some op)
    (hstage : op.stage.installs = false) {stage : Stage} (hnext : stage.installs = false)
    (files : Files) :
    Safe sha256Hex { c.goesOn i op stage with files := files } := by
  obtain ⟨hops, rfl, hbusy, hpath, howner⟩ := h.answersAlone hop hstage
  have hid := h.numbered op (List.mem_of_getElem? hop)
  have hset : (c.goesOn 0 op stage).ops = [{ op with stage := stage }] := by
    show c.ops.set 0 _ = _
    rw [hops]
    rfl
  refine ⟨?_, h.owner, ?_, fun hne => absurd hpath hne, ?_, ?_⟩
  · intro op' hmem
    rw [show op' = { op with stage := stage } from List.mem_singleton.1 (hset ▸ hmem)]
    exact hid
  · intro op' hmem _
    have heq : op' = { op with stage := stage } := List.mem_singleton.1 (hset ▸ hmem)
    subst heq
    exact ⟨hset, hbusy, hpath, howner⟩
  · intro op' hmem path release hinstall
    have heq : op' = { op with stage := stage } := List.mem_singleton.1 (hset ▸ hmem)
    rw [heq] at hinstall
    rw [show stage = .install path release from hinstall] at hnext
    cases hnext
  · intro op' hmem hinstall
    have heq : op' = { op with stage := stage } := List.mem_singleton.1 (hset ▸ hmem)
    rw [heq] at hinstall
    rw [show stage.installs = true from hinstall] at hnext
    cases hnext

/-- The operation is over, with a status, and nothing is staged; files may change. -/
theorem Safe.ends (h : Safe sha256Hex c) (hop : c.ops[i]? = some op)
    (hstage : op.stage.installs = false) (files : Files) {next : UpdateState}
    (hpath : next.apkPath = "") {c₁ : Controller}
    (h₁ : c₁ = { c.finish i with files := files }) :
    Safe sha256Hex (c₁.emit op.id next) ∧ c.owner ≤ (c₁.emit op.id next).owner := by
  obtain ⟨hops, rfl, -, hold, howner⟩ := h.answersAlone hop hstage
  have hid := h.numbered op (List.mem_of_getElem? hop)
  have hnone : (c.finish 0).ops = [] := by
    show c.ops.eraseIdx 0 = []
    rw [hops]
    rfl
  subst h₁
  cases hgone : c.gone with
  | true =>
      rw [emit_gone (c := { c.finish 0 with files := files }) hgone]
      exact ⟨Safe.resting hnone h.owner fun hne => absurd hold hne, Nat.le_refl _⟩
  | false =>
      rw [emit_live (c := { c.finish 0 with files := files }) hgone]
      exact ⟨Safe.resting hnone hid fun hne => absurd hpath hne, Nat.le_of_eq howner⟩

theorem Safe.checked (h : Safe sha256Hex c) (hop : c.ops[i]? = some op)
    (hstage : op.stage.installs = false) (manifest : UpdateManifest) (current : Int) :
    Safe sha256Hex ((c.finish i).checked op.id manifest current) ∧
      c.owner ≤ ((c.finish i).checked op.id manifest current).owner := by
  have hpath := (h.answersAlone hop hstage).2.2.2.1
  unfold Controller.checked
  by_cases hinvalid : current ≤ 0
  · rw [if_pos hinvalid]
    refine h.ends hop hstage c.files ?_ rfl
    exact hpath
  · rw [if_neg hinvalid]
    refine h.ends hop hstage c.files ?_ rfl
    exact hpath

/-- A file that passes has the hash. -/
theorem verifyApkSha256_none {contents : Option Contents} {readError expected : String}
    (h : verifyApkSha256 sha256Hex contents readError expected = none) :
    ∃ bytes, contents = some bytes ∧ sha256Hex bytes = expected.toLower := by
  cases contents with
  | none => cases h
  | some bytes =>
      refine ⟨bytes, rfl, ?_⟩
      unfold verifyApkSha256 at h
      dsimp only at h
      by_cases hempty : bytes = []
      · rw [if_pos hempty] at h
        cases h
      · rw [if_neg hempty] at h
        by_cases hdiffers : sha256Hex bytes ≠ expected.toLower
        · rw [if_pos hdiffers] at h
          cases h
        · exact Decidable.of_not_not hdiffers

theorem Safe.verified (h : Safe sha256Hex c) (hop : c.ops[i]? = some op)
    (hstage : op.stage.installs = false) (target : UpdateRelease) (path readError : String)
    (deleted : Bool) :
    Safe sha256Hex ((c.finish i).verified sha256Hex op.id target path readError deleted) ∧
      c.owner ≤ ((c.finish i).verified sha256Hex op.id target path readError deleted).owner := by
  obtain ⟨hops, hi, -, hpath, howner⟩ := h.answersAlone hop hstage
  unfold Controller.verified
  cases hverify : verifyApkSha256 sha256Hex ((c.finish i).files.read path) readError
      target.sha256 with
  | some error =>
      show Safe sha256Hex ((c.finish i).refused op.id path error deleted) ∧
        c.owner ≤ ((c.finish i).refused op.id path error deleted).owner
      unfold Controller.refused Controller.delete
      cases deleted with
      | true =>
          refine h.ends hop hstage (c.files.remove path) ?_ rfl
          exact hpath
      | false =>
          refine h.ends hop hstage c.files ?_ rfl
          exact hpath
  | none =>
      show Safe sha256Hex ((c.finish i).ready op.id target path) ∧
        c.owner ≤ ((c.finish i).ready op.id target path).owner
      obtain ⟨bytes, hread, hhash⟩ := verifyApkSha256_none hverify
      have hid := h.numbered op (List.mem_of_getElem? hop)
      have hnone : (c.finish i).ops = [] := by
        show c.ops.eraseIdx i = []
        rw [hops, hi]
        rfl
      unfold Controller.ready
      cases hgone : c.gone with
      | true =>
          rw [if_pos (show (c.finish i).gone = true from hgone)]
          exact ⟨Safe.resting hnone h.owner fun hne => absurd hpath hne, Nat.le_refl _⟩
      | false =>
          rw [if_neg (show ¬(c.finish i).gone = true by simp [finish, hgone]),
            emit_live (c := c.finish i) hgone]
          refine ⟨Safe.resting hnone hid fun _ => ?_, Nat.le_of_eq howner⟩
          exact ⟨target, bytes, rfl, hread, hhash⟩

/-- The end of an install that was not overtaken. -/
theorem Safe.installed (h : Safe sha256Hex c) (hop : c.ops[i]? = some op)
    (hstage : op.stage.installs = true) (hlast : ∀ id ∈ c.ended, id ≤ op.id)
    (result : ApkInstallResult) :
    Safe sha256Hex ((c.finish i).installed op.id result) ∧
      c.owner ≤ ((c.finish i).installed op.id result).owner := by
  have hmem := List.mem_of_getElem? hop
  have howner : c.owner ≤ op.id := by
    cases h.order op hmem hstage with
    | inl hle => exact hle
    | inr hended => exact hlast _ hended
  have hothers : ∀ other ∈ (c.finish i).ops, other ∈ c.ops :=
    fun other hother => List.mem_of_mem_eraseIdx hother
  have hall : ∀ other ∈ c.ops, other.stage.installs = true := by
    intro other hother
    cases hinstalls : other.stage.installs with
    | true => rfl
    | false =>
        have hsame := List.mem_singleton.1 ((h.alone other hother hinstalls).1 ▸ hmem)
        rw [← hsame, hstage] at hinstalls
        cases hinstalls
  -- the state keeps its path, and so do the installs that are left
  have hsafe (next : UpdateState) (hpath : next.apkPath = c.state.apkPath) :
      Safe sha256Hex (({ c.finish i with ended := op.id :: c.ended } : Controller).emit op.id next) ∧
        c.owner ≤ (({ c.finish i with ended := op.id :: c.ended } : Controller).emit op.id next).owner := by
    cases hgone : c.gone with
    | true =>
        rw [emit_gone (c := { c.finish i with ended := op.id :: c.ended }) hgone]
        refine ⟨⟨fun other hother => h.numbered other (hothers other hother), h.owner, ?_,
          h.staged, fun other hother => h.installs other (hothers other hother), ?_⟩,
          Nat.le_refl _⟩
        · intro other hother hbusy
          rw [hall other (hothers other hother)] at hbusy
          cases hbusy
        · intro other hother hinstalls
          cases h.order other (hothers other hother) hinstalls with
          | inl hle => exact .inl hle
          | inr hended => exact .inr (List.mem_cons_of_mem _ hended)
    | false =>
        rw [emit_live (c := { c.finish i with ended := op.id :: c.ended }) hgone]
        refine ⟨⟨fun other hother => h.numbered other (hothers other hother),
          h.numbered op hmem, ?_, ?_, ?_, ?_⟩, howner⟩
        · intro other hother hbusy
          rw [hall other (hothers other hother)] at hbusy
          cases hbusy
        · intro hne
          show Verified sha256Hex _ next.apkPath c.stagedFor
          rw [hpath]
          exact h.staged (by rw [← hpath]; exact hne)
        · intro other hother path release hinstall
          show next.apkPath ≠ "" ∧ path = next.apkPath ∧ release = c.stagedFor
          rw [hpath]
          exact h.installs other (hothers other hother) path release hinstall
        · intro other _ _
          exact .inr List.mem_cons_self
  unfold Controller.installed
  cases result.opened with
  | true => exact hsafe _ rfl
  | false => exact hsafe _ rfl

/-- Every answer keeps the controller safe. -/
theorem Safe.answered (h : Safe sha256Hex c) (hop : c.ops[i]? = some op) {e : Event}
    (hlast : ∀ j result, e = .installed j result → ∀ id ∈ c.ended, id ≤ op.id)
    (hnext : c.answered sha256Hex i op e = some c') :
    Safe sha256Hex c' ∧ c.owner ≤ c'.owner := by
  have hfails (hstage : op.stage.installs = false) (error : String) :
      Safe sha256Hex ((c.finish i).emit op.id (c.state.failed error)) ∧
        c.owner ≤ ((c.finish i).emit op.id (c.state.failed error)).owner := by
    refine h.ends hop hstage c.files ?_ rfl
    exact (h.answersAlone hop hstage).2.2.2.1
  have hon (hstage : op.stage.installs = false) {stage : Stage}
      (hstays : stage.installs = false) : Safe sha256Hex (c.goesOn i op stage) :=
    h.goesOn hop hstage hstays c.files
  obtain ⟨id, stage⟩ := op
  cases e with
  | manifest j answer =>
      cases stage <;> try cases hnext
      cases answer with
      | error error => cases hnext; exact hfails rfl error
      | ok manifest => cases hnext; exact ⟨hon rfl rfl, Nat.le_refl _⟩
  | code j answer =>
      cases stage <;> try cases hnext
      cases answer with
      | error error => cases hnext; exact hfails rfl error
      | ok current => cases hnext; exact h.checked hop rfl _ current
  | progress j received total =>
      cases stage <;> cases hnext
      cases hgone : c.gone with
      | true => exact ⟨h, Nat.le_refl _⟩
      | false => exact ⟨⟨h.numbered, h.owner, h.alone, h.staged, h.installs, h.order⟩, Nat.le_refl _⟩
  | written j path body swept =>
      cases stage <;> cases hnext
      exact ⟨h.goesOn hop rfl rfl _, Nat.le_refl _⟩
  | fetched j thrown =>
      cases stage <;> cases thrown <;> try cases hnext
      · exact hfails rfl _
      · unfold Controller.answered at hnext
        dsimp only at hnext
        split at hnext
        · cases hnext
          exact hfails rfl _
        · cases hnext
          exact ⟨hon rfl rfl, Nat.le_refl _⟩
      · exact hfails rfl _
  | verified j readError deleted =>
      cases stage <;> cases hnext
      exact h.verified hop rfl _ _ readError deleted
  | installed j result =>
      cases stage <;> cases hnext
      exact h.installed hop rfl (hlast j result rfl) result
  | checkForUpdates deleted => cases hnext
  | download latest deleted => cases hnext
  | installStaged => cases hnext
  | dispose => cases hnext

end Answers

/-! ## Runs -/

section Runs

variable {c c' : Controller}

/-- A call on a controller that is still there. -/
theorem called {out : Option Controller}
    (hnext : (if c.gone = true then none else out) = some c') : c.gone = false ∧ out = some c' := by
  by_cases hgone : c.gone = true
  · rw [if_pos hgone] at hnext
    cases hnext
  · rw [if_neg hgone] at hnext
    exact ⟨Bool.eq_false_iff.2 hgone, hnext⟩

/-- A step in turn keeps the controller safe. -/
theorem Safe.next (h : Safe sha256Hex c) {e : Event} (hturn : InTurn c e c')
    (hnext : c.next sha256Hex e = some c') : Safe sha256Hex c' ∧ c.owner ≤ c'.owner := by
  have hanswer {i : Nat} (hi : answers e = some i)
      (hindex : ∀ j result, e = .installed j result → j = i) :
      Safe sha256Hex c' ∧ c.owner ≤ c'.owner := by
    unfold Controller.next at hnext
    rw [hi] at hnext
    obtain ⟨op, hop, hanswered⟩ := Option.bind_eq_some_iff.1 hnext
    refine h.answered hop ?_ hanswered
    intro j result heq
    have hj := hindex j result heq
    subst hj
    exact hturn.inOrder j result op heq hop
  cases e with
  | manifest i answer => exact hanswer rfl fun _ _ heq => by cases heq
  | code i answer => exact hanswer rfl fun _ _ heq => by cases heq
  | progress i received total => exact hanswer rfl fun _ _ heq => by cases heq
  | written i path body swept => exact hanswer rfl fun _ _ heq => by cases heq
  | fetched i thrown => exact hanswer rfl fun _ _ heq => by cases heq
  | verified i readError deleted => exact hanswer rfl fun _ _ heq => by cases heq
  | installed i result =>
      refine hanswer rfl fun j result' heq => ?_
      cases heq
      rfl
  | checkForUpdates deleted =>
      obtain ⟨hlive, heq⟩ := called hnext
      cases heq
      exact h.checkForUpdates hlive (hturn.check deleted rfl) deleted
  | download latest deleted =>
      obtain ⟨hlive, heq⟩ := called hnext
      cases heq
      exact h.download hlive (hturn.download latest deleted rfl) latest deleted
  | installStaged =>
      obtain ⟨-, heq⟩ := called hnext
      cases heq
      exact h.installStaged
  | dispose =>
      obtain ⟨-, heq⟩ := called hnext
      cases heq
      exact ⟨⟨h.numbered, h.owner, h.alone, h.staged, h.installs, h.order⟩, Nat.le_refl _⟩

end Runs

/-- **The update flow.** A run of a new controller in which no check or download
is called for under an install, and installs end in the order they were started,
is sound. -/
theorem update_flow (sha256Hex : Contents → String) (events : List Event)
    (hturn : Every (next sha256Hex) InTurn {} events) :
    Every (next sha256Hex) (Sound sha256Hex) {} events := by
  refine hturn.carry (Q := Sound sha256Hex) (Safe sha256Hex) ?_ ?_
  · intro c e c' h hnext hstep
    obtain ⟨hsafe, hnewest⟩ := h.next hstep hnext
    exact ⟨hsafe.sound hnewest, hsafe⟩
  · exact Safe.resting rfl (Nat.le_refl 0) fun hne => absurd rfl hne

end Controller

namespace UnderInstall

def release : UpdateRelease where
  versionCode := 18
  versionName := "1.8"
  apkUrl := "https://calcar/18.apk"
  sha256 := "4bf5122f344554c53bde2ebb8cd2b7e3d1600ad631c385a5d7cce23c7785459a"

/-- SHA-256 on the release, and on the empty file of a download that was cut short. -/
def hashes : List (Contents × String) :=
  [([1], release.sha256),
    ([], "e3b0c44298fc1c149afbf4c8996fb92427ae41e4649b934ca495991b7852b855")]

def hash (contents : Contents) : String :=
  ((hashes.find? fun x => x.1 = contents).map Prod.snd).getD ""

/-- Version 18 is found, downloaded and verified, and the install starts. -/
def before : List Event :=
  [.checkForUpdates true, .manifest 0 (.ok ⟨release, none⟩), .code 0 (.ok 16),
    .download true true, .written 0 "18.apk" [1] [], .fetched 0 none, .verified 0 "" true,
    .installStaged]

def shown : Controller where
  state := {
    status := .readyToInstall
    currentCode := some 16
    latest := some release
    apkPath := "18.apk"
    targetCode := some 18 }
  files := [("18.apk", [1])]
  ops := [⟨3, .install "18.apk" (some release)⟩]
  started := 3
  owner := 2
  stagedFor := some release

theorem before_run : follow (Controller.next hash) {} before = some shown := by decide +kernel

/-- `InTurn`, computed. -/
def inTurn (c : Controller) : Event → Bool
  | .checkForUpdates _ => c.ops.all fun op => !op.stage.installs
  | .download _ _ => c.ops.all fun op => !op.stage.installs
  | .installed i _ => c.ops[i]?.all fun op => c.ended.all fun id => decide (id ≤ op.id)
  | _ => true

theorem inTurn_spec (c : Controller) (e : Event) (c' : Controller) (h : inTurn c e = true) :
    Controller.InTurn c e c' where
  check := by
    rintro deleted rfl
    simpa [inTurn] using h
  download := by
    rintro latest deleted rfl
    simpa [inTurn] using h
  inOrder := by
    rintro i result op rfl hop
    simpa [inTurn, hop] using h

theorem in_turn : Every (Controller.next hash) Controller.InTurn {}
    (before ++ [.installed 0 ⟨true, ""⟩]) :=
  every_of_passes inTurn_spec (by decide +kernel)

end UnderInstall

/-- The install of version 18 that nothing comes in between of. -/
theorem update_flow_sample :
    Every (Controller.next UnderInstall.hash) (Controller.Sound UnderInstall.hash) {}
      (UnderInstall.before ++ [.installed 0 ⟨true, ""⟩]) :=
  Controller.update_flow UnderInstall.hash _ UnderInstall.in_turn

/-- A check deletes the file that is being installed. -/
theorem file_deleted_under_install :
    ¬∀ (sha256Hex : Contents → String) (events : List Event),
      Every (Controller.next sha256Hex) (Controller.Sound sha256Hex) {} events := by
  intro h
  have hstep : UnderInstall.shown.next UnderInstall.hash (.checkForUpdates true) =
      some ((UnderInstall.shown.next UnderInstall.hash (.checkForUpdates true)).get
        (by decide)) := by
    rw [Option.some_get]
  have hsound := (h UnderInstall.hash (UnderInstall.before ++ [.checkForUpdates true])).last
    UnderInstall.before_run hstep
  obtain ⟨r, bytes, -, hread, -⟩ := hsound.verified
    ⟨3, .install "18.apk" (some UnderInstall.release)⟩ (by decide) _ _ rfl
  rw [show Files.read _ "18.apk" = none by decide] at hread
  cases hread

end Calcar.Phone.Update
