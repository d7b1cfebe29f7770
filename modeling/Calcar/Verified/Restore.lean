import Calcar.Lib.Throws
import Calcar.Phone.Restore

/-!
# What the starts of the app do to the session

A restore that fails clears the session, whatever it failed of; and the pair a
refresh is answered is stored after one more call.  Neither does harm as long as
the calls keep to `Kept`.  Then the starts obey two laws: an entry of the session
is only deleted once the server has rejected both of its tokens, and the stored
pair stays one the server takes, if it takes any.

## Main results

* `exec_lawful`, `env_lawful` — what a call and what the server keep.
* `main_safe` — a start only issues calls that keep the laws.
* `session_restore` — the two laws in every run.
-/

namespace Calcar.Phone.Restore

open Lib SessionStore

namespace Install

/-- The server takes one of the stored tokens. -/
def Authenticates (w : Install) : Prop :=
  w.HasSession ∧ (w.token ∈ w.access ∨ w.credential ∈ w.refresh)

/-- The server has rejected the stored tokens; a blank one is none. -/
def BothRejected (w : Install) : Prop :=
  w.token ∈ w.rejectedAccess ∧ (w.credential.2 = "" ∨ w.credential ∈ w.rejectedRefresh)

/-- The stored pair is one the server takes, if it takes the newest. -/
structure Lawful (w : Install) : Prop where
  live : w.newest ∈ w.refresh → w.Authenticates
  newest : w.credential ∈ w.refresh → w.credential = w.newest
  access_rejected : ∀ t ∈ w.rejectedAccess, t ∉ w.access
  refresh_rejected : ∀ c ∈ w.rejectedRefresh, c ∉ w.refresh
  access_filled : "" ∉ w.access
  refresh_filled : ∀ c ∈ w.refresh, c.1 ≠ "" ∧ c.2 ≠ ""

theorem lawful_congr {w w' : Install} (h : w.Lawful) (hstored : w'.stored = w.stored)
    (haccess : w'.access = w.access) (hrefresh : w'.refresh = w.refresh)
    (hnewest : w'.newest = w.newest) (hrejected : w'.rejectedAccess = w.rejectedAccess)
    (hrejected' : w'.rejectedRefresh = w.rejectedRefresh) : w'.Lawful := by
  constructor
  · intro hlive
    rw [hnewest, hrefresh] at hlive
    simpa only [Authenticates, HasSession, token, credential, hstored, haccess, hrefresh]
      using h.live hlive
  · simpa only [credential, hstored, hrefresh, hnewest] using h.newest
  · simpa only [hrejected, haccess] using h.access_rejected
  · simpa only [hrejected', hrefresh] using h.refresh_rejected
  · simpa only [haccess] using h.access_filled
  · simpa only [hrefresh] using h.refresh_filled

/-! ### Writes of the store -/

theorem stored_setStored (w : Install) (key key' : String) (value : Option String) :
    (w.setStored key value).stored key' = if key' = key then value else w.stored key' :=
  Function.update_apply w.stored key value key'

theorem setStored_same {w : Install} {key : String} {value : Option String}
    (h : w.stored key = value) : w.setStored key value = w := by
  unfold setStored
  rw [← h, Function.update_eq_self]

theorem credential_token (w : Install) (value : Option String) :
    (w.setStored tokenKey value).credential = w.credential := by
  simp [credential, stored_setStored, deviceKey, refreshKey, tokenKey]

theorem token_token (w : Install) (value : String) :
    (w.setStored tokenKey (some value)).token = value := by
  simp [token, stored_setStored]

theorem credential_refresh (w : Install) (value : String) :
    (w.setStored refreshKey (some value)).credential =
      ((w.stored deviceKey).getD "", value) := by
  simp [credential, stored_setStored, deviceKey, refreshKey]

theorem hasSession_token {w : Install} {value : String} (h : w.HasSession) (hvalue : value ≠ "") :
    (w.setStored tokenKey (some value)).HasSession := by
  refine ⟨?_, ?_, ?_⟩
  · simpa [stored_setStored, deviceKey, tokenKey] using h.1
  · simpa [stored_setStored, userKey, tokenKey] using h.2.1
  · simpa [token, stored_setStored] using hvalue

theorem hasSession_refresh {w : Install} {value : Option String} :
    (w.setStored refreshKey value).HasSession ↔ w.HasSession := by
  simp [HasSession, token, stored_setStored, deviceKey, userKey, tokenKey, refreshKey]

end Install

open Install

/-! ## What a call can do -/

section Calls

variable {i : Nat} {o : Oracle} {w w' : Install}

theorem exec_read {key : String} {r : Cmd.Ans (.read key)}
    (h : exec i (.read key) o w = some (w', r)) :
    w.current = some i ∧ w' = w ∧ r = o.answer (.ok (w.stored key)) := by
  rw [exec] at h
  by_cases hcurrent : w.current = some i
  · rw [if_pos hcurrent] at h
    cases h
    exact ⟨hcurrent, rfl, rfl⟩
  · rw [if_neg hcurrent] at h
    cases h

theorem exec_write {key value : String} {r : Cmd.Ans (.write key value)}
    (h : exec i (.write key value) o w = some (w', r)) :
    w.current = some i ∧
      w' = (if o.reaches = true then w.setStored key (some value) else w) ∧
      r = o.answer (.ok ()) := by
  rw [exec] at h
  by_cases hcurrent : w.current = some i
  · rw [if_pos hcurrent] at h
    cases h
    exact ⟨hcurrent, rfl, rfl⟩
  · rw [if_neg hcurrent] at h
    cases h

theorem exec_delete {key : String} {r : Cmd.Ans (.delete key)}
    (h : exec i (.delete key) o w = some (w', r)) :
    w.current = some i ∧ w' = (if o.reaches = true then w.setStored key none else w) := by
  rw [exec] at h
  by_cases hcurrent : w.current = some i
  · rw [if_pos hcurrent] at h
    cases h
    exact ⟨hcurrent, rfl⟩
  · rw [if_neg hcurrent] at h
    cases h

/-- The devices are listed: the token is rejected, or nothing happens. -/
theorem exec_listDevices {token : String} {r : Cmd.Ans (.listDevices token)}
    (h : exec i (.listDevices token) o w = some (w', r)) :
    w.current = some i ∧
      ((o.reaches = true ∧ token ∉ w.access ∧ r = .error () ∧
          w' = { w with rejectedAccess := token :: w.rejectedAccess }) ∨
        ((o.reaches = true → token ∈ w.access) ∧ r = o.answer (.ok ()) ∧ w' = w)) := by
  rw [exec] at h
  by_cases hcurrent : w.current = some i
  · rw [if_pos hcurrent] at h
    by_cases hdead : o.reaches = true ∧ token ∉ w.access
    · rw [if_pos hdead] at h
      cases h
      exact ⟨hcurrent, .inl ⟨hdead.1, hdead.2, rfl, rfl⟩⟩
    · rw [if_neg hdead] at h
      cases h
      exact ⟨hcurrent, .inr ⟨fun hreach => not_not.1 fun h => hdead ⟨hreach, h⟩, rfl, rfl⟩⟩
  · rw [if_neg hcurrent] at h
    cases h

/-- A refresh: it does not reach the server, or is rejected, or rotates. -/
theorem exec_refresh {deviceId refreshToken : String}
    {r : Cmd.Ans (.refresh deviceId refreshToken)}
    (h : exec i (.refresh deviceId refreshToken) o w = some (w', r)) :
    w.current = some i ∧
      ((o.reaches = false ∧ r = .error () ∧ w' = w) ∨
        ((deviceId, refreshToken) ∉ w.refresh ∧ r = .error () ∧
          w' = { w with rejectedRefresh := (deviceId, refreshToken) :: w.rejectedRefresh }) ∨
        ((deviceId, refreshToken) ∈ w.refresh ∧
          ¬(o.minted.accessToken ∈ w.rejectedAccess ∨
            (deviceId, o.minted.refreshToken) ∈ w.rejectedRefresh) ∧
          r = o.answer (.ok o.minted) ∧
          w' = { w.rotate deviceId refreshToken o.minted with
            rotated := if o.answers = true then some o.minted else w.rotated })) := by
  rw [exec] at h
  by_cases hcurrent : w.current = some i
  · rw [if_pos hcurrent] at h
    refine ⟨hcurrent, ?_⟩
    by_cases hreach : o.reaches = false
    · rw [if_pos hreach] at h
      cases h
      exact .inl ⟨hreach, rfl, rfl⟩
    · rw [if_neg hreach] at h
      right
      by_cases hdead : (deviceId, refreshToken) ∉ w.refresh
      · rw [if_pos hdead] at h
        cases h
        exact .inl ⟨hdead, rfl, rfl⟩
      · rw [if_neg hdead] at h
        by_cases hused : o.minted.accessToken ∈ w.rejectedAccess ∨
            (deviceId, o.minted.refreshToken) ∈ w.rejectedRefresh
        · rw [if_pos hused] at h
          cases h
        · rw [if_neg hused] at h
          cases h
          exact .inr ⟨not_not.1 hdead, hused, rfl, rfl⟩
  · rw [if_neg hcurrent] at h
    cases h

end Calls

/-! ## The condition -/

/-- The calls of a start as the laws need them.  A restore gives up only after
the server has rejected what it was shown: so a list of devices that was not
rejected may fail only if there is a refresh token left to try, the refresh is
answered if it can be and meets a rejected access token if it cannot, and with
the rotated pair in hand nothing fails.  And until the rotated pair is stored
the access token that is stored is alive. -/
def Kept (cmd : Cmd) (o : Oracle) (w : Install) : Prop :=
  match cmd with
  | .listDevices token =>
      (w.rotated = none → o.answers = false →
        (o.reaches = true ∧ token ∉ w.access) ∨ w.credential.2 ≠ "") ∧
      (w.rotated ≠ none → o.answers = true ∧ token ∈ w.access)
  | .refresh deviceId refreshToken =>
      o.reaches = true ∧
      ((deviceId, refreshToken) ∈ w.refresh →
        o.answers = true ∧ o.minted.accessToken ≠ "" ∧
          (o.minted.refreshToken ≠ "" → w.token ∈ w.access)) ∧
      ((deviceId, refreshToken) ∉ w.refresh → w.token ∈ w.rejectedAccess)
  | .write key value =>
      o.answers = true ∧
        (key = tokenKey → value ∈ w.access ∨ w.credential ∈ w.refresh ∨ w.newest ∉ w.refresh)
  | _ => True

/-- The stored access token expires only when the refresh token beside it is
alive, or the newest is not. -/
def KeptEnv (e : Env) (w : Install) : Prop :=
  ∀ token, e = .expireAccess token → token = w.token →
    w.credential ∈ w.refresh ∨ w.newest ∉ w.refresh

/-! ## What keeps the laws -/

/-- Where a start may issue a call. -/
def Allowed (cmd : Cmd) (w : Install) : Prop :=
  match cmd with
  | .write key value =>
      ((key = deviceKey ∨ key = userKey) ∧ w.stored key = some value) ∨
        (key = tokenKey ∧ value ≠ "") ∨
        (key = refreshKey ∧ w.newest = ((w.stored deviceKey).getD "", value))
  | .delete _ => w.newest ∉ w.refresh ∧ (w.HasSession → w.BothRejected)
  | .refresh deviceId refreshToken => w.HasSession ∧ w.credential = (deviceId, refreshToken)
  | _ => True

theorem env_lawful {e : Env} {w w' : Install} (hw : w.Lawful) (hkept : KeptEnv e w)
    (h : env e w = some w') : w'.Lawful := by
  cases e with
  | kill =>
      cases h
      exact ⟨hw.live, hw.newest, hw.access_rejected, hw.refresh_rejected, hw.access_filled,
        hw.refresh_filled⟩
  | expireAccess token =>
      cases h
      refine ⟨fun hlive => ?_, hw.newest, fun t ht hin => ?_, hw.refresh_rejected,
        fun hin => ?_, hw.refresh_filled⟩
      · obtain ⟨hsession, haccess | hrefresh⟩ := hw.live hlive
        · by_cases htoken : token = w.token
          · have hcredential := (hkept token rfl htoken).resolve_right fun hdead => hdead hlive
            exact ⟨hsession, .inr hcredential⟩
          · exact ⟨hsession, .inl (List.mem_filter.2
              ⟨haccess, decide_eq_true (Ne.symm htoken)⟩)⟩
        · exact ⟨hsession, .inr hrefresh⟩
      · exact hw.access_rejected t ht (List.mem_filter.1 hin).1
      · exact hw.access_filled (List.mem_filter.1 hin).1
  | expireRefresh credential =>
      cases h
      refine ⟨fun hlive => ?_, fun hin => hw.newest (List.mem_filter.1 hin).1,
        hw.access_rejected, fun c hc hin => hw.refresh_rejected c hc (List.mem_filter.1 hin).1,
        hw.access_filled, fun c hin => hw.refresh_filled c (List.mem_filter.1 hin).1⟩
      obtain ⟨hnewest, hother⟩ := List.mem_filter.1 hlive
      obtain ⟨hsession, haccess | hrefresh⟩ := hw.live hnewest
      · exact ⟨hsession, .inl haccess⟩
      · have hsame : w.credential = w.newest := hw.newest hrefresh
        have hkeep : w.credential ≠ credential := hsame ▸ of_decide_eq_true hother
        exact ⟨hsession, .inr (List.mem_filter.2 ⟨hrefresh, decide_eq_true hkeep⟩)⟩
  | revoke =>
      cases h
      exact ⟨fun hlive => absurd hlive List.not_mem_nil, fun hin => absurd hin List.not_mem_nil,
        fun _ _ => List.not_mem_nil, fun _ _ => List.not_mem_nil, List.not_mem_nil,
        fun _ hin => absurd hin List.not_mem_nil⟩

theorem mem_rotate_access {w : Install} {deviceId refreshToken t : String} {pair : TokenResponse} :
    t ∈ (w.rotate deviceId refreshToken pair).access ↔
      t ∈ w.access ∨ (pair.accessToken ≠ "" ∧ t = pair.accessToken) := by
  unfold rotate
  by_cases hblank : pair.accessToken = ""
  · simp [hblank]
  · simp [hblank, or_comm]

theorem mem_rotate_refresh {w : Install} {deviceId refreshToken : String} {pair : TokenResponse}
    {c : String × String} :
    c ∈ (w.rotate deviceId refreshToken pair).refresh ↔
      (c ∈ w.refresh ∧ c ≠ (deviceId, refreshToken)) ∨
        (pair.refreshToken ≠ "" ∧ c = (deviceId, pair.refreshToken)) := by
  unfold rotate
  by_cases hblank : pair.refreshToken = ""
  · simp [hblank]
  · simp [hblank, or_comm]

/-- A refresh that is carried out. -/
theorem rotate_lawful {w : Install} {deviceId refreshToken : String} {pair : TokenResponse}
    (hw : w.Lawful) (hsession : w.HasSession) (hcredential : w.credential = (deviceId, refreshToken))
    (hin : (deviceId, refreshToken) ∈ w.refresh)
    (haccess : pair.refreshToken ≠ "" → w.token ∈ w.access)
    (hfresh : ¬(pair.accessToken ∈ w.rejectedAccess ∨
      (deviceId, pair.refreshToken) ∈ w.rejectedRefresh)) :
    (w.rotate deviceId refreshToken pair).Lawful := by
  refine ⟨fun hlive => ⟨hsession, .inl ?_⟩, fun hc => ?_, fun t ht htin => ?_,
    fun c hc hcin => ?_, fun hblank => ?_, fun c hc => ?_⟩
  · refine mem_rotate_access.2 (.inl (haccess ?_))
    obtain ⟨hold, _⟩ | ⟨hfilled, _⟩ := mem_rotate_refresh.1 hlive
    · exact (hw.refresh_filled _ hold).2
    · exact hfilled
  · obtain ⟨_, hother⟩ | ⟨_, hnew⟩ := mem_rotate_refresh.1 hc
    · exact absurd hcredential hother
    · exact hnew
  · obtain hold | ⟨_, hnew⟩ := mem_rotate_access.1 htin
    · exact hw.access_rejected t ht hold
    · exact hfresh (.inl (hnew ▸ ht))
  · obtain ⟨hold, _⟩ | ⟨_, hnew⟩ := mem_rotate_refresh.1 hcin
    · exact hw.refresh_rejected c hc hold
    · exact hfresh (.inr (hnew ▸ hc))
  · obtain hold | ⟨hfilled, hnew⟩ := mem_rotate_access.1 hblank
    · exact hw.access_filled hold
    · exact hfilled hnew.symm
  · obtain ⟨hold, _⟩ | ⟨hfilled, hnew⟩ := mem_rotate_refresh.1 hc
    · exact hw.refresh_filled c hold
    · rw [hnew]
      exact ⟨(hw.refresh_filled _ hin).1, hfilled⟩

/-- One write of `save`. -/
theorem write_lawful {w : Install} {key value : String} (hw : w.Lawful)
    (hkept : key = tokenKey →
      value ∈ w.access ∨ w.credential ∈ w.refresh ∨ w.newest ∉ w.refresh)
    (hallowed : Allowed (.write key value) w) : (w.setStored key (some value)).Lawful := by
  obtain ⟨-, hvalue⟩ | ⟨rfl, hvalue⟩ | ⟨rfl, hvalue⟩ := hallowed
  · rw [setStored_same hvalue]
    exact hw
  · refine ⟨fun hlive => ?_, ?_, hw.access_rejected, hw.refresh_rejected, hw.access_filled,
      hw.refresh_filled⟩
    · refine ⟨hasSession_token (hw.live hlive).1 hvalue, ?_⟩
      rw [credential_token, token_token]
      obtain haccess | hrefresh | hdead := hkept rfl
      · exact .inl haccess
      · exact .inr hrefresh
      · exact absurd hlive hdead
    · rw [credential_token]
      exact hw.newest
  · refine ⟨fun hlive => ⟨hasSession_refresh.2 (hw.live hlive).1, .inr ?_⟩, fun _ => ?_,
      hw.access_rejected, hw.refresh_rejected, hw.access_filled, hw.refresh_filled⟩
    · rw [credential_refresh, ← hvalue]
      exact hlive
    · rw [credential_refresh, ← hvalue]
      rfl

/-- A delete changes nothing for a server that does not take the newest token. -/
theorem delete_lawful {w : Install} {key : String} (hw : w.Lawful)
    (hdead : w.newest ∉ w.refresh) : (w.setStored key none).Lawful := by
  refine ⟨fun hlive => absurd hlive hdead, fun hin => ?_, hw.access_rejected,
    hw.refresh_rejected, hw.access_filled, hw.refresh_filled⟩
  have hfilled := hw.refresh_filled _ hin
  have hdevice : key ≠ deviceKey := by
    rintro rfl
    exact hfilled.1 (by simp [credential, stored_setStored])
  have hrefresh : key ≠ refreshKey := by
    rintro rfl
    exact hfilled.2 (by simp [credential, stored_setStored])
  have hsame : (w.setStored key none).credential = w.credential := by
    simp [credential, stored_setStored, hdevice.symm, hrefresh.symm]
  rw [hsame] at hin ⊢
  exact hw.newest hin

/-- **What an allowed call keeps.** -/
theorem exec_lawful {i : Nat} {cmd : Cmd} {o : Oracle} {w w' : Install} {r : cmd.Ans}
    (hw : w.Lawful) (hkept : Kept cmd o w) (hallowed : Allowed cmd w)
    (h : exec i cmd o w = some (w', r)) : w'.Lawful := by
  cases cmd with
  | begin =>
      cases h
      exact lawful_congr hw rfl rfl rfl rfl rfl rfl
  | read key =>
      obtain ⟨-, rfl, -⟩ := exec_read h
      exact hw
  | write key value =>
      obtain ⟨-, rfl, -⟩ := exec_write h
      split
      · exact write_lawful hw hkept.2 hallowed
      · exact hw
  | delete key =>
      obtain ⟨-, rfl⟩ := exec_delete h
      split
      · exact delete_lawful hw hallowed.1
      · exact hw
  | listDevices token =>
      obtain ⟨-, ⟨-, hdead, -, rfl⟩ | ⟨-, -, rfl⟩⟩ := exec_listDevices h
      · refine ⟨hw.live, hw.newest, fun t ht => ?_, hw.refresh_rejected, hw.access_filled,
          hw.refresh_filled⟩
        obtain rfl | ht := List.mem_cons.1 ht
        · exact hdead
        · exact hw.access_rejected t ht
      · exact hw
  | refresh deviceId refreshToken =>
      obtain ⟨-, ⟨-, -, rfl⟩ | ⟨hdead, -, rfl⟩ | ⟨hin, hfresh, -, rfl⟩⟩ := exec_refresh h
      · exact hw
      · refine ⟨hw.live, hw.newest, hw.access_rejected, fun c hc => ?_, hw.access_filled,
          hw.refresh_filled⟩
        obtain rfl | hc := List.mem_cons.1 hc
        · exact hdead
        · exact hw.refresh_rejected c hc
      · exact lawful_congr (rotate_lawful hw hallowed.1 hallowed.2 hin (hkept.2.1 hin).2.2 hfresh)
          rfl rfl rfl rfl rfl rfl

/-! ## The starts -/

def discipline : Discipline starts where
  inv := Lawful
  allowed _ i cmd w := w.current = some i → Allowed cmd w
  presumed _ _ cmd o w := Kept cmd o w
  presumedEnv := KeptEnv

/-- What holds as long as the start goes on. -/
def While (i : Nat) (A : Install → Prop) (w : Install) : Prop := w.current = some i → A w

/-- What the server does beside the starts only takes tokens away. -/
structure Shrunk (w w' : Install) : Prop where
  stored : w'.stored = w.stored
  newest : w'.newest = w.newest
  rejectedAccess : w'.rejectedAccess = w.rejectedAccess
  rejectedRefresh : w'.rejectedRefresh = w.rejectedRefresh
  rotated : w'.rotated = w.rotated
  refresh : ∀ c, c ∈ w'.refresh → c ∈ w.refresh

theorem env_shrunk {e : Env} {w w' : Install} (h : env e w = some w') : Shrunk w w' := by
  cases e with
  | kill =>
      cases h
      exact ⟨rfl, rfl, rfl, rfl, rfl, fun _ hc => hc⟩
  | expireAccess token =>
      cases h
      exact ⟨rfl, rfl, rfl, rfl, rfl, fun _ hc => hc⟩
  | expireRefresh credential =>
      cases h
      exact ⟨rfl, rfl, rfl, rfl, rfl, fun _ hc => (List.mem_filter.1 hc).1⟩
  | revoke =>
      cases h
      exact ⟨rfl, rfl, rfl, rfl, rfl, fun _ hc => absurd hc List.not_mem_nil⟩

theorem env_current {e : Env} {w w' : Install} {i : Nat} (h : env e w = some w')
    (hcurrent : w'.current = some i) : w.current = some i := by
  cases e with
  | kill =>
      cases h
      cases hcurrent
  | _ =>
      cases h
      exact hcurrent

/-- A call of another start leaves this one behind. -/
theorem exec_other {i j : Nat} {cmd : Cmd} {o : Oracle} {w w' : Install} {r : cmd.Ans}
    (hji : j ≠ i) (h : exec j cmd o w = some (w', r)) : w'.current ≠ some i := by
  have hne : some j ≠ some i := fun heq => hji (Option.some.inj heq)
  cases cmd with
  | begin =>
      cases h
      exact hne
  | read key =>
      obtain ⟨hcurrent, rfl, -⟩ := exec_read h
      rwa [hcurrent]
  | write key value =>
      obtain ⟨hcurrent, rfl, -⟩ := exec_write h
      split
      · exact hcurrent.symm ▸ hne
      · rwa [hcurrent]
  | delete key =>
      obtain ⟨hcurrent, rfl⟩ := exec_delete h
      split
      · exact hcurrent.symm ▸ hne
      · rwa [hcurrent]
  | listDevices token =>
      obtain ⟨hcurrent, ⟨-, -, -, rfl⟩ | ⟨-, -, rfl⟩⟩ := exec_listDevices h
      · exact hcurrent.symm ▸ hne
      · rwa [hcurrent]
  | refresh deviceId refreshToken =>
      obtain ⟨hcurrent, ⟨-, -, rfl⟩ | ⟨-, -, rfl⟩ | ⟨-, -, -, rfl⟩⟩ := exec_refresh h
      · rwa [hcurrent]
      · exact hcurrent.symm ▸ hne
      · exact hcurrent.symm ▸ hne

/-- What the server cannot undo holds while the start goes on. -/
theorem while_stable {i : Nat} {A : Install → Prop}
    (h : ∀ w w', Shrunk w w' → A w → A w') : discipline.Stable i (While i A) := by
  intro w w' hother hA hcurrent
  cases hother with
  | act hji _ _ _ hx => exact absurd hcurrent (exec_other hji hx)
  | env _ _ hx => exact h w w' (env_shrunk hx) (hA (env_current hx hcurrent))

/-! ### What a start knows -/

/-- The saved session is what is stored, and nothing has been rotated. -/
structure Holds (saved : OwnerSession) (w : Install) : Prop where
  device : w.stored deviceKey = some saved.deviceId
  user : w.stored userKey = some saved.userId
  token : w.stored tokenKey = some saved.token
  refresh : (w.stored refreshKey).getD "" = saved.refreshToken
  session : w.HasSession
  rotated : w.rotated = none

/-- The devices could not be listed with the stored token. -/
def Unlisted (saved : OwnerSession) (w : Install) : Prop :=
  Holds saved w ∧ (saved.refreshToken ≠ "" ∨ saved.token ∈ w.rejectedAccess)

/-- There is nothing left to authenticate with. -/
def Dead (w : Install) : Prop :=
  w.newest ∉ w.refresh ∧ (w.HasSession → w.BothRejected)

/-- The pair the refresh was answered is in hand, and maybe partly stored. -/
structure Rotated (saved : OwnerSession) (pair : TokenResponse) (w : Install) : Prop where
  device : w.stored deviceKey = some saved.deviceId
  user : w.stored userKey = some saved.userId
  rotated : w.rotated = some pair
  newest : w.newest = (saved.deviceId, pair.refreshToken)
  filled : pair.accessToken ≠ ""

section Stability

variable {i : Nat} {saved : OwnerSession} {pair : TokenResponse}

theorem true_stable : discipline.Stable i fun _ => True := fun _ _ _ _ => trivial

theorem shrunk_holds {w w' : Install} (h : Shrunk w w') (hA : Holds saved w) : Holds saved w' := by
  obtain ⟨hdevice, huser, htoken, hrefresh, hsession, hrotated⟩ := hA
  refine ⟨?_, ?_, ?_, ?_, ?_, ?_⟩
  · rwa [h.stored]
  · rwa [h.stored]
  · rwa [h.stored]
  · rwa [h.stored]
  · simpa only [HasSession, Install.token, h.stored] using hsession
  · rwa [h.rotated]

theorem holds_stable : discipline.Stable i (While i (Holds saved)) :=
  while_stable fun _ _ h => shrunk_holds h

theorem unlisted_stable : discipline.Stable i (While i (Unlisted saved)) :=
  while_stable fun _ _ h hA => ⟨shrunk_holds h hA.1, by rw [h.rejectedAccess]; exact hA.2⟩

theorem dead_stable : discipline.Stable i (While i Dead) := by
  refine while_stable fun w w' h hA => ⟨fun hin => hA.1 ?_, fun hsession => ?_⟩
  · rw [h.newest] at hin
    exact h.refresh _ hin
  · simp only [HasSession, BothRejected, Install.token, credential, h.stored, h.rejectedAccess,
      h.rejectedRefresh] at hsession ⊢
    exact hA.2 hsession

theorem rotated_stable : discipline.Stable i (While i (Rotated saved pair)) := by
  refine while_stable fun w w' h hA => ⟨?_, ?_, ?_, ?_, hA.filled⟩
  · rw [h.stored]
    exact hA.device
  · rw [h.stored]
    exact hA.user
  · rw [h.rotated]
    exact hA.rotated
  · rw [h.newest]
    exact hA.newest

end Stability

/-! ### The store of a start -/

section Store

variable {i : Nat}

theorem read_safe {A : Install → Prop} (hA : ∀ w w', Shrunk w w' → A w → A w') (key : String) :
    discipline.Triple () i (While i A) (secureStore.read key).run
      (Outcome (fun value => While i fun w => A w ∧ w.stored key = value) fun _ _ => True) := by
  refine Discipline.Triple.throws_call (while_stable hA) ?_ ?_
  · intro r
    cases r with
    | error e => exact true_stable
    | ok value =>
        exact while_stable fun w w' h hw => ⟨hA w w' h hw.1, by rw [h.stored]; exact hw.2⟩
  · intro w o _ _ hw
    refine ⟨fun _ => trivial, fun w₁ r hx _ => ?_⟩
    obtain ⟨hcurrent, rfl, rfl⟩ := exec_read hx
    cases o with
    | fine pair => exact fun _ => ⟨hw hcurrent, rfl⟩
    | fails => exact trivial
    | lost pair => exact trivial

theorem dead_delete {w : Install} {key : String} (h : Dead w) : Dead (w.setStored key none) := by
  refine ⟨h.1, fun hsession => ?_⟩
  have hdevice : key ≠ deviceKey := by
    rintro rfl
    exact hsession.1 (by simp [stored_setStored])
  have huser : key ≠ userKey := by
    rintro rfl
    exact hsession.2.1 (by simp [stored_setStored])
  have htoken : key ≠ tokenKey := by
    rintro rfl
    exact hsession.2.2 (by simp [Install.token, stored_setStored])
  simp only [HasSession, Install.token, stored_setStored, hdevice.symm, huser.symm, htoken.symm,
    if_false] at hsession
  have hrejected := h.2 hsession
  have hsame : (w.setStored key none).token = w.token := by
    simp only [Install.token, stored_setStored, htoken.symm, if_false]
  refine ⟨?_, ?_⟩
  · rw [hsame]
    exact hrejected.1
  · by_cases hrefresh : key = refreshKey
    · left
      simp [credential, stored_setStored, hrefresh]
    · have hcredential : (w.setStored key none).credential = w.credential := by
        simp only [credential, stored_setStored, hdevice.symm, Ne.symm hrefresh, if_false]
      rw [hcredential]
      exact hrejected.2

/-- Once it is dead the session may go. -/
theorem delete_safe (key : String) :
    discipline.Triple () i (While i Dead) (secureStore.delete key).run
      (Outcome (fun _ => While i Dead) fun _ _ => True) := by
  refine Discipline.Triple.throws_call dead_stable ?_ ?_
  · intro r
    cases r with
    | error e => exact true_stable
    | ok u => exact dead_stable
  · intro w o _ _ hw
    refine ⟨hw, fun w₁ r hx _ => ?_⟩
    obtain ⟨hcurrent, rfl⟩ := exec_delete hx
    cases r with
    | error e => exact trivial
    | ok u =>
        intro _
        split
        · exact dead_delete (hw hcurrent)
        · exact hw hcurrent

theorem clear_safe :
    discipline.Triple () i (While i Dead) (clear secureStore).run
      (Outcome (fun _ => While i Dead) fun _ _ => True) := by
  have hE : ∀ e : Unit, discipline.Stable i ((fun _ _ => True : Unit → Install → Prop) e) :=
    fun _ => true_stable
  unfold clear
  refine (delete_safe deviceKey).throws_bind hE fun _ => ?_
  refine (delete_safe userKey).throws_bind hE fun _ => ?_
  refine (delete_safe tokenKey).throws_bind hE fun _ => ?_
  exact delete_safe refreshKey

theorem load_safe :
    discipline.Triple () i (While i fun w => w.rotated = none) (load secureStore).run
      (Outcome (fun r w => ∀ saved, r = some saved → While i (Holds saved) w)
        fun _ _ => True) := by
  have hE : ∀ e : Unit, discipline.Stable i ((fun _ _ => True : Unit → Install → Prop) e) :=
    fun _ => true_stable
  have hkey (key : String) (value : Option String) : ∀ w w', Shrunk w w' →
      w.stored key = value → w'.stored key = value := fun w w' h hv => by rw [h.stored]; exact hv
  unfold load
  refine (read_safe (fun w w' h hr => by rw [h.rotated]; exact hr) deviceKey).throws_bind hE
    fun device => ?_
  refine (read_safe (fun w w' h hw => ⟨by rw [h.rotated]; exact hw.1, hkey _ _ w w' h hw.2⟩)
    userKey).throws_bind hE fun user => ?_
  refine (read_safe (fun w w' h hw => ⟨⟨by rw [h.rotated]; exact hw.1.1, hkey _ _ w w' h hw.1.2⟩,
    hkey _ _ w w' h hw.2⟩) tokenKey).throws_bind hE fun token => ?_
  by_cases hblank : device.getD "" = "" ∨ user.getD "" = "" ∨ token.getD "" = ""
  · rw [if_pos hblank]
    have hdead : ∀ w, discipline.inv w →
        While i (fun w => ((w.rotated = none ∧ w.stored deviceKey = device) ∧
          w.stored userKey = user) ∧ w.stored tokenKey = token) w → While i Dead w := by
      intro w hinv hw hcurrent
      obtain ⟨⟨⟨-, hdevice⟩, huser⟩, htoken⟩ := hw hcurrent
      have hpartial : ¬w.HasSession := by
        rintro ⟨h₁, h₂, h₃⟩
        rw [hdevice] at h₁
        rw [huser] at h₂
        rw [Install.token, htoken] at h₃
        simp [h₁, h₂, h₃] at hblank
      exact ⟨fun hlive => hpartial (hinv.live hlive).1, fun h => absurd h hpartial⟩
    refine (clear_safe.pre hdead).throws_bind hE fun _ => ?_
    refine Discipline.Triple.throws_pure ?_ ?_
    · exact Discipline.Stable.all fun saved => Discipline.Stable.imp fun _ => holds_stable
    · intro w _ _ saved h
      cases h
  · rw [if_neg hblank]
    simp only [not_or] at hblank
    refine (read_safe (fun w w' h hw => ⟨⟨⟨by rw [h.rotated]; exact hw.1.1.1,
      hkey _ _ w w' h hw.1.1.2⟩, hkey _ _ w w' h hw.1.2⟩, hkey _ _ w w' h hw.2⟩)
      refreshKey).throws_bind hE fun refresh => ?_
    refine Discipline.Triple.throws_pure ?_ ?_
    · exact Discipline.Stable.all fun saved => Discipline.Stable.imp fun _ => holds_stable
    · intro w _ hw saved hsaved hcurrent
      cases hsaved
      obtain ⟨⟨⟨⟨hrotated, hdevice⟩, huser⟩, htoken⟩, hrefresh⟩ := hw hcurrent
      have hsome {v : Option String} (h : v.getD "" ≠ "") : v = some (v.getD "") := by
        cases v with
        | none => exact absurd rfl h
        | some v => rfl
      refine ⟨?_, ?_, ?_, ?_, ⟨?_, ?_, ?_⟩, hrotated⟩
      · exact hdevice.trans (hsome hblank.1)
      · exact huser.trans (hsome hblank.2.1)
      · exact htoken.trans (hsome hblank.2.2)
      · exact congrArg (·.getD "") hrefresh
      · rw [hdevice]
        exact hblank.1
      · rw [huser]
        exact hblank.2.1
      · rw [Install.token, htoken]
        exact hblank.2.2

variable {saved : OwnerSession} {pair : TokenResponse}

/-- One write of `save`, which does not throw. -/
theorem write_safe {key value : String}
    (hallowed : ∀ w, Rotated saved pair w → Allowed (.write key value) w)
    (hkeep : ∀ w, Rotated saved pair w → Rotated saved pair (w.setStored key (some value))) :
    discipline.Triple () i (While i (Rotated saved pair)) (secureStore.write key value).run
      (Outcome (fun _ => While i (Rotated saved pair)) fun _ => While i Dead) := by
  refine Discipline.Triple.throws_call rotated_stable ?_ ?_
  · intro r
    cases r with
    | error e => exact dead_stable
    | ok u => exact rotated_stable
  · intro w o _ hkept hw
    refine ⟨fun hcurrent => hallowed w (hw hcurrent), fun w₁ r hx _ => ?_⟩
    obtain ⟨hcurrent, rfl, rfl⟩ := exec_write hx
    have hanswers : o.answers = true := hkept.1
    cases o with
    | fine minted => exact fun _ => hkeep w (hw hcurrent)
    | fails => cases hanswers
    | lost minted => cases hanswers

theorem save_safe :
    discipline.Triple () i (While i (Rotated saved pair))
      (save secureStore {
        deviceId := saved.deviceId
        userId := saved.userId
        token := pair.accessToken
        refreshToken := pair.refreshToken }).run
      (Outcome (fun _ => While i (Rotated saved pair)) fun _ => While i Dead) := by
  have hE : ∀ _ : Unit, discipline.Stable i (While i Dead) := fun _ => dead_stable
  have hother {w : Install} {key value : String} (hdevice : deviceKey ≠ key)
      (huser : userKey ≠ key) (hw : Rotated saved pair w) :
      Rotated saved pair (w.setStored key (some value)) := by
    refine ⟨?_, ?_, hw.rotated, hw.newest, hw.filled⟩
    · rw [stored_setStored, if_neg hdevice]
      exact hw.device
    · rw [stored_setStored, if_neg huser]
      exact hw.user
  unfold save
  refine (write_safe ?_ ?_).throws_bind hE fun _ => ?_
  · exact fun w hw => .inl ⟨.inl rfl, hw.device⟩
  · exact fun w hw => by rwa [setStored_same hw.device]
  refine (write_safe ?_ ?_).throws_bind hE fun _ => ?_
  · exact fun w hw => .inl ⟨.inr rfl, hw.user⟩
  · exact fun w hw => by rwa [setStored_same hw.user]
  refine (write_safe ?_ ?_).throws_bind hE fun _ => write_safe ?_ ?_
  · exact fun w hw => .inr (.inl ⟨rfl, hw.filled⟩)
  · exact fun w => hother (by decide) (by decide)
  · refine fun w hw => .inr (.inr ⟨rfl, ?_⟩)
    rw [hw.newest, hw.device]
    rfl
  · exact fun w => hother (by decide) (by decide)

end Store

/-! ### The calls of a start -/

section Api

variable {i : Nat} {saved : OwnerSession} {pair : TokenResponse}

theorem credential_of_holds {w : Install} (h : Holds saved w) :
    w.credential = (saved.deviceId, saved.refreshToken) := by
  rw [credential, h.device, h.refresh]
  rfl

theorem token_of_holds {w : Install} (h : Holds saved w) : w.token = saved.token := by
  rw [Install.token, h.token]
  rfl

/-- The list that a restore starts with. -/
theorem listed_safe :
    discipline.Triple () i (While i (Holds saved)) (listDevices (clientOf saved)).run
      (Outcome (fun _ _ => True) fun _ => While i (Unlisted saved)) := by
  refine Discipline.Triple.throws_call holds_stable ?_ ?_
  · intro r
    cases r with
    | error e => exact unlisted_stable
    | ok u => exact true_stable
  · intro w o _ hkept hw
    refine ⟨fun _ => trivial, fun w₁ r hx _ => ?_⟩
    obtain ⟨hcurrent, ⟨-, -, rfl, rfl⟩ | ⟨hreach, rfl, rfl⟩⟩ := exec_listDevices hx
    · intro _
      obtain ⟨hdevice, huser, htoken, hrefresh, hsession, hrotated⟩ := hw hcurrent
      exact ⟨⟨hdevice, huser, htoken, hrefresh, hsession, hrotated⟩, .inr List.mem_cons_self⟩
    · have hholds := hw hcurrent
      by_cases hanswers : o.answers = true
      · rw [Oracle.answer, if_pos hanswers]
        exact trivial
      · rw [Oracle.answer, if_neg hanswers]
        intro _
        refine ⟨hholds, .inl ?_⟩
        obtain ⟨hr, hdead⟩ | hleft := hkept.1 hholds.rotated (by simpa using hanswers)
        · exact absurd (hreach hr) hdead
        · rwa [credential_of_holds hholds] at hleft

/-- Without a refresh token the rejected access token was all there was. -/
theorem dead_of_blank {w : Install} (hw : w.Lawful) (h : Unlisted saved w)
    (hblank : saved.refreshToken = "") : Dead w := by
  have hcredential : w.credential.2 = "" := by
    rw [credential_of_holds h.1]
    exact hblank
  have hrejected : w.token ∈ w.rejectedAccess := by
    rw [token_of_holds h.1]
    exact h.2.resolve_left fun hne => hne hblank
  refine ⟨fun hlive => ?_, fun _ => ⟨hrejected, .inl hcredential⟩⟩
  obtain ⟨-, haccess | hrefresh⟩ := hw.live hlive
  · exact hw.access_rejected _ hrejected haccess
  · exact (hw.refresh_filled _ hrefresh).2 hcredential

/-- With both tokens rejected nothing is left. -/
theorem dead_of_rejected {w : Install} (hw : w.Lawful) (haccess : w.token ∈ w.rejectedAccess)
    (hrefresh : w.credential ∈ w.rejectedRefresh) : Dead w := by
  refine ⟨fun hlive => ?_, fun _ => ⟨haccess, .inr hrefresh⟩⟩
  obtain ⟨-, ha | hr⟩ := hw.live hlive
  · exact hw.access_rejected _ haccess ha
  · exact hw.refresh_rejected _ hrefresh hr

/-- The refresh of a restore: nothing is left, or a pair is in hand. -/
theorem refresh_safe :
    discipline.Triple () i (While i (Unlisted saved))
      (refresh (clientOf saved) saved.deviceId).run
      (Outcome (fun api w => ∃ pair, api = (clientOf saved).withTokens pair ∧
        While i (Rotated saved pair) w) fun _ => While i Dead) := by
  have hE : ∀ _ : Unit, discipline.Stable i (While i Dead) := fun _ => dead_stable
  unfold refresh
  by_cases hblank : (clientOf saved).refreshToken = ""
  · rw [if_pos hblank]
    exact Discipline.Triple.throws_throw dead_stable fun w hinv hw hcurrent =>
      dead_of_blank hinv (hw hcurrent) hblank
  · rw [if_neg hblank]
    have hcall : discipline.Triple () i (While i (Unlisted saved))
        (call (.refresh saved.deviceId saved.refreshToken))
        (Outcome (fun pair => While i (Rotated saved pair)) fun _ => While i Dead) := by
      refine Discipline.Triple.throws_call unlisted_stable ?_ ?_
      · intro r
        cases r with
        | error e => exact dead_stable
        | ok pair => exact rotated_stable
      · intro w o hinv hkept hw
        refine ⟨fun hcurrent => ?_, fun w₁ r hx hinv₁ => ?_⟩
        · exact ⟨(hw hcurrent).1.session, credential_of_holds (hw hcurrent).1⟩
        obtain ⟨hcurrent, hstep⟩ := exec_refresh hx
        have hholds := (hw hcurrent).1
        have hcredential := credential_of_holds hholds
        obtain ⟨hreach, -, -⟩ | ⟨hdead, rfl, rfl⟩ | ⟨hin, -, rfl, rfl⟩ := hstep
        · exact absurd (hkept.1.symm.trans hreach) (by decide)
        · intro _
          refine dead_of_rejected hinv₁ (hkept.2.2 hdead) ?_
          exact hcredential ▸ List.mem_cons_self
        · obtain ⟨hanswers, hfilled, -⟩ := hkept.2.1 hin
          rw [Oracle.answer, if_pos hanswers]
          intro _
          exact ⟨hholds.device, hholds.user, by rw [if_pos hanswers], rfl, hfilled⟩
    refine hcall.throws_bind hE fun pair => ?_
    refine Discipline.Triple.throws_pure ?_ fun w _ hw => ⟨pair, rfl, hw⟩
    exact Discipline.Stable.ex fun p => (Discipline.stable_const _).and rotated_stable

/-- The list with the new pair, which does not throw. -/
theorem relisted_safe :
    discipline.Triple () i (While i (Rotated saved pair))
      (listDevices ((clientOf saved).withTokens pair)).run
      (Outcome (fun _ => While i (Rotated saved pair)) fun _ => While i Dead) := by
  refine Discipline.Triple.throws_call rotated_stable ?_ ?_
  · intro r
    cases r with
    | error e => exact dead_stable
    | ok u => exact rotated_stable
  · intro w o _ hkept hw
    refine ⟨fun _ => trivial, fun w₁ r hx _ => ?_⟩
    obtain ⟨hcurrent, hstep⟩ := exec_listDevices hx
    have hrotated := hw hcurrent
    obtain ⟨hanswers, hlive⟩ := hkept.2 (by rw [hrotated.rotated]; exact Option.some_ne_none _)
    obtain ⟨-, hdead, -, -⟩ | ⟨-, rfl, rfl⟩ := hstep
    · exact absurd hlive hdead
    · rw [Oracle.answer, if_pos hanswers]
      exact hw

theorem return_safe (r : CalcarStart × Client) {A : Install → Prop} {E : Unit → Install → Prop} :
    discipline.Triple () i A (pure r : App (CalcarStart × Client)).run
      (Outcome (fun _ _ => True) E) :=
  Discipline.Triple.throws_pure true_stable fun _ _ _ => trivial

theorem rotateSession_safe :
    discipline.Triple () i (While i (Unlisted saved)) (rotateSession saved).run
      (Outcome (fun _ _ => True) fun _ => While i Dead) := by
  have hE : ∀ _ : Unit, discipline.Stable i (While i Dead) := fun _ => dead_stable
  unfold rotateSession
  refine refresh_safe.throws_bind hE fun api => Discipline.Triple.intro fun w hinv hw => ?_
  obtain ⟨pair, rfl, hw⟩ := hw
  refine Discipline.Triple.safe ?_ hinv hw
  refine relisted_safe.throws_bind hE fun _ => ?_
  exact save_safe.throws_bind hE fun _ => return_safe _

/-- **A restore** issues no call that breaks the laws. -/
theorem restore_safe :
    discipline.Triple () i (While i fun w => w.rotated = none) restoreSession.run
      (Outcome (fun _ _ => True) fun _ _ => True) := by
  have hE : ∀ e : Unit, discipline.Stable i ((fun _ _ => True : Unit → Install → Prop) e) :=
    fun _ => true_stable
  unfold restoreSession
  refine load_safe.throws_bind hE fun r => ?_
  cases r with
  | none => exact return_safe _
  | some saved =>
      have hholds : ∀ w, discipline.inv w →
          (∀ saved', some saved = some saved' → While i (Holds saved') w) →
          While i (Holds saved) w := fun _ _ h => h saved rfl
      refine Discipline.Triple.throws_catch (fun _ => true_stable)
        ((listed_safe.pre hholds).throws_bind (fun _ => unlisted_stable) fun _ => return_safe _)
        fun _ => ?_
      refine Discipline.Triple.throws_catch (fun _ => true_stable) rotateSession_safe fun _ => ?_
      exact clear_safe.throws_bind hE fun _ => return_safe _

theorem main_safe (w : Install) (hw : w.Lawful) :
    discipline.Safe () i (Outcome (fun _ _ => True) fun _ _ => True) main w := by
  have hbegin : discipline.Triple () i (fun _ => True) (call .begin)
      fun _ => While i fun w => w.rotated = none := by
    refine Discipline.Triple.throws_call true_stable ?_ ?_
    · exact fun _ => while_stable fun w w' h hr => by rw [h.rotated]; exact hr
    · intro w o _ _ _
      refine ⟨fun _ => trivial, fun w₁ r hx _ => ?_⟩
      cases hx
      exact fun _ => rfl
  exact (hbegin.bind fun _ => restore_safe).safe hw trivial

end Api

/-! ## Runs -/

/-- A run of starts. -/
abbrev Starts : Type := Config Unit Install Cmd Cmd.Ans (Except Unit (CalcarStart × Client))

/-- The step keeps to the condition. -/
def KeptStep (c : Starts) : Label Unit Oracle Env → Prop
  | .spawn _ => True
  | .act i o => ∀ cmd k, c.pool[i]? = some ((), .call cmd k) → Kept cmd o c.world
  | .env e => KeptEnv e c.world

theorem kept_presumed (c : Starts) (l : Label Unit Oracle Env) (h : KeptStep c l) :
    discipline.Presumes c l := by
  cases l with
  | spawn t => exact trivial
  | act i o => exact fun t cmd k hi => h cmd k hi
  | env e => exact h

theorem signedIn_lawful {session : OwnerSession} (hdevice : session.deviceId ≠ "")
    (huser : session.userId ≠ "") (htoken : session.token ≠ "")
    (other : String → Option String) : (signedIn session other).Lawful := by
  have hsession : (signedIn session other).HasSession := by
    refine ⟨?_, ?_, ?_⟩
    · simpa [signedIn] using hdevice
    · simpa [signedIn, userKey, deviceKey] using huser
    · simpa [Install.token, signedIn, userKey, deviceKey, tokenKey] using htoken
  have haccess : (signedIn session other).token ∈ (signedIn session other).access := by
    simp [Install.token, signedIn, userKey, deviceKey, tokenKey]
  have hcredential : (signedIn session other).credential = (signedIn session other).newest := by
    simp [credential, signedIn, userKey, deviceKey, tokenKey, refreshKey]
  refine ⟨fun _ => ⟨hsession, .inl haccess⟩, fun _ => hcredential, fun t ht => ?_,
    fun c hc => ?_, fun hin => ?_, fun c hc => ?_⟩
  · cases ht
  · cases hc
  · exact htoken (List.mem_singleton.1 hin).symm
  · unfold signedIn at hc
    dsimp only at hc
    split at hc
    · cases hc
    · rw [List.mem_singleton.1 hc]
      exact ⟨hdevice, ‹_›⟩

/-- A call that is carried out is one of the start that goes on. -/
theorem allowed_of_exec {j : Nat} {cmd : Cmd} {o : Oracle} {w w' : Install} {r : cmd.Ans}
    (h : w.current = some j → Allowed cmd w) (hx : exec j cmd o w = some (w', r)) :
    Allowed cmd w := by
  cases cmd with
  | begin => exact trivial
  | read key => exact trivial
  | write key value => exact h (exec_write hx).1
  | delete key => exact h (exec_delete hx).1
  | listDevices token => exact trivial
  | refresh deviceId refreshToken => exact h (exec_refresh hx).1

/-- **The session goes** only with a delete, once both tokens were rejected. -/
theorem exec_session {i : Nat} {cmd : Cmd} {o : Oracle} {w w' : Install} {r : cmd.Ans}
    (hallowed : Allowed cmd w) (hx : exec i cmd o w = some (w', r)) (hsession : w.HasSession)
    (hgone : ¬w'.HasSession) : w.BothRejected := by
  cases cmd with
  | begin =>
      cases hx
      exact absurd hsession hgone
  | read key =>
      obtain ⟨-, rfl, -⟩ := exec_read hx
      exact absurd hsession hgone
  | write key value =>
      obtain ⟨-, rfl, -⟩ := exec_write hx
      refine absurd ?_ hgone
      split
      · obtain ⟨-, hvalue⟩ | ⟨rfl, hvalue⟩ | ⟨rfl, -⟩ := hallowed
        · rwa [setStored_same hvalue]
        · exact hasSession_token hsession hvalue
        · exact hasSession_refresh.2 hsession
      · exact hsession
  | delete key => exact hallowed.2 hsession
  | listDevices token =>
      obtain ⟨-, ⟨-, -, -, rfl⟩ | ⟨-, -, rfl⟩⟩ := exec_listDevices hx
      · exact absurd hsession hgone
      · exact absurd hsession hgone
  | refresh deviceId refreshToken =>
      obtain ⟨-, ⟨-, -, rfl⟩ | ⟨-, -, rfl⟩ | ⟨-, -, -, rfl⟩⟩ := exec_refresh hx
      · exact absurd hsession hgone
      · exact absurd hsession hgone
      · exact absurd hsession hgone

theorem kept_sound {w : Install} (hw : w.Lawful) {c : Starts}
    (hrun : starts.Reach KeptStep ⟨w, []⟩ c) :
    c.world.Lawful ∧ ∀ i t p, c.pool[i]? = some (t, p) →
      discipline.Safe t i (Outcome (fun _ _ => True) fun _ _ => True) p c.world := by
  have hsound := discipline.sound (Q := fun _ _ => Outcome (fun _ _ => True) fun _ _ => True)
    (h := hrun.mono kept_presumed) ?_ (fun e w w' hinv hkept h => env_lawful hinv hkept h)
    (fun _ _ => true_stable) (fun t i w _ hinv _ => main_safe w hinv)
    (show discipline.inv (⟨w, []⟩ : Starts).world from hw) (fun _ _ => trivial) ?_
  · exact ⟨hsound.2.1, hsound.2.2.2⟩
  · intro t j cmd o w w' r hinv hkept hallowed hx
    exact exec_lawful hinv hkept (allowed_of_exec hallowed hx) hx
  · intro i t p h
    cases h

/-- **Session restore.** In every run of starts from a login whose calls keep to
the condition: the stored pair is one the server takes as long as it takes the
newest refresh token, and a step after which no session is stored any more finds
both stored tokens rejected. -/
theorem session_restore {session : OwnerSession} (hdevice : session.deviceId ≠ "")
    (huser : session.userId ≠ "") (htoken : session.token ≠ "")
    (other : String → Option String) {c : Starts}
    (hrun : starts.Reach KeptStep ⟨signedIn session other, []⟩ c) :
    (c.world.newest ∈ c.world.refresh → c.world.Authenticates) ∧
      ∀ l c', KeptStep c l → starts.next c l = some c' → c.world.HasSession →
        ¬c'.world.HasSession → c.world.BothRejected := by
  obtain ⟨hlawful, hsafe⟩ := kept_sound (signedIn_lawful hdevice huser htoken other) hrun
  refine ⟨hlawful.live, fun l c' hkept hnext hsession hgone => ?_⟩
  cases l with
  | spawn t =>
      cases hnext
      exact absurd hsession hgone
  | act i o =>
      obtain ⟨t, cmd, k, w, r, hi, hx, rfl⟩ := System.next_act hnext
      have hissued := (hsafe i t _ hi).issues hlawful (hkept cmd k hi)
      exact exec_session (allowed_of_exec hissued hx) hx hsession hgone
  | env e =>
      obtain ⟨w, hx, rfl⟩ := System.next_env hnext
      have hstored : w.stored = c.world.stored := (env_shrunk hx).stored
      refine absurd ?_ hgone
      simpa only [HasSession, Install.token, hstored] using hsession

/-! ### Two starts -/

instance (cmd : Cmd) (o : Oracle) (w : Install) : Decidable (Kept cmd o w) :=
  match cmd with
  | .listDevices _ => inferInstanceAs (Decidable ((_ → _ → _ ∨ _) ∧ (_ → _ ∧ _)))
  | .refresh _ _ => inferInstanceAs (Decidable (_ ∧ (_ → _ ∧ _ ∧ (_ → _)) ∧ (_ → _)))
  | .write _ _ => inferInstanceAs (Decidable (_ ∧ (_ → _)))
  | .begin | .read _ | .delete _ => inferInstanceAs (Decidable True)

/-- `KeptEnv`, computed. -/
def keptEnv (e : Env) (w : Install) : Bool :=
  match e with
  | .expireAccess t =>
      t != w.token || w.refresh.contains w.credential || !w.refresh.contains w.newest
  | .kill | .expireRefresh _ | .revoke => true

theorem keptEnv_sound {e : Env} {w : Install} (h : keptEnv e w = true) : KeptEnv e w := by
  rintro t rfl rfl
  simpa [keptEnv] using h

/-- `KeptStep`, computed. -/
def keptStep (c : Starts) : Label Unit Oracle Env → Bool
  | .spawn _ => true
  | .act i o => System.callChecks c i fun cmd => decide (Kept cmd o c.world)
  | .env e => keptEnv e c.world

theorem keptStep_sound (c : Starts) (l : Label Unit Oracle Env) (h : keptStep c l = true) :
    KeptStep c l := by
  cases l with
  | spawn t => exact trivial
  | act i o => exact fun cmd k hi => of_decide_eq_true (System.callChecks_call h hi)
  | env e => exact keptEnv_sound h

namespace Sample

def session : OwnerSession where
  deviceId := "RD-1"
  userId := "U-1"
  token := "access"
  refreshToken := "refresh"

def signedIn : Install := Restore.signedIn session fun _ => none

/-- A call that is answered. -/
def fine : Oracle := .fine ⟨"", ""⟩

/-- The first list fails on the way, and the start rotates the pair. -/
def rotation : List (Label Unit Oracle Env) :=
  .spawn () :: List.replicate 5 (.act 0 fine) ++
    [.act 0 .fails, .act 0 (.fine ⟨"access-2", "refresh-2"⟩)] ++ List.replicate 5 (.act 0 fine)

/-- The phone is revoked, and the next start has both tokens rejected. -/
def rejection : List (Label Unit Oracle Env) :=
  .env .revoke :: .spawn () :: List.replicate 7 (.act 1 fine)

/-- The state after a list of steps. -/
def after (c : Starts) (ls : List (Label Unit Oracle Env)) : Starts :=
  (starts.followWhere keptStep c ls).getD c

def rotated : Starts := after ⟨signedIn, []⟩ rotation
def rejected : Starts := after rotated rejection

theorem runs_rotated : starts.followWhere keptStep ⟨signedIn, []⟩ rotation = some rotated := by
  unfold rotated after
  exact (Option.getD_of_ne_none (Option.isSome_iff_ne_none.1 (by decide)) _).symm

theorem runs_rejected : starts.followWhere keptStep rotated rejection = some rejected := by
  unfold rejected after
  exact (Option.getD_of_ne_none (Option.isSome_iff_ne_none.1 (by decide)) _).symm

end Sample

open Sample in
/-- A start that rotates leaves the new pair stored and alive; the start after the
revocation clears it once both tokens were rejected. -/
theorem session_restore_sample :
    (starts.Reach KeptStep ⟨Sample.signedIn, []⟩ rotated ∧
      rotated.world.newest = ("RD-1", "refresh-2") ∧ rotated.world.Authenticates) ∧
    starts.Reach KeptStep ⟨Sample.signedIn, []⟩ rejected ∧ rejected.world.HasSession ∧
      (∃ c', starts.next rejected (.act 1 fine) = some c' ∧ ¬c'.world.HasSession) ∧
      rejected.world.BothRejected := by
  have hrotated : starts.Reach KeptStep ⟨Sample.signedIn, []⟩ rotated :=
    System.followWhere_reach keptStep_sound runs_rotated
  have hrejected : starts.Reach KeptStep ⟨Sample.signedIn, []⟩ rejected :=
    hrotated.trans (System.followWhere_reach keptStep_sound runs_rejected)
  have hcleared : (starts.next rejected (.act 1 fine)).map
      (fun c => decide c.world.HasSession) = some false := by decide
  obtain ⟨c', hnext, hsession⟩ := Option.map_eq_some_iff.1 hcleared
  have hgone : ¬c'.world.HasSession := of_decide_eq_false hsession
  have hlive := (session_restore (by decide) (by decide) (by decide) _ hrotated).1
  have hboth := (session_restore (by decide) (by decide) (by decide) _ hrejected).2
    (.act 1 fine) c' (keptStep_sound _ _ (by decide)) hnext (by decide) hgone
  exact ⟨⟨hrotated, by decide, hlive (by decide)⟩, hrejected, by decide,
    ⟨c', hnext, hgone⟩, hboth⟩

/-- A start that reaches the server with neither call clears the session. -/
theorem offline_start_clears :
    ¬∀ (session : OwnerSession), session.deviceId ≠ "" → session.userId ≠ "" →
      session.token ≠ "" → ∀ (other : String → Option String) (c : Starts),
      starts.Reach (fun _ _ => True) ⟨signedIn session other, []⟩ c →
      (c.world.newest ∈ c.world.refresh → c.world.Authenticates) ∧
        ∀ l c', starts.next c l = some c' → c.world.HasSession → ¬c'.world.HasSession →
          c.world.BothRejected := by
  intro h
  have hrun := System.serve_reach (S := starts) ⟨Sample.signedIn, []⟩ ()
    (List.replicate 5 (.fine ⟨"", ""⟩) ++ [.fails, .fails] ++
      List.replicate 4 (.fine ⟨"", ""⟩))
  have hlaws := h Sample.session (by decide) (by decide) (by decide) (fun _ => none) _ hrun
  have hlive := hlaws.1 (by decide)
  exact absurd hlive.1 (by decide)

end Calcar.Phone.Restore
