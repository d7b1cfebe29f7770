import Calcar.Phone.SnapshotSource

/-!
# Rows of one session

Presence and the Owner id are derived from the rows a fetch asked for itself, or
from the rows of an earlier reply.  Those are filed under the token the client
has when the reply comes, so they are the rows of that session as long as no
reply comes after the token it was asked for with.

## Main results

* `next_bound` — a step keeps the rows of a session to it, if its reply is in time.
* `session_bound_rows` — so does a run, and a reply that is late breaks it.
* `late_rows_used` — the Owner id of a session from the rows of the one before.
-/

namespace Calcar.Phone.SnapshotSource

open DeviceList Lib HttpSnapshotSource

/-- The rows presence or the Owner id is derived from. -/
def Stage.derivedFrom : Stage → Option Rows
  | .looking rows => some rows
  | .presence rows _ => some rows
  | .owner rows _ => some rows
  | .listing | .devices _ | .failed => none

/-- What a call derives, it derives from rows that were requested under its token. -/
def Call.Bound (c : Call) : Prop :=
  ∀ rows, c.stage.derivedFrom = some rows → rows.requestedUnder = c.token

def SessionBound (s : HttpSnapshotSource) : Prop := ∀ c ∈ s.calls, c.Bound

/-- Rows that come, come while the client has the token they were requested under. -/
def InTime (s : HttpSnapshotSource) (e : Event) : Prop :=
  ∀ call devices, e = .listReply call (some devices) →
    ∀ c, s.calls[call]? = some c → c.token = s.token

theorem inTime_fetch {s : HttpSnapshotSource} {fetch : Fetch} : InTime s (.fetch fetch) :=
  fun _ _ h => by cases h

theorem inTime_setToken {s : HttpSnapshotSource} {token : Option String} :
    InTime s (.setToken token) :=
  fun _ _ h => by cases h

theorem inTime_reply {s : HttpSnapshotSource} {call : Nat} {reply : Option (List DeviceList.Device)}
    {c : Call} (hc : s.calls[call]? = some c) (htoken : c.token = s.token) :
    InTime s (.listReply call reply) := by
  rintro _ _ h c' hc'
  cases h
  cases hc.symm.trans hc'
  exact htoken

/-- The rows kept are those of the token they are filed under. -/
structure Filed (s : HttpSnapshotSource) : Prop where
  bound : SessionBound s
  rows : ∀ rows, s.devices = some rows → rows.requestedUnder = s.devicesToken

theorem derive_rows {rows rows' : Rows} {fetch : Fetch}
    (h : (derive rows fetch).derivedFrom = some rows') : rows' = rows := by
  cases fetch with
  | devices => cases h
  | presence => exact (Option.some.inj h).symm
  | owner => exact (Option.some.inj h).symm

theorem knownDevices_eq {s : HttpSnapshotSource} {rows : Rows} :
    s.knownDevices = some rows ↔ s.devices = some rows ∧ s.devicesToken = s.token := by
  unfold knownDevices
  cases s.devices with
  | none => simp
  | some rows' => by_cases h : s.devicesToken = s.token <;> simp [h]

/-- A call that derives at once uses the rows that are known. -/
theorem start_rows {s : HttpSnapshotSource} {fetch : Fetch} {rows : Rows}
    (h : (s.start fetch).derivedFrom = some rows) : s.knownDevices = some rows := by
  cases hknown : s.knownDevices with
  | none =>
      cases fetch <;> simp [start, hknown, Stage.derivedFrom] at h
  | some rows' =>
      cases fetch with
      | devices => cases h
      | presence =>
          simp only [start, hknown] at h
          rw [derive_rows h]
      | owner =>
          simp only [start, hknown] at h
          rw [derive_rows h]

theorem start_bound {s : HttpSnapshotSource} (h : Filed s) (fetch : Fetch) :
    (⟨fetch, s.token, s.start fetch⟩ : Call).Bound := by
  intro rows hrows
  obtain ⟨hdevices, htoken⟩ := knownDevices_eq.mp (start_rows hrows)
  exact (h.rows rows hdevices).trans htoken

/-- A call that goes on is bound if what it goes on to is. -/
theorem setStage_bound {s : HttpSnapshotSource} (h : SessionBound s) (call : Nat) (c : Call)
    {stage : Stage} (hc : ({ c with stage := stage } : Call).Bound) :
    SessionBound (s.setStage call c stage) := by
  intro c' hmem
  obtain hold | hnew := List.mem_or_eq_of_mem_set hmem
  · exact h c' hold
  · exact hnew ▸ hc

/-- **What one step keeps.** -/
theorem next_bound {s s' : HttpSnapshotSource} {e : Event} (h : Filed s) (hin : InTime s e)
    (hnext : s.next e = some s') : Filed s' := by
  cases e with
  | setToken token =>
      cases hnext
      exact ⟨h.bound, h.rows⟩
  | fetch fetch =>
      cases hnext
      refine ⟨fun c hc => ?_, h.rows⟩
      obtain hold | hnew := List.mem_append.mp hc
      · exact h.bound c hold
      · rw [List.mem_singleton.mp hnew]
        exact start_bound h fetch
  | listReply call reply =>
      simp only [next] at hnext
      split at hnext
      · rename_i fetch token hcall
        cases reply with
        | none =>
            cases hnext
            exact ⟨setStage_bound h.bound call _ (fun _ hnone => nomatch hnone), h.rows⟩
        | some devices =>
            cases hnext
            have htoken : token = s.token := hin call devices rfl _ hcall
            refine ⟨setStage_bound h.bound call _ fun rows hrows => ?_, fun rows hrows => ?_⟩
            · rw [derive_rows hrows]
            · cases hrows
              exact htoken
      · cases hnext
  | presenceReplies call replies =>
      simp only [next] at hnext
      split at hnext
      · rename_i fetch token rows hcall
        have hmem := List.mem_of_getElem? hcall
        have hrows : rows.requestedUnder = token := h.bound _ hmem rows rfl
        split at hnext
        · split at hnext
          · cases hnext
            refine ⟨setStage_bound h.bound call _ fun rows' hrows' => ?_, h.rows⟩
            cases hrows'
            exact hrows
          · cases hnext
            exact ⟨setStage_bound h.bound call _ (fun _ hnone => nomatch hnone), h.rows⟩
        · cases hnext
      · cases hnext

/-- A late reply files its rows under the token of another session. -/
theorem late_reply {s s' : HttpSnapshotSource} {call : Nat} {devices : List DeviceList.Device}
    {c : Call}
    (hcall : s.calls[call]? = some c) (hlate : c.token ≠ s.token)
    (hnext : s.next (.listReply call (some devices)) = some s') :
    s'.knownDevices = some ⟨devices, c.token⟩ ∧ s'.token = s.token := by
  simp only [next] at hnext
  split at hnext
  · rename_i fetch token hcall'
    cases hcall.symm.trans hcall'
    cases hnext
    exact ⟨knownDevices_eq.mpr ⟨rfl, rfl⟩, rfl⟩
  · cases hnext

/-- **Rows of one session.**  In a run whose rows all come in time nothing is derived from
rows that were requested under another token; and once some rows have come late, the next
`fetchPresence` is. -/
theorem session_bound_rows (token : Option String) (es : List Event) :
    (Every next (fun s e _ => InTime s e) { token := token } es →
      ∀ s, follow next { token := token } es = some s → SessionBound s) ∧
    (∀ s s' e, follow next { token := token } es = some s → s.next e = some s' → ¬ InTime s e →
      ∃ s'', follow next { token := token } (es ++ [e, .fetch .presence]) = some s'' ∧
        ¬ SessionBound s'') := by
  constructor
  · intro htime s hrun
    have hfirst : Filed { token := token } :=
      ⟨fun _ hc => (nomatch hc), fun _ hrows => (nomatch hrows)⟩
    have hstep : ∀ s e s', Filed s → True → next s e = some s' → InTime s e → Filed s' :=
      fun _ _ _ h _ hnext hin => next_bound h hin hnext
    exact (htime.keeps Filed (fun _ => True) hstep (fun _ _ => trivial) hfirst hrun).bound
  · intro s s' e hrun hnext hlate
    simp only [InTime, Classical.not_forall] at hlate
    obtain ⟨call, devices, rfl, c, hcall, htoken⟩ := hlate
    obtain ⟨hknown, hsame⟩ := late_reply hcall htoken hnext
    have hstart : s'.start .presence = .looking ⟨devices, c.token⟩ := by
      simp only [start, hknown, derive]
    refine ⟨{ s' with calls := s'.calls ++ [⟨.presence, s'.token, s'.start .presence⟩] }, ?_,
      fun hbound => ?_⟩
    · rw [follow_append, hrun, Option.bind_some, follow, hnext]
      rfl
    · have hcall := hbound _ (List.mem_append_right _ (List.mem_singleton_self _))
      rw [hstart] at hcall
      exact htoken ((hcall _ rfl).trans hsame)

/-- A second login while the rows of the first are on their way. -/
theorem late_rows_used :
    ∃ s, follow next { token := some "t1" } [.fetch .devices, .setToken (some "t2"),
        .listReply 0 (some [⟨"PH-1", "owner_phone", "Phone", "", "", false, ""⟩]),
        .fetch .owner] = some s ∧ ¬ SessionBound s := by
  refine ⟨_, rfl, fun h => ?_⟩
  have hcall := h ⟨.owner, some "t2",
    .owner ⟨[⟨"PH-1", "owner_phone", "Phone", "", "", false, ""⟩], some "t1"⟩ "PH-1"⟩
    (by decide +kernel) _ rfl
  exact absurd hcall (by decide)

/-- A run in time: the token changes and changes back before the first reply, and a login
later the rows are asked for anew. -/
def relogin : List Event :=
  [.fetch .devices, .setToken (some "t2"), .setToken (some "t1"),
    .listReply 0 (some [⟨"PH-1", "owner_phone", "Phone", "", "", false, ""⟩]),
    .fetch .presence, .setToken (some "t2"), .fetch .presence,
    .listReply 2 (some [⟨"PH-2", "owner_phone", "Phone", "", "", false, ""⟩]), .fetch .owner]

/-- Rows that come in time, used in their session and asked for anew in the next. -/
theorem session_bound_rows_in_time :
    ∃ s, follow next { token := some "t1" } relogin = some s ∧ s.token = some "t2" ∧
      SessionBound s := by
  have htime : Every next (fun s e _ => InTime s e) { token := some "t1" } relogin := by
    refine Every.cons rfl inTime_fetch (Every.cons rfl inTime_setToken
      (Every.cons rfl inTime_setToken (Every.cons rfl (inTime_reply rfl rfl)
      (Every.cons rfl inTime_fetch (Every.cons rfl inTime_setToken
      (Every.cons rfl inTime_fetch (Every.cons rfl (inTime_reply rfl rfl)
      (Every.cons rfl inTime_fetch trivial))))))))
  exact ⟨_, rfl, rfl, (session_bound_rows (some "t1") relogin).1 htime _ rfl⟩

end Calcar.Phone.SnapshotSource
