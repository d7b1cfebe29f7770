import Calcar.Lib.Keyed
import Calcar.Trust.Approvals

/-!
# Single resolve

The two maps of the registry hold one approval under each id, and a call works
on the approval it names alone.  An approval waits, is decided or expires, and
stays what it has become.

## Main results

* `resolve_cases` — what a `Resolve` does.
* `after_represents` — the maps are the approvals the calls left.
* `resolve_once` — what a run of calls makes of an id.
-/

namespace Calcar.Trust.ApprovalRegistry

open Lib

inductive Call where
  | create (approvalId : String) (expiresAtMillis : Int)
  | resolve (approvalId : String) (decision : ApprovalDecision) (nowMillis : Int)
  deriving DecidableEq, Repr

/-- The id a call names. -/
def Call.id : Call → String
  | .create approvalId _ => approvalId
  | .resolve approvalId _ _ => approvalId

/-- Each call works on the approval it names. -/
def Call.key (c : Call) : Option String := some c.id

theorem Call.key_eq {c : Call} {id : String} : c.key = some id ↔ c.id = id :=
  Option.some_inj

def call (r : ApprovalRegistry) : Call → Except TrustError Unit × ApprovalRegistry
  | .create approvalId expiresAtMillis => r.create approvalId expiresAtMillis
  | .resolve approvalId decision nowMillis => r.resolve approvalId decision nowMillis

/-- The registry after the calls. -/
def after (calls : List Call) : ApprovalRegistry :=
  calls.foldl (fun r c => (r.call c).2) newApprovalRegistry

theorem after_concat (calls : List Call) (c : Call) :
    after (calls ++ [c]) = ((after calls).call c).2 := by
  simp [after]

/-! ## One approval -/

/-- What is known of one id. -/
structure Approval where
  state : ApprovalState
  expiresAt : Int

/-- A waiting approval takes a decision until it expires. -/
def Approval.resolved (decision : ApprovalDecision) (nowMillis : Int) (a : Approval) : Approval :=
  if a.state ≠ .pending then a
  else if a.expiresAt ≤ nowMillis then { a with state := .expired }
  else
    match decision with
    | .allow => { a with state := .approved }
    | .reject => { a with state := .rejected }
    | _ => a

/-- What a call makes of the approval it names. -/
def Call.next : Call → Option Approval → Option Approval
  | .create approvalId expiresAtMillis, none =>
      if approvalId = "" then none else some ⟨.pending, expiresAtMillis⟩
  | .create _ _, some a => some a
  | .resolve _ decision nowMillis, a => a.map (Approval.resolved decision nowMillis)

/-- The approval under an id after the calls. -/
def approval (id : String) (calls : List Call) : Option Approval :=
  cell Call.key Call.next id calls

/-- The maps of a registry hold this approval. -/
structure Represents (r : ApprovalRegistry) (id : String) (a : Option Approval) : Prop where
  states : r.states id = a.map Approval.state
  expires : r.expires id = a.map Approval.expiresAt

/-- A call keeps what the maps hold of other ids. -/
theorem call_off {r : ApprovalRegistry} {c : Call} {id : String} (h : id ≠ c.id) :
    (r.call c).2.states id = r.states id ∧ (r.call c).2.expires id = r.expires id := by
  cases c with
  | create approvalId expiresAtMillis =>
      have hid : id ≠ approvalId := h
      unfold call create
      dsimp only
      split
      · exact ⟨rfl, rfl⟩
      · split
        · exact ⟨rfl, rfl⟩
        · exact ⟨if_neg hid, if_neg hid⟩
  | resolve approvalId decision nowMillis =>
      have hid : id ≠ approvalId := h
      have hset : ∀ s, (r.setState approvalId s).states id = r.states id := fun s => if_neg hid
      unfold call resolve
      dsimp only
      split
      · exact ⟨rfl, rfl⟩
      · split
        · exact ⟨rfl, rfl⟩
        · split
          · exact ⟨hset _, rfl⟩
          · split
            · exact ⟨hset _, rfl⟩
            · exact ⟨hset _, rfl⟩
            · exact ⟨rfl, rfl⟩

theorem Represents.setState {r : ApprovalRegistry} {id : String} {a : Approval}
    (h : Represents r id (some a)) (s : ApprovalState) :
    Represents (r.setState id s) id (some { a with state := s }) :=
  ⟨if_pos rfl, h.expires⟩

/-- **What a `Resolve` does**: it fails and changes nothing, or finds a waiting approval,
which it latches expired or decides. -/
theorem resolve_cases {r : ApprovalRegistry} {id : String} {a : Option Approval}
    (h : Represents r id a) (decision : ApprovalDecision) (t : Int) :
    (∃ e, r.resolve id decision t = (.error e, r) ∧
      a.map (Approval.resolved decision t) = a) ∨
    ∃ a₀, a = some a₀ ∧ a₀.state = .pending ∧
      (a₀.expiresAt ≤ t ∧ r.resolve id decision t =
          (.error ⟨.approvalExpired, "approval expired"⟩, r.setState id .expired) ∨
        t < a₀.expiresAt ∧
          (decision = .allow ∧ r.resolve id decision t = (.ok (), r.setState id .approved) ∨
            decision = .reject ∧
              r.resolve id decision t = (.ok (), r.setState id .rejected))) := by
  unfold resolve
  cases a with
  | none =>
      simp only [h.states, Option.map_none]
      exact .inl ⟨_, rfl, trivial⟩
  | some a =>
      simp only [h.states, h.expires, Option.map_some, Option.getD_some, Approval.resolved]
      by_cases hp : a.state ≠ .pending
      · simp only [if_pos hp]
        exact .inl ⟨_, rfl, trivial⟩
      · by_cases ht : a.expiresAt ≤ t
        · simp only [if_neg hp, if_pos ht]
          exact .inr ⟨a, rfl, not_not.mp hp, .inl ⟨ht, trivial⟩⟩
        · simp only [if_neg hp, if_neg ht]
          have hbefore := Int.not_le.mp ht
          cases decision with
          | allow => exact .inr ⟨a, rfl, not_not.mp hp, .inr ⟨hbefore, .inl ⟨rfl, rfl⟩⟩⟩
          | reject => exact .inr ⟨a, rfl, not_not.mp hp, .inr ⟨hbefore, .inr ⟨rfl, rfl⟩⟩⟩
          | unspecified => exact .inl ⟨_, rfl, rfl⟩
          | unnamed n => exact .inl ⟨_, rfl, rfl⟩

/-- A call works on the approval it names. -/
theorem call_on {r : ApprovalRegistry} {c : Call} {a : Option Approval}
    (h : Represents r c.id a) : Represents (r.call c).2 c.id (c.next a) := by
  cases c with
  | create approvalId expiresAtMillis =>
      have hs : r.states approvalId = a.map Approval.state := h.states
      unfold call create
      dsimp only
      by_cases hid : approvalId = ""
      · rw [if_pos hid]
        cases a with
        | none => simpa only [Call.next, if_pos hid] using h
        | some a => exact h
      · rw [if_neg hid]
        cases a with
        | none =>
            simp only [hs, Option.map_none, Call.next, if_neg hid]
            exact ⟨if_pos rfl, if_pos rfl⟩
        | some a =>
            simp only [hs, Option.map_some]
            exact h
  | resolve approvalId decision nowMillis =>
      have hrep : Represents r approvalId a := h
      unfold call
      dsimp only
      obtain ⟨e, hres, hsame⟩ | ⟨a₀, rfl, hp, hrest⟩ := resolve_cases hrep decision nowMillis
      · rw [hres]
        show Represents r approvalId (a.map (Approval.resolved decision nowMillis))
        rw [hsame]
        exact hrep
      · show Represents _ approvalId (some (a₀.resolved decision nowMillis))
        unfold Approval.resolved
        rw [if_neg (not_not.mpr hp)]
        obtain ⟨hlate, hres⟩ | ⟨hbefore, hdecided⟩ := hrest
        · rw [hres, if_pos hlate]
          exact hrep.setState .expired
        · rw [if_neg (Int.not_le.mpr hbefore)]
          obtain ⟨rfl, hres⟩ | ⟨rfl, hres⟩ := hdecided
          · rw [hres]
            exact hrep.setState .approved
          · rw [hres]
            exact hrep.setState .rejected

/-- **The maps are the approvals** the calls left under each id. -/
theorem after_represents (calls : List Call) (id : String) :
    Represents (after calls) id (approval id calls) := by
  induction calls using List.reverseRecOn with
  | nil => exact ⟨rfl, rfl⟩
  | append_singleton calls c ih =>
      rw [after_concat]
      by_cases hc : c.id = id
      · have hcell : approval id (calls ++ [c]) = c.next (approval id calls) :=
          cell_on (Call.key_eq.mpr hc) calls
        subst hc
        rw [hcell]
        exact call_on ih
      · have hcell : approval id (calls ++ [c]) = approval id calls :=
          cell_off (fun h => hc (Call.key_eq.mp h)) calls
        obtain ⟨hs, he⟩ := call_off (r := after calls) (Ne.symm hc)
        rw [hcell]
        exact ⟨hs.trans ih.states, he.trans ih.expires⟩

/-- The state of an id is its approval's. -/
theorem state_after (calls : List Call) (id : String) :
    (after calls).state id = (approval id calls).map Approval.state :=
  (after_represents calls id).states

/-- The expiry a registered approval has is the one it was created with. -/
def CreatedWith (calls : List Call) (id : String) (expiresAtMillis : Int) : Prop :=
  ∃ before rest, calls = before ++ .create id expiresAtMillis :: rest ∧
    ((after before).create id expiresAtMillis).1 = .ok ()

theorem CreatedWith.later {calls : List Call} {id : String} {t : Int}
    (h : CreatedWith calls id t) (c : Call) : CreatedWith (calls ++ [c]) id t := by
  obtain ⟨before, rest, rfl, hok⟩ := h
  exact ⟨before, rest ++ [c], by simp, hok⟩

theorem resolved_expiresAt (decision : ApprovalDecision) (nowMillis : Int) (a : Approval) :
    (a.resolved decision nowMillis).expiresAt = a.expiresAt := by
  unfold Approval.resolved
  split
  · rfl
  · split
    · rfl
    · split <;> rfl

/-- A new approval comes from a `Create` that succeeds. -/
theorem create_new {calls : List Call} {c : Call} {a : Approval}
    (hnone : approval c.id calls = none) (h : c.next none = some a) :
    c = .create c.id a.expiresAt ∧ ((after calls).create c.id a.expiresAt).1 = .ok () := by
  cases c with
  | create approvalId expiresAtMillis =>
      have hstate : (after calls).states approvalId = none := by
        rw [(after_represents calls approvalId).states]
        exact congrArg _ hnone
      by_cases hid : approvalId = ""
      · rw [Call.next, if_pos hid] at h
        cases h
      · rw [Call.next, if_neg hid] at h
        cases h
        refine ⟨rfl, ?_⟩
        simp only [Call.id, create, if_neg hid, hstate]
  | resolve approvalId decision nowMillis => cases h

theorem approval_created {calls : List Call} {id : String} {a : Approval}
    (h : approval id calls = some a) : CreatedWith calls id a.expiresAt := by
  induction calls using List.reverseRecOn generalizing a with
  | nil => cases h
  | append_singleton calls c ih =>
      by_cases hc : c.id = id
      · subst hc
        have hcell : approval c.id (calls ++ [c]) = c.next (approval c.id calls) :=
          cell_on (Call.key_eq.mpr rfl) calls
        rw [hcell] at h
        cases hbefore : approval c.id calls with
        | none =>
            rw [hbefore] at h
            obtain ⟨hc, hok⟩ := create_new hbefore h
            exact ⟨calls, [], by rw [← hc], hok⟩
        | some a₀ =>
            rw [hbefore] at h
            have hexp : a.expiresAt = a₀.expiresAt := by
              cases c with
              | create approvalId expiresAtMillis => exact congrArg _ (Option.some.inj h).symm
              | resolve approvalId decision nowMillis =>
                  rw [← Option.some.inj h]
                  exact resolved_expiresAt decision nowMillis a₀
            rw [hexp]
            exact (ih hbefore).later c
      · have hcell : approval id (calls ++ [c]) = approval id calls :=
          cell_off (fun h => hc (Call.key_eq.mp h)) calls
        rw [hcell] at h
        exact (ih h).later c

/-! ## Decided for good -/

theorem next_decided {a : Approval} (h : a.state ≠ .pending) (c : Call) :
    c.next (some a) = some a := by
  cases c with
  | create approvalId expiresAtMillis => rfl
  | resolve approvalId decision nowMillis =>
      exact congrArg some (if_pos h)

/-- What is no longer waiting never changes. -/
theorem decided_stays {calls : List Call} {id : String} {s : ApprovalState}
    (h : (after calls).state id = some s) (hs : s ≠ .pending) (more : List Call) :
    (after (calls ++ more)).state id = some s := by
  rw [state_after] at h ⊢
  refine cell_keeps (J := fun a => a.map Approval.state = some s) (fun c _ _ a ha => ?_) h
  cases a with
  | none => cases ha
  | some a =>
      have hdecided : a.state ≠ .pending := fun hp => hs ((Option.some.inj ha).symm.trans hp)
      rw [next_decided hdecided c]
      exact ha

/-- The call takes the approval out of waiting. -/
def LeavesPending (id : String) (calls : List Call) (c : Call) : Prop :=
  (after calls).state id = some .pending ∧ (after (calls ++ [c])).state id ≠ some .pending

/-- A known id stays known. -/
theorem known_stays {calls : List Call} {id : String} (h : ((after calls).state id).isSome = true)
    (more : List Call) : ((after (calls ++ more)).state id).isSome = true := by
  rw [state_after] at h ⊢
  rw [Option.isSome_map] at h ⊢
  refine cell_keeps (J := fun a => a.isSome = true) (fun c _ _ a ha => ?_) h
  obtain ⟨a, rfl⟩ := Option.isSome_iff_exists.mp ha
  cases c with
  | create approvalId expiresAtMillis => rfl
  | resolve approvalId decision nowMillis => rfl

/-- After leaving, the id has a state it keeps. -/
theorem LeavesPending.decided {id : String} {calls : List Call} {c : Call}
    (h : LeavesPending id calls c) :
    ∃ s, (after (calls ++ [c])).state id = some s ∧ s ≠ .pending := by
  have hknown := known_stays (Option.isSome_iff_exists.mpr ⟨_, h.1⟩) [c]
  obtain ⟨s, hs⟩ := Option.isSome_iff_exists.mp hknown
  exact ⟨s, hs, fun hp => h.2 (hs.trans (congrArg some hp))⟩

theorem decided_never {calls : List Call} {id : String}
    (h : ∃ s, (after calls).state id = some s ∧ s ≠ .pending) (more : List Call) :
    (after (calls ++ more)).state id ≠ some .pending := by
  obtain ⟨s, hs, hp⟩ := h
  rw [decided_stays hs hp more]
  exact fun h => hp (Option.some.inj h)

/-! ## Resolve -/

/-- What a `Resolve` that returns nil found and left. -/
theorem resolve_ok {calls : List Call} {id : String} {decision : ApprovalDecision} {t : Int}
    (h : ((after calls).resolve id decision t).1 = .ok ()) :
    (after calls).state id = some .pending ∧
      (∃ expiresAt, CreatedWith calls id expiresAt ∧ t < expiresAt) ∧
      (decision = .allow ∧ ((after calls).resolve id decision t).2.state id = some .approved ∨
        decision = .reject ∧
          ((after calls).resolve id decision t).2.state id = some .rejected) := by
  have hrep := after_represents calls id
  have hset : ∀ s, ((after calls).setState id s).state id = some s := fun s => if_pos rfl
  obtain ⟨e, hres, _⟩ | ⟨a, ha, hp, hrest⟩ := resolve_cases hrep decision t
  · rw [hres] at h
    cases h
  · have hpending : (after calls).state id = some .pending := by
      rw [state_after, ha, Option.map_some, hp]
    obtain ⟨_, hres⟩ | ⟨hbefore, hdecided⟩ := hrest
    · rw [hres] at h
      cases h
    · refine ⟨hpending, ⟨a.expiresAt, approval_created ha, hbefore⟩, ?_⟩
      obtain ⟨hd, hres⟩ | ⟨hd, hres⟩ := hdecided
      · rw [hres]
        exact .inl ⟨hd, hset _⟩
      · rw [hres]
        exact .inr ⟨hd, hset _⟩

/-- A `Resolve` that fails changes nothing, or finds a waiting approval past its expiry and
latches it expired. -/
theorem resolve_error {calls : List Call} {id : String} {decision : ApprovalDecision} {t : Int}
    {e : TrustError} (h : ((after calls).resolve id decision t).1 = .error e) :
    ((after calls).resolve id decision t).2 = after calls ∨
      (after calls).state id = some .pending ∧
        (∃ expiresAt, CreatedWith calls id expiresAt ∧ expiresAt ≤ t) ∧
        ((after calls).resolve id decision t).2 = (after calls).setState id .expired := by
  obtain ⟨_, hres, _⟩ | ⟨a, ha, hp, hrest⟩ :=
    resolve_cases (after_represents calls id) decision t
  · rw [hres]
    exact .inl rfl
  · have hpending : (after calls).state id = some .pending := by
      rw [state_after, ha, Option.map_some, hp]
    obtain ⟨hlate, hres⟩ | ⟨_, ⟨_, hres⟩ | ⟨_, hres⟩⟩ := hrest
    · rw [hres]
      exact .inr ⟨hpending, ⟨a.expiresAt, approval_created ha, hlate⟩, rfl⟩
    · rw [hres] at h
      cases h
    · rw [hres] at h
      cases h

/-- The calls that name an id. -/
def callsOn (id : String) (calls : List Call) : List Call :=
  opsOn Call.key id calls

theorem approval_congr {id : String} {calls calls' : List Call}
    (h : callsOn id calls = callsOn id calls') : approval id calls = approval id calls' :=
  cell_congr h

/-- A reply depends on the approval the call names. -/
theorem reply_congr {r r' : ApprovalRegistry} {c : Call} {a : Option Approval}
    (h : Represents r c.id a) (h' : Represents r' c.id a) : (r.call c).1 = (r'.call c).1 := by
  have hs : r.states c.id = r'.states c.id := h.states.trans h'.states.symm
  have he : r.expires c.id = r'.expires c.id := h.expires.trans h'.expires.symm
  cases c with
  | create approvalId expiresAtMillis =>
      have hs : r.states approvalId = r'.states approvalId := hs
      simp only [call, create, hs]
      split
      · rfl
      · split <;> rfl
  | resolve approvalId decision nowMillis =>
      have hs : r.states approvalId = r'.states approvalId := hs
      have he : r.expires approvalId = r'.expires approvalId := he
      simp only [call, resolve, hs, he]
      split
      · rfl
      · split
        · rfl
        · split
          · rfl
          · split <;> rfl

/-- **Single resolve.**  In every run of calls an approval leaves waiting at most once and
then stays; a `Resolve` returns nil at most once, for ALLOW or REJECT before the expiry the
approval was created with; one that fails changes nothing but a waiting approval past that
expiry, which it latches expired; and what other ids are asked makes no difference. -/
theorem resolve_once (id : String) :
    (∀ calls s, (after calls).state id = some s → s ≠ .pending →
      ∀ more, (after (calls ++ more)).state id = some s) ∧
    (∀ calls before before' c c', before ++ [c] <+: calls → before' ++ [c'] <+: calls →
      LeavesPending id before c → LeavesPending id before' c' → before = before') ∧
    (∀ calls before before' decision decision' t t',
      before ++ [.resolve id decision t] <+: calls →
      before' ++ [.resolve id decision' t'] <+: calls →
      ((after before).resolve id decision t).1 = .ok () →
      ((after before').resolve id decision' t').1 = .ok () → before = before') ∧
    (∀ calls decision t, ((after calls).resolve id decision t).1 = .ok () →
      (∃ expiresAt, CreatedWith calls id expiresAt ∧ t < expiresAt) ∧
        (decision = .allow ∧ ((after calls).resolve id decision t).2.state id = some .approved ∨
          decision = .reject ∧
            ((after calls).resolve id decision t).2.state id = some .rejected)) ∧
    (∀ calls decision t e, ((after calls).resolve id decision t).1 = .error e →
      ((after calls).resolve id decision t).2 = after calls ∨
        (after calls).state id = some .pending ∧
          (∃ expiresAt, CreatedWith calls id expiresAt ∧ expiresAt ≤ t) ∧
          ((after calls).resolve id decision t).2 = (after calls).setState id .expired) ∧
    (∀ calls calls', callsOn id calls = callsOn id calls' →
      (after calls).state id = (after calls').state id ∧
        ∀ c : Call, c.id = id → ((after calls).call c).1 = ((after calls').call c).1) := by
  refine ⟨fun calls s hs hp more => decided_stays hs hp more,
    fun calls before before' c c' h h' hleaves hleaves' => ?_,
    fun calls before before' decision decision' t t' h h' hok hok' => ?_,
    fun calls decision t hok => (resolve_ok hok).2,
    fun calls decision t e herr => resolve_error herr,
    fun calls calls' hcalls => ?_⟩
  · exact left_once (P := fun calls => (after calls).state id = some .pending)
      (fun _ more hout => decided_never hout more) h h' hleaves.1 hleaves.decided
      hleaves'.1 hleaves'.decided
  · have hout : ∀ calls decision t, ((after calls).resolve id decision t).1 = .ok () →
        ∃ s, (after (calls ++ [Call.resolve id decision t])).state id = some s ∧
          s ≠ .pending := by
      intro calls decision t hok
      rw [after_concat]
      obtain ⟨_, hstate⟩ | ⟨_, hstate⟩ := (resolve_ok hok).2.2
      · exact ⟨_, hstate, by decide⟩
      · exact ⟨_, hstate, by decide⟩
    exact left_once (P := fun calls => (after calls).state id = some .pending)
      (fun _ more hout => decided_never hout more) h h' (resolve_ok hok).1 (hout _ _ _ hok)
      (resolve_ok hok').1 (hout _ _ _ hok')
  · have hrep := after_represents calls id
    rw [approval_congr hcalls] at hrep
    have hrep' := after_represents calls' id
    refine ⟨hrep.states.trans hrep'.states.symm, fun c hc => ?_⟩
    subst hc
    exact reply_congr hrep hrep'

/-- A late rejection of an allowed approval. -/
theorem resolve_once_allowed :
    (after [.create "A1" 10, .resolve "A1" .allow 9]).state "A1" = some .approved ∧
      (after ([.create "A1" 10, .resolve "A1" .allow 9] ++ [.resolve "A1" .reject 10])).state
        "A1" = some .approved :=
  ⟨by decide, (resolve_once "A1").1 _ _ (by decide) (by decide) _⟩

end Calcar.Trust.ApprovalRegistry
