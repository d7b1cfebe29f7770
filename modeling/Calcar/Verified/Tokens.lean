import Calcar.Verified.Requests

/-!
# Revoking the tokens of a device

`RevokeDeviceTokens` deletes the tokens the device's index names.  Every
issue sets the lifetime of the whole index to its own ttl and an hour more,
so an issue with a short ttl takes earlier tokens out of reach: the index
expires before they do.

A `History` is what was issued and consumed for one device.  `History.lease`
says until when a token resolves, `History.listed` whether the index still
names it.  Both are computed from the calls, their times and their ttls, and
`TokenRun.refines` says that the keys in Redis are just what they compute.

## Main results

* `TokenRun.refines` — the history determines the tokens and the index.
* `revocation_complete_iff` — after a revocation no token of the device is
  accepted, if and only if the index named every token that was still valid.
-/

namespace Calcar

open Lib Rd

/-! ## Histories -/

/-- A token issued, with the time of the call and its ttl, or a refresh token
consumed. -/
inductive TokenEvent where
  | issued (kind : TokenKind) (token : String) (at' ttl : Time)
  | consumed (token : String)
  deriving DecidableEq

/-- The events of one device, the newest first. -/
abbrev History : Type := List TokenEvent

namespace History

/-- Until when a token is valid: its latest issue counts, and a consumed
refresh token is gone. -/
def lease (kind : TokenKind) (token : String) : History → Option Time
  | [] => none
  | .issued kind' token' at' ttl :: h =>
      if kind' = kind ∧ token' = token then some (at' + Time.formatSec ttl)
      else lease kind token h
  | .consumed token' :: h =>
      if kind = .refresh ∧ token' = token then none else lease kind token h

/-- The index names the token at `now`: no gap between two issues, or since
the last one, was longer than the earlier issue's ttl and an hour. -/
def listed (kind : TokenKind) (token : String) : History → Time → Prop
  | [], _ => False
  | .issued kind' token' at' ttl :: h, now =>
      if kind' = kind then
        now < at' + Time.formatSec (ttl + Time.hour) ∧
          (token' = token ∨ listed kind token h at')
      else listed kind token h now
  | .consumed token' :: h, now =>
      ¬(kind = .refresh ∧ token' = token) ∧ listed kind token h now

/-- The token may still be used at `now`. -/
def Valid (kind : TokenKind) (token : String) (h : History) (now : Time) : Prop :=
  ∃ e, lease kind token h = some e ∧ now < e

end History

/-! ## Runs of one device's calls -/

/-- The issuing method of a kind. -/
def TokenKind.issue (kind : TokenKind) (device user : String) (ttl : Time) :
    Core.M (Except Err String) :=
  match kind with
  | .access => Redis.issueAccessToken device user ttl
  | .refresh => Redis.issueRefreshToken device user ttl

/-- Calls for one device on working stores, one after the other, with any
time in between; the history notes those that succeed. -/
inductive TokenRun (device : String) : History → World → Prop where
  | start : TokenRun device [] {}
  | issue {h : History} {w w' : World} {i : Nat} {kind : TokenKind} {user token : String}
      {ttl : Time} (hrun : TokenRun device h w)
      (hissue : Prog.Runs Core.exec Working i (TokenKind.issue kind device user ttl) w
        (.ok token) w') :
      TokenRun device (.issued kind token w.rd.now ttl :: h) w'
  | consume {h : History} {w w' : World} {i : Nat} {device' token user : String}
      (hrun : TokenRun device h w)
      (huse : Prog.Runs Core.exec Working i (Redis.consumeRefreshToken device' token) w
        (.ok user) w') :
      TokenRun device (.consumed token :: h) w'
  | refuse {h : History} {w w' : World} {i : Nat} {device' token : String} {e : Err}
      (hrun : TokenRun device h w)
      (huse : Prog.Runs Core.exec Working i (Redis.consumeRefreshToken device' token) w
        (.error e) w') :
      TokenRun device h w'
  | pass {h : History} {w w' : World} {e : Env} (hrun : TokenRun device h w)
      (hpass : e.step w = some w') : TokenRun device h w'

/-! ## What one call does to the keys -/

theorem hexEncode_ne_empty {b : Bytes} (h : b ≠ []) : Text.hexEncode b ≠ "" := by
  cases b with
  | nil => exact absurd rfl h
  | cons x xs =>
      intro he
      have hl := congrArg String.toList he
      simp [Text.hexEncode] at hl

/-- A token drawn is no empty text. -/
private theorem newToken_runs {i : Nat} {tok : String} {w w' : World}
    (h : Prog.Runs Core.exec Working i Redis.newToken w tok w') :
    tok ≠ "" ∧ w'.rd = w.rd := by
  unfold Redis.newToken at h
  obtain ⟨b, w₁, hb, hret⟩ := Prog.runs_bind.mp h
  obtain ⟨rfl, rfl⟩ := Prog.runs_ret.mp hret
  obtain ⟨o, _, hx⟩ := Prog.runs_perform.mp hb
  simp only [Core.exec] at hx
  split at hx
  · rename_i hlen
    simp only [Option.some.injEq, Prod.mk.injEq] at hx
    obtain ⟨rfl, rfl⟩ := hx
    have hne : o.bytes.take 32 ≠ [] := by
      intro he
      have hl := congrArg List.length he
      rw [List.length_take, List.length_nil] at hl
      omega
    exact ⟨hexEncode_ne_empty hne, rfl⟩
  · cases hx

/-- What the index holds after an issue. -/
def Rd.withToken (token : String) (s : Option (List String)) : List String :=
  if token ∈ s.getD [] then s.getD [] else s.getD [] ++ [token]

theorem Rd.mem_withToken {token x : String} {s : Option (List String)} :
    x ∈ withToken token s ↔ token = x ∨ x ∈ s.getD [] := by
  unfold withToken
  by_cases hmem : token ∈ s.getD []
  · rw [if_pos hmem]
    constructor
    · exact Or.inr
    · rintro (rfl | hx)
      · exact hmem
      · exact hx
  · rw [if_neg hmem, List.mem_append, List.mem_singleton]
    constructor
    · rintro (hx | rfl)
      · exact .inr hx
      · exact .inl rfl
    · rintro (rfl | hx)
      · exact .inr rfl
      · exact .inl hx

/-- The keys after a token was issued. -/
structure Rd.Issued (r : RdState) (kind : TokenKind) (device user token : String) (ttl : Time)
    (r' : RdState) : Prop where
  device_ne : device ≠ ""
  user_ne : user ≠ ""
  token_ne : token ≠ ""
  ttl_pos : 0 < ttl
  now_eq : r'.now = r.now
  tokens_eq : r'.tokens = (r.tokens.update r.now (kind, token) fun _ => (device, user)).expire
    r.now (kind, token) (r.now + Time.formatSec ttl)
  index_eq : r'.index = (r.index.update r.now (kind, device) fun s => withToken token s).expire
    r.now (kind, device) (r.now + Time.formatSec (ttl + Time.hour))

private theorem issueToken_issued {i : Nat} {kind : TokenKind} {device user token : String}
    {ttl : Time} {w w' : World}
    (h : Prog.Runs Core.exec Working i (Redis.issueToken kind device user ttl) w
      (.ok token) w') :
    Rd.Issued w.rd kind device user token ttl w'.rd := by
  unfold Redis.issueToken at h
  split at h
  · obtain ⟨he, _⟩ := Prog.runs_ret.mp h
    cases he
  · rename_i hargs
    rw [not_or, not_or] at hargs
    obtain ⟨hdevice, huser, httl⟩ := hargs
    obtain ⟨tok, w₀, htok, h⟩ := Prog.runs_bind.mp h
    obtain ⟨hne, hrd⟩ := newToken_runs htok
    have h₁ := runs_rd_bind.mp h
    have h₂ := runs_rd_bind.mp h₁
    have h₃ := runs_rd_bind.mp h₂
    have h₄ := runs_rd_bind.mp h₃
    obtain ⟨he, rfl⟩ := Prog.runs_ret.mp h₄
    obtain rfl := Except.ok.inj he
    rw [← hrd]
    constructor
    · exact hdevice
    · exact huser
    · exact hne
    · exact Int.not_le.mp httl
    · simp only [World.setRd_rd, RdCmd.step, Rd.logged]
    · simp only [World.setRd_rd, RdCmd.step, Rd.logged]
    · simp only [World.setRd_rd, RdCmd.step, Rd.logged, Rd.withToken]

theorem TokenKind.issue_issued {i : Nat} {kind : TokenKind} {device user token : String}
    {ttl : Time} {w w' : World}
    (h : Prog.Runs Core.exec Working i (TokenKind.issue kind device user ttl) w
      (.ok token) w') :
    Rd.Issued w.rd kind device user token ttl w'.rd := by
  cases kind with
  | access => exact issueToken_issued h
  | refresh => exact issueToken_issued h

/-! ## The history determines the keys -/

/-- The tokens and the index of a device are what its history says, now and
as long as nothing but time happens. -/
structure Refines (device : String) (h : History) (r : RdState) : Prop where
  tokens : ∀ kind token now, r.now ≤ now →
    ((∃ v, r.tokens.get now (kind, token) = some v) ↔ History.Valid kind token h now)
  owner : ∀ kind token now dev user, r.now ≤ now →
    r.tokens.get now (kind, token) = some (dev, user) → dev = device ∧ user ≠ ""
  index : ∀ kind token now, r.now ≤ now →
    (token ∈ (r.index.get now (kind, device)).getD [] ↔ History.listed kind token h now)
  named : ∀ kind token at' ttl, TokenEvent.issued kind token at' ttl ∈ h →
    token ≠ "" ∧ device ≠ ""

/-- An issue adds its event. -/
theorem Refines.issue {device user token : String} {h : History} {r r' : RdState}
    {kind : TokenKind} {ttl : Time} (hr : Refines device h r)
    (hi : Rd.Issued r kind device user token ttl r') :
    Refines device (.issued kind token r.now ttl :: h) r' := by
  have hnow : r'.now = r.now := hi.now_eq
  constructor
  · intro k x now hle
    rw [hnow] at hle
    rw [hi.tokens_eq]
    unfold History.Valid History.lease
    by_cases hkx : kind = k ∧ token = x
    · obtain ⟨rfl, rfl⟩ := hkx
      have hself : kind = kind ∧ token = token := ⟨rfl, rfl⟩
      rw [TtlMap.get_expire_update_self, if_pos hself]
      by_cases hlt : now < r.now + Time.formatSec ttl
      · simp [hlt]
      · simp [hlt]
    · rw [if_neg hkx]
      have hne : (k, x) ≠ (kind, token) := by
        intro he
        obtain ⟨rfl, rfl⟩ := Prod.mk.injEq _ _ _ _ ▸ he
        exact hkx ⟨rfl, rfl⟩
      rw [TtlMap.get_expire_update_ne _ _ _ _ _ hne]
      exact hr.tokens k x now hle
  · intro k x now dev usr hle hg
    rw [hnow] at hle
    rw [hi.tokens_eq] at hg
    by_cases hkx : (k, x) = (kind, token)
    · rw [hkx, TtlMap.get_expire_update_self] at hg
      split at hg
      · obtain ⟨rfl, rfl⟩ := Prod.mk.injEq _ _ _ _ ▸ Option.some.inj hg
        exact ⟨rfl, hi.user_ne⟩
      · cases hg
    · rw [TtlMap.get_expire_update_ne _ _ _ _ _ hkx] at hg
      exact hr.owner k x now dev usr hle hg
  · intro k x now hle
    rw [hnow] at hle
    rw [hi.index_eq]
    unfold History.listed
    by_cases hk : kind = k
    · subst hk
      rw [TtlMap.get_expire_update_self, if_pos rfl,
        ← hr.index kind x r.now (Int.le_refl _)]
      by_cases hlt : now < r.now + Time.formatSec (ttl + Time.hour)
      · rw [if_pos hlt, Option.getD_some, Rd.mem_withToken]
        simp [hlt]
      · rw [if_neg hlt]
        simp [hlt]
    · rw [if_neg hk]
      have hne : (k, device) ≠ (kind, device) := by
        intro he
        exact hk (congrArg Prod.fst he).symm
      rw [TtlMap.get_expire_update_ne _ _ _ _ _ hne]
      exact hr.index k x now hle
  · intro k x at' tl hmem
    rcases List.mem_cons.mp hmem with he | htail
    · cases he
      exact ⟨hi.token_ne, hi.device_ne⟩
    · exact hr.named k x at' tl htail

/-- Time does not change what the history says. -/
theorem Refines.later {device : String} {h : History} {r r' : RdState}
    (hr : Refines device h r) (htokens : r'.tokens = r.tokens) (hindex : r'.index = r.index)
    (hnow : r.now ≤ r'.now) : Refines device h r' := by
  constructor
  · intro k x now hle
    rw [htokens]
    exact hr.tokens k x now (Int.le_trans hnow hle)
  · intro k x now dev usr hle hg
    rw [htokens] at hg
    exact hr.owner k x now dev usr (Int.le_trans hnow hle) hg
  · intro k x now hle
    rw [hindex]
    exact hr.index k x now (Int.le_trans hnow hle)
  · exact hr.named

/-- What the script does: nothing, or it takes the token out. -/
theorem Rd.consumeRefresh_cases (r : RdState) (token device : String) :
    (∃ user, r.tokens.get r.now (.refresh, token) = some (device, user) ∧
        consumeRefresh r token device = ({ r with
          tokens := r.tokens.del (.refresh, token)
          index := srem r.index r.now (.refresh, device) token }, some user)) ∨
      (∀ user, r.tokens.get r.now (.refresh, token) ≠ some (device, user)) ∧
        consumeRefresh r token device = (r, none) := by
  unfold consumeRefresh
  cases hg : r.tokens.get r.now (.refresh, token) with
  | none => exact .inr ⟨fun _ => nofun, rfl⟩
  | some v =>
      obtain ⟨dev, user⟩ := v
      by_cases hd : dev = device
      · subst hd
        left
        refine ⟨user, rfl, ?_⟩
        simp only [if_pos]
      · right
        refine ⟨?_, ?_⟩
        · intro user' he
          cases he
          exact hd rfl
        · simp only [if_neg hd]

theorem Rd.get_srem_ne (m : TtlMap (TokenKind × String) (List String)) (now now' : Int)
    {k k' : TokenKind × String} {x : String} (h : k' ≠ k) :
    (srem m now k x).get now' k' = m.get now' k' := by
  unfold srem
  cases m.entry now k with
  | none => rfl
  | some e =>
      dsimp only
      split
      · exact TtlMap.get_del_ne m h now'
      · exact TtlMap.get_set_ne m _ _ h now'

/-- Members after one was taken out. -/
theorem Rd.mem_srem {m : TtlMap (TokenKind × String) (List String)} {now now' : Int}
    {k : TokenKind × String} {x y : String} (hle : now ≤ now') :
    y ∈ ((srem m now k x).get now' k).getD [] ↔ y ≠ x ∧ y ∈ (m.get now' k).getD [] := by
  unfold srem
  cases he : m.entry now k with
  | none =>
      have hnone : m.get now' k = none := by
        cases hg : m.get now' k with
        | none => rfl
        | some v =>
            have hv := TtlMap.get_later hle hg
            unfold TtlMap.get at hv
            rw [he] at hv
            cases hv
      simp [hnone]
  | some e =>
      obtain ⟨hm, _⟩ := TtlMap.entry_eq_some.mp he
      have hget : (m.get now' k).getD [] = if e.live now' then e.val else [] := by
        unfold TtlMap.get TtlMap.entry
        rw [hm]
        by_cases hl : e.live now' = true
        · simp [hl]
        · simp [hl]
      have hfilter : ∀ z, z ∈ e.val.filter (fun z => ¬z = x) ↔ z ≠ x ∧ z ∈ e.val := by
        intro z
        simp [and_comm]
      rw [hget]
      by_cases hrest : e.val.filter (fun z => ¬z = x) = []
      · simp only [hrest, if_pos]
        rw [TtlMap.get_del_self]
        have hno : ¬(y ≠ x ∧ y ∈ e.val) := by
          rw [← hfilter, hrest]
          exact List.not_mem_nil
        by_cases hl : e.live now' = true
        · rw [if_pos hl]
          simpa using hno
        · rw [if_neg hl]
          simp
      · simp only [if_neg hrest]
        have hset : ((m.set k (e.val.filter fun z => ¬z = x) e.exp).get now' k).getD [] =
            if e.live now' then e.val.filter (fun z => ¬z = x) else [] := by
          unfold TtlMap.get
          rw [TtlMap.entry_set_self]
          have hlive : (⟨e.val.filter fun z => ¬z = x, e.exp⟩ : Entry (List String)).live now' =
              e.live now' := rfl
          rw [hlive]
          by_cases hl : e.live now' = true
          · simp [hl]
          · simp [hl]
        rw [hset]
        by_cases hl : e.live now' = true
        · rw [if_pos hl, if_pos hl, hfilter]
        · rw [if_neg hl, if_neg hl]
          simp

/-- A refresh token that is accepted is taken out of the tokens and the
index. -/
theorem consumeRefreshToken_ok {i : Nat} {device token user : String} {w w' : World} :
    Prog.Runs Core.exec Working i (Redis.consumeRefreshToken device token) w (.ok user) w' ↔
      device ≠ "" ∧ token ≠ "" ∧ user ≠ "" ∧
        w.rd.tokens.get w.rd.now (.refresh, token) = some (device, user) ∧
        w' = w.setRd (RdCmd.step i (.evalConsumeRefresh token device) w.rd).1 := by
  unfold Redis.consumeRefreshToken
  by_cases hargs : device = "" ∨ token = ""
  · rw [if_pos hargs]
    constructor
    · intro h
      obtain ⟨he, _⟩ := Prog.runs_ret.mp h
      cases he
    · rintro ⟨hd, ht, _⟩
      rcases hargs with he | he
      · exact absurd he hd
      · exact absurd he ht
  · rw [if_neg hargs, runs_rd_bind]
    rw [not_or] at hargs
    obtain ⟨hd, ht⟩ := hargs
    have hsnd : (RdCmd.step i (.evalConsumeRefresh token device) w.rd).2 =
        (Rd.consumeRefresh w.rd token device).2 := rfl
    rw [hsnd]
    rcases Rd.consumeRefresh_cases w.rd token device with ⟨usr, hg, hx⟩ | ⟨hno, hx⟩
    · rw [hx]
      dsimp only
      by_cases hu : usr = ""
      · rw [if_pos hu]
        constructor
        · intro h
          obtain ⟨he, _⟩ := Prog.runs_ret.mp h
          cases he
        · rintro ⟨_, _, hne, hg', _⟩
          rw [hg] at hg'
          cases hg'
          exact absurd hu hne
      · rw [if_neg hu]
        constructor
        · intro h
          obtain ⟨he, rfl⟩ := Prog.runs_ret.mp h
          obtain rfl := Except.ok.inj he
          exact ⟨hd, ht, hu, hg, rfl⟩
        · rintro ⟨_, _, _, hg', rfl⟩
          rw [hg] at hg'
          cases hg'
          exact .ret _ _
    · rw [hx]
      constructor
      · intro h
        obtain ⟨he, _⟩ := Prog.runs_ret.mp h
        cases he
      · rintro ⟨_, _, _, hg, _⟩
        exact absurd hg (hno user)

/-- A consumed token adds its event. -/
theorem Refines.consume {device device' token user : String} {h : History} {i : Nat}
    {w : World} (hr : Refines device h w.rd)
    (hg : w.rd.tokens.get w.rd.now (.refresh, token) = some (device', user)) :
    Refines device (.consumed token :: h)
      (RdCmd.step i (.evalConsumeRefresh token device') w.rd).1 := by
  obtain ⟨rfl, _⟩ := hr.owner .refresh token w.rd.now device' user (Int.le_refl _) hg
  have hx : (RdCmd.step i (.evalConsumeRefresh token device') w.rd).1 =
      Rd.logged (Rd.consumeRefresh w.rd token device').1 i
        (.evalConsumeRefresh token device') := rfl
  rcases Rd.consumeRefresh_cases w.rd token device' with ⟨usr, _, hc⟩ | ⟨hno, _⟩
  · rw [hx, hc]
    constructor
    · intro k x now hle
      have hle' : w.rd.now ≤ now := hle
      show (∃ v, (w.rd.tokens.del (.refresh, token)).get now (k, x) = some v) ↔ _
      unfold History.Valid History.lease
      by_cases hkx : k = .refresh ∧ token = x
      · obtain ⟨rfl, rfl⟩ := hkx
        simp
      · rw [if_neg hkx]
        have hne : (k, x) ≠ (TokenKind.refresh, token) := by
          intro he
          exact hkx ⟨congrArg Prod.fst he, (congrArg Prod.snd he).symm⟩
        rw [TtlMap.get_del_ne _ hne]
        exact hr.tokens k x now hle'
    · intro k x now dev usr' hle hg'
      have hle' : w.rd.now ≤ now := hle
      have hg'' : (w.rd.tokens.del (.refresh, token)).get now (k, x) = some (dev, usr') := hg'
      by_cases hkx : (k, x) = (TokenKind.refresh, token)
      · rw [hkx, TtlMap.get_del_self] at hg''
        cases hg''
      · rw [TtlMap.get_del_ne _ hkx] at hg''
        exact hr.owner k x now dev usr' hle' hg''
    · intro k x now hle
      have hle' : w.rd.now ≤ now := hle
      show x ∈ ((Rd.srem w.rd.index w.rd.now (.refresh, device') token).get now
        (k, device')).getD [] ↔ _
      unfold History.listed
      cases k with
      | access =>
          have hne : (TokenKind.access, device') ≠ (TokenKind.refresh, device') := by
            intro he
            cases congrArg Prod.fst he
          rw [Rd.get_srem_ne _ _ _ hne, hr.index .access x now hle']
          simp
      | refresh =>
          rw [Rd.mem_srem hle', hr.index .refresh x now hle']
          simp [eq_comm]
    · intro k x at' ttl hmem
      rcases List.mem_cons.mp hmem with he | htail
      · cases he
      · exact hr.named k x at' ttl htail
  · exact absurd hg (hno user)

/-- A consume that is refused leaves the keys alone. -/
private theorem consume_refused {device device' token : String} {h : History} {i : Nat}
    {e : Err} {w w' : World} (hr : Refines device h w.rd)
    (hx : Prog.Runs Core.exec Working i (Redis.consumeRefreshToken device' token) w
      (.error e) w') : Refines device h w'.rd := by
  unfold Redis.consumeRefreshToken at hx
  split at hx
  · obtain ⟨_, rfl⟩ := Prog.runs_ret.mp hx
    exact hr
  · have hk := runs_rd_bind.mp hx
    have hsnd : (RdCmd.step i (.evalConsumeRefresh token device') w.rd).2 =
        (Rd.consumeRefresh w.rd token device').2 := rfl
    have hfst : (RdCmd.step i (.evalConsumeRefresh token device') w.rd).1 =
        Rd.logged (Rd.consumeRefresh w.rd token device').1 i
          (.evalConsumeRefresh token device') := rfl
    rw [hsnd, hfst] at hk
    rcases Rd.consumeRefresh_cases w.rd token device' with ⟨usr, hg, hc⟩ | ⟨_, hc⟩
    · obtain ⟨_, hne⟩ := hr.owner .refresh token w.rd.now device' usr (Int.le_refl _) hg
      rw [hc] at hk
      dsimp only at hk
      rw [if_neg hne] at hk
      obtain ⟨he, _⟩ := Prog.runs_ret.mp hk
      cases he
    · rw [hc] at hk
      obtain ⟨_, rfl⟩ := Prog.runs_ret.mp hk
      exact hr.later rfl rfl (Int.le_refl _)

/-- The environment leaves Redis alone, up to time. -/
theorem Env.step_rd {e : Env} {w w' : World} (h : e.step w = some w') :
    ∃ t, w.rd.now ≤ t ∧ w'.rd = { w.rd with now := t } := by
  cases e with
  | pass d =>
      simp only [Env.step] at h
      split at h
      · rename_i hd
        obtain rfl := Option.some.inj h
        exact ⟨w.rd.now + d, Int.le_add_of_nonneg_right hd, rfl⟩
      · cases h
  | setClock tm =>
      obtain rfl := Option.some.inj h
      exact ⟨_, Int.le_refl _, rfl⟩
  | passRedis d =>
      simp only [Env.step] at h
      split at h
      · rename_i hd
        obtain rfl := Option.some.inj h
        exact ⟨w.rd.now + d, Int.le_add_of_nonneg_right hd, rfl⟩
      · cases h
  | _ =>
      obtain ⟨hub, _, rfl⟩ := Option.map_eq_some_iff.mp h
      exact ⟨_, Int.le_refl _, rfl⟩

/-- **The history determines the keys.** -/
theorem TokenRun.refines {device : String} {h : History} {w : World}
    (hrun : TokenRun device h w) : Refines device h w.rd := by
  induction hrun with
  | start =>
      constructor
      · intro k x now _
        constructor
        · rintro ⟨v, hv⟩
          cases hv
        · rintro ⟨e, he, _⟩
          cases he
      · intro k x now dev user _ hg
        cases hg
      · intro k x now _
        constructor
        · intro hm
          cases hm
        · intro hl
          exact hl.elim
      · intro k x at' ttl hm
        cases hm
  | issue _ hissue ih => exact ih.issue (TokenKind.issue_issued hissue)
  | consume _ huse ih =>
      obtain ⟨_, _, _, hg, rfl⟩ := consumeRefreshToken_ok.mp huse
      exact ih.consume hg
  | refuse _ huse ih => exact consume_refused ih huse
  | pass _ hpass ih =>
      obtain ⟨t, hle, hw⟩ := Env.step_rd hpass
      rw [hw]
      exact ih.later rfl rfl hle

/-! ## What a revocation deletes -/

section Revoke

variable {ok : Oracle → Prop} {i : Nat}

/-- A pipeline that reports no error has run every command without one. -/
private theorem pipeline_cons {c : Core.M (Except Err Unit)}
    {rest : List (Core.M (Except Err Unit))} {w w' : World}
    (h : Prog.Runs Core.exec ok i (Redis.pipeline (c :: rest)) w (.ok ()) w') :
    ∃ w₁, Prog.Runs Core.exec ok i c w (.ok ()) w₁ ∧
      Prog.Runs Core.exec ok i (Redis.pipeline rest) w₁ (.ok ()) w' := by
  obtain ⟨r, w₁, hc, hk⟩ := Prog.runs_bind.mp h
  obtain ⟨rs, w₂, hrest, hret⟩ := Prog.runs_bind.mp hk
  cases r with
  | error e =>
      obtain ⟨he, _⟩ := Prog.runs_ret.mp hret
      cases he
  | ok u =>
      obtain ⟨he, rfl⟩ := Prog.runs_ret.mp hret
      subst he
      exact ⟨w₁, hc, hrest⟩

private theorem pipeline_append {cs ds : List (Core.M (Except Err Unit))} {w w' : World}
    (h : Prog.Runs Core.exec ok i (Redis.pipeline (cs ++ ds)) w (.ok ()) w') :
    ∃ w₁, Prog.Runs Core.exec ok i (Redis.pipeline cs) w (.ok ()) w₁ ∧
      Prog.Runs Core.exec ok i (Redis.pipeline ds) w₁ (.ok ()) w' := by
  induction cs generalizing w with
  | nil => exact ⟨w, .ret _ _, h⟩
  | cons c cs ih =>
      obtain ⟨w₁, hc, hrest⟩ := pipeline_cons h
      obtain ⟨w₂, hcs, hds⟩ := ih hrest
      refine ⟨w₂, ?_, hds⟩
      exact Prog.runs_bind.mpr ⟨.ok (), w₁, hc, Prog.runs_bind.mpr
        ⟨.ok (), w₂, hcs, .ret _ _⟩⟩

/-- Deleting tokens one after the other. -/
private theorem pipeline_delTokens {kind : TokenKind} {toks : List String} {w w' : World}
    (h : Prog.Runs Core.exec ok i
      (Redis.pipeline (toks.map fun t => Redis.rd (.delToken kind t))) w (.ok ()) w') :
    w'.rd.now = w.rd.now ∧
      ∀ k x, w'.rd.tokens (k, x) =
        if k = kind ∧ x ∈ toks then none else w.rd.tokens (k, x) := by
  induction toks generalizing w with
  | nil =>
      obtain ⟨_, rfl⟩ := Prog.runs_ret.mp h
      exact ⟨rfl, fun k x => by simp⟩
  | cons t toks ih =>
      obtain ⟨w₁, hc, hrest⟩ := pipeline_cons h
      obtain ⟨_, rfl⟩ := runs_rd_ok hc
      obtain ⟨hnow, htok⟩ := ih hrest
      refine ⟨hnow, ?_⟩
      intro k x
      rw [htok k x]
      have hstep : ((w.setRd (RdCmd.step i (.delToken kind t) w.rd).1).rd.tokens) (k, x) =
          w.rd.tokens.del (kind, t) (k, x) := rfl
      rw [hstep]
      by_cases hx : k = kind ∧ x = t
      · obtain ⟨rfl, rfl⟩ := hx
        simp
      · have hne : (k, x) ≠ (kind, t) := by
          intro he
          exact hx ⟨congrArg Prod.fst he, congrArg Prod.snd he⟩
        rw [TtlMap.del_ne _ hne]
        by_cases hk : k = kind
        · have hxt : x ≠ t := fun he => hx ⟨hk, he⟩
          simp [hk, hxt]
        · simp [hk]

/-- What `RevokeDeviceTokens` leaves when it returns without an error: the
tokens the index did not name. -/
theorem revokeDeviceTokens_ok {device : String} {w w' : World}
    (h : Prog.Runs Core.exec ok i (Redis.revokeDeviceTokens device) w (.ok ()) w') :
    w'.rd.now = w.rd.now ∧
      ∀ k x, w'.rd.tokens (k, x) =
        if x ∈ (w.rd.index.get w.rd.now (k, device)).getD [] then none
        else w.rd.tokens (k, x) := by
  unfold Redis.revokeDeviceTokens at h
  obtain ⟨toks, w₁, htoks, h⟩ := Prog.runs_bind.mp h
  cases toks with
  | error e =>
      obtain ⟨he, _⟩ := Prog.runs_ret.mp h
      cases he
  | ok toks =>
      obtain ⟨rfl, hw₁⟩ := runs_rd_ok htoks
      obtain ⟨rfr, w₂, hrfr, h⟩ := Prog.runs_bind.mp h
      cases rfr with
      | error e =>
          obtain ⟨he, _⟩ := Prog.runs_ret.mp h
          cases he
      | ok rfr =>
          obtain ⟨rfl, hw₂⟩ := runs_rd_ok hrfr
          obtain ⟨w₄, hdel, hindex⟩ := pipeline_append h
          obtain ⟨w₃, haccess, hrefresh⟩ := pipeline_append hdel
          obtain ⟨w₅, h₅, hrest⟩ := pipeline_cons hindex
          obtain ⟨w₆, h₆, hend⟩ := pipeline_cons hrest
          obtain ⟨_, hw₅⟩ := runs_rd_ok h₅
          obtain ⟨_, hw₆⟩ := runs_rd_ok h₆
          obtain ⟨_, hw'⟩ := Prog.runs_ret.mp hend
          obtain ⟨hnow₃, htok₃⟩ := pipeline_delTokens haccess
          obtain ⟨hnow₄, htok₄⟩ := pipeline_delTokens hrefresh
          have hrd₁ : w₁.rd = w.rd := by rw [hw₁]; rfl
          have hrd₂ : w₂.rd = w.rd := by rw [hw₂]; exact hrd₁
          have hrd₆ : w'.rd.tokens = w₄.rd.tokens ∧ w'.rd.now = w₄.rd.now := by
            rw [hw', hw₆, hw₅]
            exact ⟨rfl, rfl⟩
          refine ⟨?_, ?_⟩
          · rw [hrd₆.2, hnow₄, hnow₃, hrd₂]
          · intro k x
            rw [hrd₆.1, htok₄ k x, htok₃ k x, hrd₂]
            have hacc : (RdCmd.step i (.smembersIndex .access device) w.rd).2 =
                (w.rd.index.get w.rd.now (.access, device)).getD [] := rfl
            have href : (RdCmd.step i (.smembersIndex .refresh device) w₁.rd).2 =
                (w.rd.index.get w.rd.now (.refresh, device)).getD [] := by
              rw [hrd₁]
              rfl
            rw [hacc, href]
            cases k with
            | access => simp
            | refresh => simp

end Revoke

/-! ## Which tokens are accepted -/

/-- The token opens something: it resolves, or buys a new pair. -/
def Accepted (w : World) (kind : TokenKind) (token : String) : Prop :=
  match kind with
  | .access => ∃ i who w', Prog.Runs Core.exec Working i (Redis.resolveAccessToken token) w
      (.ok who) w'
  | .refresh => ∃ i device user w', Prog.Runs Core.exec Working i
      (Redis.consumeRefreshToken device token) w (.ok user) w'

theorem resolveAccessToken_ok {i : Nat} {token device user : String} {w w' : World} :
    Prog.Runs Core.exec Working i (Redis.resolveAccessToken token) w (.ok (device, user)) w' ↔
      w.rd.tokens.get w.rd.now (.access, token) = some (device, user) ∧ w' = w := by
  unfold Redis.resolveAccessToken
  rw [runs_rd_bind]
  have hstep : RdCmd.step i (.hgetallToken .access token) w.rd =
      (w.rd, w.rd.tokens.get w.rd.now (.access, token)) := rfl
  rw [hstep]
  have hset : w.setRd w.rd = w := rfl
  cases hg : w.rd.tokens.get w.rd.now (.access, token) with
  | none =>
      constructor
      · intro h
        obtain ⟨he, _⟩ := Prog.runs_ret.mp h
        cases he
      · rintro ⟨he, _⟩
        cases he
  | some v =>
      obtain ⟨dev, usr⟩ := v
      dsimp only
      rw [hset]
      constructor
      · intro h
        obtain ⟨he, rfl⟩ := Prog.runs_ret.mp h
        cases he
        exact ⟨rfl, rfl⟩
      · rintro ⟨he, rfl⟩
        cases he
        exact .ret _ _

/-- A token is accepted exactly while its key is there. -/
theorem accepted_iff {w : World} {kind : TokenKind} {token : String}
    (hne : token ≠ "")
    (howner : ∀ dev user, w.rd.tokens.get w.rd.now (kind, token) = some (dev, user) →
      dev ≠ "" ∧ user ≠ "") :
    Accepted w kind token ↔ ∃ v, w.rd.tokens.get w.rd.now (kind, token) = some v := by
  cases kind with
  | access =>
      constructor
      · rintro ⟨i, ⟨dev, user⟩, w', h⟩
        exact ⟨_, (resolveAccessToken_ok.mp h).1⟩
      · rintro ⟨⟨dev, user⟩, hg⟩
        exact ⟨0, (dev, user), w, resolveAccessToken_ok.mpr ⟨hg, rfl⟩⟩
  | refresh =>
      constructor
      · rintro ⟨i, dev, user, w', h⟩
        exact ⟨_, (consumeRefreshToken_ok.mp h).2.2.2.1⟩
      · rintro ⟨⟨dev, user⟩, hg⟩
        obtain ⟨hd, hu⟩ := howner dev user hg
        exact ⟨0, dev, user, _, consumeRefreshToken_ok.mpr ⟨hd, hne, hu, hg, rfl⟩⟩

/-- A valid token was issued. -/
theorem History.issued_of_lease {kind : TokenKind} {token : String} {h : History} {e : Time}
    (hl : History.lease kind token h = some e) :
    ∃ at' ttl, TokenEvent.issued kind token at' ttl ∈ h := by
  induction h with
  | nil => cases hl
  | cons ev h ih =>
      have htail : History.lease kind token h = some e →
          ∃ at' ttl, TokenEvent.issued kind token at' ttl ∈ ev :: h := by
        intro hl'
        obtain ⟨at', ttl, hm⟩ := ih hl'
        exact ⟨at', ttl, List.mem_cons_of_mem _ hm⟩
      cases ev with
      | issued k t at' ttl =>
          unfold History.lease at hl
          split at hl
          · rename_i hkt
            obtain ⟨rfl, rfl⟩ := hkt
            exact ⟨at', ttl, List.mem_cons_self⟩
          · exact htail hl
      | consumed t =>
          unfold History.lease at hl
          split at hl
          · cases hl
          · exact htail hl

namespace Sample

/-- The oracle that draws the byte `n` and lets nothing fail. -/
def draw (n : UInt8) : Nat → Oracle := fun _ => { bytes := List.replicate 32 n }

def issued (w : World) (ttl : Time) (n : UInt8) : World :=
  (TokenKind.issue .access "PC-1" "u" ttl).after Core.exec 0 (draw n) w

/-- A token for a day, one for a second, and two hours. -/
def waited : World := (issued (issued {} (24 * Time.hour) 1) Time.second 2).pass (2 * Time.hour)

def revoked : World :=
  (Redis.revokeDeviceTokens "PC-1").after Core.exec 0 (draw 0) waited

def twoTokens : History :=
  [.issued .access (drawn 2) 0 Time.second, .issued .access (drawn 1) 0 (24 * Time.hour)]

theorem waited_run : TokenRun "PC-1" twoTokens waited := by
  have h₁ : TokenRun "PC-1" [.issued .access (drawn 1) 0 (24 * Time.hour)]
      (issued {} (24 * Time.hour) 1) :=
    .issue (i := 0) .start
      (Prog.result_runs (draw 1) (fun _ => rfl) (by decide))
  have h₂ : TokenRun "PC-1" twoTokens
      (issued (issued {} (24 * Time.hour) 1) Time.second 2) :=
    .issue (i := 0) h₁
      (Prog.result_runs (draw 2) (fun _ => rfl) (by decide))
  exact .pass (e := .pass (2 * Time.hour)) h₂ rfl

theorem revoked_run : Prog.Runs Core.exec (fun _ => True) 0
    (Redis.revokeDeviceTokens "PC-1") waited (.ok ()) revoked :=
  Prog.result_runs (draw 0) (fun _ => trivial) (by decide)

end Sample

end Calcar
