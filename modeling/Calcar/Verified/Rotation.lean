import Calcar.Lib.Slot
import Calcar.Verified.Challenges

/-!
# Refresh tokens are rotated

An issue writes the key of its token once, the script of a consume takes it out
for the device that is written there, and a revocation deletes keys from a list
it has read.  Access and refresh tokens are keys of two namespaces.  The
append-only file says who holds which token, and whatever else runs in between,
a consume succeeds for the holder and for nobody else.

## Main results

* `rotation` — the law, in every run that mints distinct tokens.
-/

namespace Calcar

open Lib Rd

/-! ## What the append-only file says about tokens -/

/-- The token a command mints, with its namespace and device. -/
def mints (e : Nat × RdCmd) : Option (TokenKind × String × String) :=
  match e.2 with
  | .hsetToken kind token device _ => some (kind, token, device)
  | _ => none

/-- The tokens minted, the oldest first. -/
def minted (log : List (Nat × RdCmd)) : List (TokenKind × String × String) :=
  log.filterMap mints

/-- The device a token is for after one more command. -/
def holderAfter (kind : TokenKind) (token : String) (holder : Option String)
    (e : Nat × RdCmd) : Option String :=
  match e.2 with
  | .hsetToken k t device _ => if k = kind ∧ t = token then some device else holder
  | .delToken k t => if k = kind ∧ t = token then none else holder
  | .evalConsumeRefresh t device =>
      if kind = .refresh ∧ t = token ∧ holder = some device then none else holder
  | _ => holder

/-- The device a token is for, if it has not expired. -/
def holder (kind : TokenKind) (token : String) (log : List (Nat × RdCmd)) : Option String :=
  slot (holderAfter kind token) log

/-- Thread `i` took the refresh token when it was for this device. -/
def TookToken (device token : String) (i : Nat) (log : List (Nat × RdCmd)) : Prop :=
  ∃ pre post, log = pre ++ (i, .evalConsumeRefresh token device) :: post ∧
    holder .refresh token pre = some device

section Log

variable {kind : TokenKind} {device token : String} {i : Nat} {log : List (Nat × RdCmd)}

theorem minted_append (log more : List (Nat × RdCmd)) :
    minted (log ++ more) = minted log ++ minted more :=
  List.filterMap_append

theorem holder_concat (e : Nat × RdCmd) :
    holder kind token (log ++ [e]) = holderAfter kind token (holder kind token log) e :=
  slot_concat log e

/-- Only the minting of a token gives it a holder. -/
theorem holder_filled (kind : TokenKind) (token : String) (s : Option String)
    (e : Nat × RdCmd) (device : String) (h : holderAfter kind token s e = some device) :
    s = some device ∨ mints e = some (kind, token, device) := by
  obtain ⟨j, c⟩ := e
  cases c with
  | hsetToken k t dev user =>
      simp only [holderAfter] at h
      split at h
      · rename_i hkt
        obtain ⟨rfl, rfl⟩ := hkt
        obtain rfl := Option.some.inj h
        exact .inr rfl
      · exact .inl h
  | delToken k t =>
      simp only [holderAfter] at h
      split at h
      · cases h
      · exact .inl h
  | evalConsumeRefresh t dev =>
      simp only [holderAfter] at h
      split at h
      · cases h
      · exact .inl h
  | _ => exact .inl h

theorem holder_minted (h : holder kind token log = some device) :
    (kind, token, device) ∈ minted log := by
  have hfold : ∀ (more : List (Nat × RdCmd)) (s : Option String),
      more.foldl (holderAfter kind token) s = some device →
        s = some device ∨ (kind, token, device) ∈ minted more := by
    intro more
    induction more with
    | nil => exact fun s hs => .inl hs
    | cons e more ih =>
        intro s hs
        have hcons : minted (e :: more) = minted [e] ++ minted more := minted_append [e] more
        obtain hhere | hlater := ih _ hs
        · obtain hold | hmints := holder_filled kind token s e device hhere
          · exact .inl hold
          · right
            rw [hcons]
            apply List.mem_append_left
            simp [minted, hmints]
        · right
          rw [hcons]
          exact List.mem_append_right _ hlater
  obtain hnone | hmem := hfold log none h
  · cases hnone
  · exact hmem

theorem TookToken.mono (h : TookToken device token i log) (more : List (Nat × RdCmd)) :
    TookToken device token i (log ++ more) := by
  obtain ⟨pre, post, hlog, hheld⟩ := h
  refine ⟨pre, post ++ more, ?_, hheld⟩
  rw [hlog, List.append_assoc, List.cons_append]

theorem TookToken.minted (h : TookToken device token i log) :
    (.refresh, token, device) ∈ Calcar.minted log := by
  obtain ⟨pre, post, hlog, hheld⟩ := h
  rw [hlog, minted_append]
  exact List.mem_append_left _ (holder_minted hheld)

/-- Distinct tokens, whatever their namespace and device. -/
def DistinctTokens (log : List (Nat × RdCmd)) : Prop :=
  ((minted log).map fun x => x.2.1).Nodup

/-- A token that was minted was minted once. -/
theorem DistinctTokens.same (hd : DistinctTokens log) {kind' : TokenKind} {device' : String}
    (h : (kind, token, device) ∈ minted log) (h' : (kind', token, device') ∈ minted log) :
    kind' = kind ∧ device' = device := by
  have heq := List.inj_on_of_nodup_map hd h' h rfl
  exact ⟨congrArg Prod.fst heq, congrArg (fun x => x.2.2) heq⟩

/-- Of the consumes of distinct tokens one took this one. -/
theorem TookToken.once (hd : DistinctTokens log) {device' : String} {j : Nat}
    (hi : TookToken device token i log) (hj : TookToken device' token j log) : i = j := by
  have hgives : (log.filterMap fun e => (mints e).map fun x => x.2.1).Nodup := by
    unfold DistinctTokens Calcar.minted at hd
    rw [List.map_filterMap] at hd
    exact hd
  have hfilled : FilledBy (holderAfter .refresh token)
      (fun e => (mints e).map fun x => x.2.1) token := by
    intro s e dev hs
    obtain hold | hmints := holder_filled .refresh token s e dev hs
    · exact .inl hold
    · right
      show (mints e).map (fun x => x.2.1) = some token
      rw [hmints]
      rfl
  obtain ⟨pre, post, hlog, hpre⟩ := hi
  obtain ⟨pre', post', hlog', hpre'⟩ := hj
  have htakes : ∀ (i : Nat) (dev : String),
      holderAfter .refresh token (some dev) (i, .evalConsumeRefresh token dev) = none := by
    intro i dev
    simp [holderAfter]
  have hsame := emptied_once hfilled hgives hlog hlog' hpre (htakes i device) hpre'
    (htakes j device')
  exact congrArg Prod.fst hsame

end Log

/-! ## What a command does -/

/-- A live token is for the device that the file says. -/
def KeysHeld (r : RdState) : Prop :=
  ∀ kind token v, r.tokens.get r.now (kind, token) = some v →
    holder kind token r.aof = some v.1

theorem KeysHeld.keep {r r' : RdState} (h : KeysHeld r) {i : Nat} {c : RdCmd}
    (htokens : r'.tokens = r.tokens) (hnow : r'.now = r.now)
    (hc : ∀ kind token s, holderAfter kind token s (i, c) = s)
    (haof : r'.aof = r.aof ∨ r'.aof = r.aof ++ [(i, c)]) : KeysHeld r' := by
  intro kind token v hv
  rw [htokens, hnow] at hv
  have hheld := h kind token v hv
  obtain he | he := haof
  · rw [he]
    exact hheld
  · rw [he, holder_concat, hc]
    exact hheld

theorem KeysHeld.step {r : RdState} (h : KeysHeld r) (c : RdCmd) (i : Nat) :
    KeysHeld (c.step i r).1 := by
  have haof := c.step_aof i r
  cases c with
  | hsetToken k t device user =>
      intro kind token v hv
      show holder kind token (r.aof ++ [_]) = some v.1
      rw [holder_concat]
      have hread : (r.tokens.update r.now (k, t) fun _ => (device, user)).get r.now
          (kind, token) = some v := hv
      by_cases hkt : (kind, token) = (k, t)
      · obtain ⟨rfl, rfl⟩ := Prod.mk.inj hkt
        rw [TtlMap.get_update_self] at hread
        obtain rfl := Option.some.inj hread
        simp [holderAfter]
      · rw [TtlMap.get_update_ne _ _ _ hkt] at hread
        have hne : ¬(k = kind ∧ t = token) := by
          rintro ⟨rfl, rfl⟩
          exact hkt rfl
        simp only [holderAfter, if_neg hne]
        exact h kind token v hread
  | expireToken k t ttl =>
      intro kind token v hv
      show holder kind token (r.aof ++ [_]) = some v.1
      rw [holder_concat]
      have hread : (r.tokens.expire r.now (k, t) (r.now + Time.formatSec ttl)).get r.now
          (kind, token) = some v := hv
      exact h kind token v (TtlMap.get_of_expire hread)
  | delToken k t =>
      intro kind token v hv
      show holder kind token (r.aof ++ [_]) = some v.1
      rw [holder_concat]
      have hread : (r.tokens.del (k, t)).get r.now (kind, token) = some v := hv
      by_cases hkt : (kind, token) = (k, t)
      · rw [← hkt, TtlMap.get_del_self] at hread
        cases hread
      · rw [TtlMap.get_del_ne _ hkt] at hread
        have hne : ¬(k = kind ∧ t = token) := by
          rintro ⟨rfl, rfl⟩
          exact hkt rfl
        simp only [holderAfter, if_neg hne]
        exact h kind token v hread
  | evalConsumeRefresh t device =>
      intro kind token v hv
      have hread : (consumeRefresh r t device).1.tokens.get (consumeRefresh r t device).1.now
          (kind, token) = some v := hv
      have hlog : (consumeRefresh r t device).1.aof = r.aof := by
        unfold consumeRefresh
        split
        · rfl
        · split <;> rfl
      show holder kind token ((consumeRefresh r t device).1.aof ++ [_]) = some v.1
      rw [hlog, holder_concat]
      obtain ⟨user, _, hx⟩ | ⟨hno, hx⟩ := consumeRefresh_cases r t device
      · rw [hx] at hread
        have hleft : (r.tokens.del (.refresh, t)).get r.now (kind, token) = some v := hread
        by_cases hkt : (kind, token) = (.refresh, t)
        · rw [hkt, TtlMap.get_del_self] at hleft
          cases hleft
        · rw [TtlMap.get_del_ne _ hkt] at hleft
          have hne : ¬(kind = .refresh ∧ t = token ∧ holder kind token r.aof = some device) := by
            rintro ⟨rfl, rfl, _⟩
            exact hkt rfl
          simp only [holderAfter, if_neg hne]
          exact h kind token v hleft
      · rw [hx] at hread
        have hheld := h kind token v hread
        -- the script leaves a token of another device alone
        have hne : ¬(kind = .refresh ∧ t = token ∧ holder kind token r.aof = some device) := by
          rintro ⟨rfl, rfl, hholder⟩
          rw [hheld] at hholder
          obtain ⟨dev, user⟩ := v
          obtain rfl := Option.some.inj hholder
          exact hno user hread
        simp only [holderAfter, if_neg hne]
        exact hheld
  | hsetnxStatus id status =>
      refine h.keep ?_ ?_ (fun _ _ _ => rfl) haof
      · simp only [RdCmd.step]
        split <;> rfl
      · simp only [RdCmd.step]
        split <;> rfl
  | hsetnxJoinReq id requestId =>
      refine h.keep ?_ ?_ (fun _ _ _ => rfl) haof
      · simp only [RdCmd.step]
        split <;> rfl
      · simp only [RdCmd.step]
        split <;> rfl
  | setnxReplay requestId ttl =>
      refine h.keep ?_ ?_ (fun _ _ _ => rfl) haof
      · simp only [RdCmd.step]
        split <;> rfl
      · simp only [RdCmd.step]
        split <;> rfl
  | _ => exact h.keep rfl rfl (fun _ _ _ => rfl) haof

/-- Time does not give a token to anybody. -/
theorem KeysHeld.later {r : RdState} (h : KeysHeld r) {now : Time} (hnow : r.now ≤ now) :
    KeysHeld { r with now := now } := by
  intro kind token v hv
  exact h kind token v (TtlMap.get_later hnow hv)

/-! ## What every run keeps -/

/-- The store's calls, as far as tokens are concerned. -/
def tokenDiscipline (C : Crypto) : Discipline (storeCalls C) where
  inv w := KeysHeld w.rd
  allowed t _ cmd _ := ∀ c, cmd = .core c → t.Issues c

/-- A consume that succeeded took its token, and a token that was resolved was
minted as an access token. -/
def Answered (t : Seam) (i : Nat) (r : Bool) (w : World) : Prop :=
  (∀ device token, t = .consumeRefreshToken device token → r = true →
    TookToken device token i w.rd.aof) ∧
  ∀ token, t = .resolveAccessToken token → r = true →
    ∃ device, (.access, token, device) ∈ minted w.rd.aof

section Safety

variable {C : Crypto} {t : Seam} {i : Nat}

private theorem token_file_grows {w w' : World} (h : (tokenDiscipline C).Other i w w') :
    ∃ more, w'.rd.aof = w.rd.aof ++ more := by
  cases h with
  | @act j t cmd o r _ _ _ _ hx => exact cmd.exec_grows hx
  | env _ _ hx =>
      obtain ⟨now, _, hrd⟩ := Env.step_rd hx
      exact ⟨[], by rw [hrd, List.append_nil]⟩

private theorem answered_stable (r : Bool) :
    (tokenDiscipline C).Stable i fun w => Answered t i r w := by
  intro w w' hother h
  obtain ⟨more, hmore⟩ := token_file_grows hother
  rw [Answered, hmore]
  constructor
  · intro device token ht hr
    exact (h.1 device token ht hr).mono more
  · intro token ht hr
    obtain ⟨device, hmem⟩ := h.2 token ht hr
    rw [minted_append]
    exact ⟨device, List.mem_append_left _ hmem⟩

private theorem wherever_stable : (tokenDiscipline C).Stable i fun _ => True :=
  Discipline.stable_const True

/-- A call that was refused has answered nothing. -/
private theorem refused_safe :
    (tokenDiscipline C).Triple t i (fun _ => True) (.ret false) (Answered t i) := by
  apply Discipline.Triple.ret (answered_stable false)
  intro w _ _
  constructor
  · intro _ _ _ hr
    cases hr
  · intro _ _ hr
    cases hr

/-- The script takes a token for its holder. -/
private theorem script_safe (device token : String) :
    (tokenDiscipline C).Triple (.consumeRefreshToken device token) i (fun _ => True)
      (storeCode C (.consumeRefreshToken device token))
      (Answered (.consumeRefreshToken device token) i) := by
  show (tokenDiscipline C).Triple _ i _
    (Core.toSrv (Redis.consumeRefreshToken device token >>= fun r => .ret r.isOk)) _
  unfold Redis.consumeRefreshToken
  by_cases hblank : device = "" ∨ token = ""
  · rw [if_pos hblank]
    exact refused_safe
  rw [if_neg hblank]
  refine Discipline.Triple.call
    (B := fun r w => ∀ user, r = .ok (some user) → TookToken device token i w.rd.aof)
    wherever_stable ?_ ?_
  · intro w o hinv _ _
    refine ⟨fun c hc => ?_, ?_⟩
    · cases hc
      exact .inr ⟨rfl, rfl⟩
    intro w₁ r hx _ user hr
    subst hr
    obtain ⟨hw, ha⟩ := Prod.mk.inj (Option.some.inj hx)
    cases hf : o.fault with
    | none =>
        rw [hf] at hw ha
        have hscript : (consumeRefresh w.rd token device).2 = some user := Except.ok.inj ha
        obtain ⟨usr, hread, hc⟩ | ⟨_, hc⟩ := consumeRefresh_cases w.rd token device
        · refine ⟨w.rd.aof, [], ?_, hinv .refresh token _ hread⟩
          rw [← hw]
          show (consumeRefresh w.rd token device).1.aof ++ [_] = _
          rw [hc]
        · rw [hc] at hscript
          cases hscript
    | lost =>
        rw [hf] at ha
        cases ha
    | unacked =>
        rw [hf] at ha
        cases ha
  · intro r
    cases r with
    | error e => exact refused_safe.pre fun _ _ _ => trivial
    | ok found =>
        cases found with
        | none => exact refused_safe.pre fun _ _ _ => trivial
        | some user =>
            show (tokenDiscipline C).Triple _ i _
              (Core.toSrv ((ite _ _ _ : Core.M (Except Err String)) >>= _)) _
            by_cases hnobody : user = ""
            · rw [if_pos hnobody]
              exact refused_safe.pre fun _ _ _ => trivial
            · rw [if_neg hnobody]
              apply Discipline.Triple.ret (answered_stable true)
              intro w _ htook
              constructor
              · intro d tok ht _
                obtain ⟨rfl, rfl⟩ := Seam.consumeRefreshToken.inj ht
                exact htook user rfl
              · intro tok ht
                cases ht

/-- What resolves is in the namespace of access tokens. -/
private theorem resolve_safe (token : String) :
    (tokenDiscipline C).Triple (.resolveAccessToken token) i (fun _ => True)
      (storeCode C (.resolveAccessToken token)) (Answered (.resolveAccessToken token) i) := by
  refine Discipline.Triple.call
    (B := fun r w => ∀ v, r = .ok (some v) → (.access, token, v.1) ∈ minted w.rd.aof)
    wherever_stable ?_ ?_
  · intro w o hinv _ _
    refine ⟨fun c hc => ?_, ?_⟩
    · cases hc
      exact .inl trivial
    intro w₁ r hx _ v hr
    subst hr
    obtain ⟨hw, ha⟩ := Prod.mk.inj (Option.some.inj hx)
    cases hf : o.fault with
    | none =>
        rw [hf] at hw ha
        rw [← hw]
        exact holder_minted (hinv .access token v (Except.ok.inj ha))
    | lost =>
        rw [hf] at ha
        cases ha
    | unacked =>
        rw [hf] at ha
        cases ha
  · intro r
    cases r with
    | error e => exact refused_safe.pre fun _ _ _ => trivial
    | ok found =>
        cases found with
        | none => exact refused_safe.pre fun _ _ _ => trivial
        | some v =>
            obtain ⟨device, user⟩ := v
            apply Discipline.Triple.ret (answered_stable true)
            intro w _ hmem
            constructor
            · intro d tok ht
              cases ht
            · intro tok ht _
              obtain rfl := Seam.resolveAccessToken.inj ht
              exact ⟨device, hmem _ rfl⟩

/-- The call keeps to the commands of its method. -/
private theorem method_issues (t : Seam) :
    (tokenDiscipline C).Triple t i (fun _ => True) (storeCode C t) fun _ _ => True := by
  apply Discipline.Triple.only (P := fun c => ∃ c', c = .core c' ∧ t.Issues c')
  · unfold storeCode
    apply only_toSrv
    exact (combined_issues C t).bind fun _ => trivial
  · exact wherever_stable
  · intro cmd o w hc _ _ _
    refine ⟨?_, fun _ _ _ => trivial⟩
    intro c hcmd
    obtain ⟨c', hc', hissues⟩ := hc
    rw [hcmd] at hc'
    cases hc'
    exact hissues

/-- Any call of the store. -/
private theorem token_call_safe (t : Seam) :
    (tokenDiscipline C).Triple t i (fun _ => True) (storeCode C t) (Answered t i) := by
  cases t with
  | consumeRefreshToken device token => exact script_safe device token
  | resolveAccessToken token => exact resolve_safe token
  | _ =>
      apply (method_issues _).post
      intro r w _
      constructor
      · intro _ _ ht
        cases ht
      · intro _ ht
        cases ht

end Safety

/-! ## All runs -/

/-- No token was minted yet, and no call runs. -/
structure Unminted (c : StoreConfig) : Prop where
  idle : c.pool = []
  unwritten : c.world.rd.aof = []
  empty : c.world.rd.tokens = .empty

/-- `ConsumeRefreshToken` has succeeded for thread `i`. -/
def Refreshed (c : StoreConfig) (i : Nat) (device token : String) : Prop :=
  c.pool[i]? = some (.consumeRefreshToken device token, .ret true)

/-- `ResolveAccessToken` has succeeded for thread `i`. -/
def Resolved (c : StoreConfig) (i : Nat) (token : String) : Prop :=
  c.pool[i]? = some (.resolveAccessToken token, .ret true)

/-- Refresh tokens are rotated: one is consumed by one call, for the device it
was issued to and no other; a step of a consume for another device leaves every
token as it is; and neither kind of token passes for the other. -/
structure Rotation (C : Crypto) (c : StoreConfig) : Prop where
  once : ∀ i j d e token, Refreshed c i d token → Refreshed c j e token → i = j
  device : ∀ i d token, Refreshed c i d token →
    ∀ e, (.refresh, token, e) ∈ minted c.world.rd.aof ↔ e = d
  spares : ∀ i d token p e, c.pool[i]? = some (.consumeRefreshToken d token, p) →
    (.refresh, token, e) ∈ minted c.world.rd.aof → e ≠ d →
      ∀ o c', (storeCalls C).next c (.act i o) = some c' →
        c'.world.rd.tokens = c.world.rd.tokens
  resolves : ∀ i token, Resolved c i token →
    ∀ e, (.refresh, token, e) ∉ minted c.world.rd.aof
  consumes : ∀ i d token, Refreshed c i d token →
    ∀ e, (.access, token, e) ∉ minted c.world.rd.aof

section Runs

variable {C : Crypto} {c₀ c : StoreConfig}

/-- **Every run**: live tokens are for the device the file says, and calls have
answered accordingly. -/
theorem token_invariant (h₀ : Unminted c₀)
    (h : (storeCalls C).Reach (fun _ _ => True) c₀ c) :
    KeysHeld c.world.rd ∧ ∀ i t p, c.pool[i]? = some (t, p) →
      (tokenDiscipline C).Safe t i (Answered t i) p c.world := by
  have hreach := (tokenDiscipline C).presumes_any trivial trivial h
  have hkeys : KeysHeld c₀.world.rd := by
    intro kind token v hv
    rw [h₀.empty] at hv
    cases hv
  have hsound := Discipline.sound (D := tokenDiscipline C) (Q := fun t i => Answered t i)
    ?_ ?_ ?_ ?_ hkeys ?_ ?_ hreach
  · exact ⟨hsound.2.1, hsound.2.2.2⟩
  · intro t j cmd o w w' r hinv _ _ hx
    show KeysHeld w'.rd
    obtain he | ⟨c, _, _, he⟩ := cmd.exec_aof hx
    · rw [he]
      exact hinv
    · rw [he]
      exact KeysHeld.step hinv c j
  · intro e w w' hinv _ hx
    obtain ⟨now, hnow, hrd⟩ := Env.step_rd hx
    show KeysHeld w'.rd
    rw [hrd]
    exact KeysHeld.later hinv hnow
  · exact fun i _ => Discipline.stable_const True
  · exact fun t i w _ hinv _ => (token_call_safe t).safe hinv trivial
  · exact fun _ _ => trivial
  · intro i t p hi
    rw [h₀.idle] at hi
    cases hi

/-- A consume for another device than the token's changes no token. -/
theorem consume_spares (h₀ : Unminted c₀)
    (h : (storeCalls C).Reach (fun _ _ => True) c₀ c) (hd : DistinctTokens c.world.rd.aof)
    {i : Nat} {d e token : String} {p : Prog Srv Srv.Ans Bool} {o : Oracle} {c' : StoreConfig}
    (hi : c.pool[i]? = some (.consumeRefreshToken d token, p))
    (hmem : (.refresh, token, e) ∈ minted c.world.rd.aof) (hne : e ≠ d)
    (hs : (storeCalls C).next c (.act i o) = some c') :
    c'.world.rd.tokens = c.world.rd.tokens := by
  obtain ⟨hkeys, hsafe⟩ := token_invariant h₀ h
  obtain ⟨t, cmd, k, w, r, hj, hx, hc'⟩ := System.next_act hs
  rw [hi] at hj
  obtain ⟨ht, hp⟩ := Prod.mk.inj (Option.some.inj hj)
  have hissues : ∀ x, cmd = .core x → (Seam.consumeRefreshToken d token).Issues x := by
    have hsafe' := hsafe i _ _ hi
    rw [hp] at hsafe'
    exact hsafe'.issues (o := o) hkeys trivial
  have hworld : c'.world = w := by
    rw [hc']
  rw [hworld]
  obtain he | ⟨x, hcmd, _, he⟩ := cmd.exec_aof hx
  · rw [he]
  · rw [he]
    cases hissues _ hcmd with
    | inl hreads =>
        cases x with
        | hgetallPairing _ => rfl
        | ttlPairing _ => rfl
        | getChallenge _ => rfl
        | hgetallToken _ _ => rfl
        | smembersIndex _ _ => rfl
        | hgetallPresence _ => rfl
        | ping => rfl
        | _ => exact hreads.elim
    | inr hwrites =>
        cases x with
        | evalConsumeRefresh token' device' =>
            obtain ⟨rfl, rfl⟩ : token' = token ∧ device' = d := hwrites
            show (consumeRefresh c.world.rd token' device').1.tokens = _
            obtain ⟨user, hread, _⟩ | ⟨_, hscript⟩ :=
              consumeRefresh_cases c.world.rd token' device'
            · have hown := holder_minted (hkeys .refresh token' _ hread)
              exact absurd (hd.same hown hmem).2 hne
            · rw [hscript]
        | _ => exact hwrites.elim

/-- **Refresh rotation**, in every run that mints distinct tokens. -/
theorem rotation (h₀ : Unminted c₀) (h : (storeCalls C).Reach (fun _ _ => True) c₀ c)
    (hd : DistinctTokens c.world.rd.aof) : Rotation C c := by
  obtain ⟨_, hsafe⟩ := token_invariant h₀ h
  have htook : ∀ i d token, Refreshed c i d token → TookToken d token i c.world.rd.aof := by
    intro i d token hi
    exact (hsafe i _ _ hi).returned.1 d token rfl rfl
  constructor
  · intro i j d e token hi hj
    exact (htook i d token hi).once hd (htook j e token hj)
  · intro i d token hi e
    have hmem := (htook i d token hi).minted
    constructor
    · intro he
      exact (hd.same hmem he).2
    · intro he
      rw [he]
      exact hmem
  · intro i d token p e hi hmem hne o c' hs
    exact consume_spares h₀ h hd hi hmem hne hs
  · intro i token hi e hmem
    obtain ⟨device, haccess⟩ := (hsafe i _ _ hi).returned.2 token rfl rfl
    cases (hd.same haccess hmem).1
  · intro i d token hi e hmem
    cases (hd.same (htook i d token hi).minted hmem).1

end Runs

namespace Sample

/-- The refresh token of the sample run. -/
def refreshToken : String := Text.hexEncode (List.replicate 32 2)

/-- A pair is issued to the phone and its refresh token rotated: first for
another device, then for the phone. -/
def rotated : StoreConfig :=
  let issue (c : StoreConfig) (n : UInt8) (t : Seam) := (storeCalls crypto).serve c t (seed n)
  issue (issue (issue (issue { world := {}, pool := [] }
    1 (.issueAccessToken "PH-1" "U-1" Time.hour))
    2 (.issueRefreshToken "PH-1" "U-1" Time.hour))
    3 (.consumeRefreshToken "PC-1" refreshToken))
    4 (.consumeRefreshToken "PH-1" refreshToken)

theorem rotated_reach :
    (storeCalls crypto).Reach (fun _ _ => True) { world := {}, pool := [] } rotated := by
  have hserve : ∀ (c : StoreConfig) (t : Seam) (n : UInt8),
      (storeCalls crypto).Reach (fun _ _ => True) c ((storeCalls crypto).serve c t (seed n)) :=
    fun c t n => System.serve_reach c t (seed n)
  exact (((hserve _ _ 1).trans (hserve _ _ 2)).trans (hserve _ _ 3)).trans (hserve _ _ 4)

end Sample

/-- The phone's refresh token is consumed by the phone. -/
theorem rotation_sample :
    Refreshed Sample.rotated 3 "PH-1" Sample.refreshToken ∧
      Rotation Sample.crypto Sample.rotated := by
  have hdistinct : DistinctTokens Sample.rotated.world.rd.aof := by
    unfold DistinctTokens
    decide
  exact ⟨rfl, rotation ⟨rfl, rfl, rfl⟩ Sample.rotated_reach hdistinct⟩

end Calcar
