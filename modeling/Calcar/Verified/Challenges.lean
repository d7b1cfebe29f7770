import Calcar.Verified.Decisions
import Calcar.Verified.Tokens
import Mathlib.Data.List.Induction
import Mathlib.Data.List.Nodup

/-!
# The challenge a device answers

`IssueChallenge` writes the one key of a device, `ConsumeChallenge` reads it,
compares, and deletes it: two commands, and the commands of other calls may
come in between.  The append-only file says what Redis carried out in which
order, so it says which challenge a device was issued last and which one its
key holds.

Two consumes of one challenge that both read before either deletes both
return nil, and a consume that was overtaken by a new issue deletes the new
challenge.  Nothing else goes wrong: where each deletion still finds the
challenge that was compared, a challenge is used once, by its device, and
while it is the latest one.

## Main results

* `single_use_when_intact` — the law, in every run whose deletions find what
  was compared.
* `consumed_twice` — the run in which one challenge is accepted twice.
-/

namespace Calcar

open Lib Rd

/-! ## What the append-only file says about challenges -/

/-- The challenges issued, each with its device, the oldest first. -/
def issued (log : List (Nat × RdCmd)) : List (String × String) :=
  log.filterMap fun e =>
    match e.2 with
    | .setChallenge device challenge _ => some (device, challenge)
    | _ => none

/-- The challenge the device was issued last. -/
def lastIssued (device : String) (log : List (Nat × RdCmd)) : Option String :=
  ((issued log).filter fun x => x.1 = device).getLast?.map Prod.snd

/-- What the key of the device holds after one more command. -/
def heldAfter (device : String) (held : Option String) : RdCmd → Option String
  | .setChallenge d challenge _ => if d = device then some challenge else held
  | .delChallenge d => if d = device then none else held
  | _ => held

/-- What the key of the device holds, if it has not expired. -/
def held (device : String) (log : List (Nat × RdCmd)) : Option String :=
  log.foldl (fun s e => heldAfter device s e.2) none

/-- Thread `i` deleted the device's key when it held this challenge. -/
def TookOwn (device challenge : String) (i : Nat) (log : List (Nat × RdCmd)) : Prop :=
  ∃ pre post, log = pre ++ (i, .delChallenge device) :: post ∧
    held device pre = some challenge

section Log

variable {device challenge : String} {i : Nat} {c : RdCmd} {log more : List (Nat × RdCmd)}

theorem issued_append (log more : List (Nat × RdCmd)) :
    issued (log ++ more) = issued log ++ issued more :=
  List.filterMap_append

theorem held_concat (device : String) (log : List (Nat × RdCmd)) (e : Nat × RdCmd) :
    held device (log ++ [e]) = heldAfter device (held device log) e.2 := by
  simp [held]

/-- A challenge the key holds was there, or was issued since. -/
theorem held_from {s : Option String}
    (h : more.foldl (fun s e => heldAfter device s e.2) s = some challenge) :
    s = some challenge ∨ (device, challenge) ∈ issued more := by
  induction more generalizing s with
  | nil => exact .inl h
  | cons e more ih =>
      have htail : ∀ x, x ∈ issued more → x ∈ issued (e :: more) := by
        intro x hx
        rw [show e :: more = [e] ++ more from rfl, issued_append]
        exact List.mem_append_right _ hx
      rcases ih h with hs | hmem
      · obtain ⟨j, c⟩ := e
        cases c with
        | setChallenge d ch ttl =>
            simp only [heldAfter] at hs
            split at hs
            · rename_i hd
              obtain rfl := Option.some.inj hs
              subst hd
              exact .inr (List.mem_cons_self ..)
            · exact .inl hs
        | delChallenge d =>
            simp only [heldAfter] at hs
            split at hs
            · cases hs
            · exact .inl hs
        | _ => exact .inl hs
      · exact .inr (htail _ hmem)

theorem held_issued (h : held device log = some challenge) :
    (device, challenge) ∈ issued log := by
  cases held_from h with
  | inl hnone => cases hnone
  | inr hmem => exact hmem

/-- What the key holds is what was issued last. -/
theorem held_last (h : held device log = some challenge) :
    lastIssued device log = some challenge := by
  induction log using List.reverseRecOn generalizing challenge with
  | nil => cases h
  | append_singleton log e ih =>
      rw [held_concat] at h
      unfold lastIssued
      rw [issued_append, List.filter_append]
      obtain ⟨j, c⟩ := e
      cases c with
      | setChallenge d ch ttl =>
          simp only [heldAfter] at h
          split at h
          · rename_i hd
            obtain rfl := Option.some.inj h
            simp [issued, hd]
          · rename_i hd
            have hkeep := ih h
            simpa [issued, hd, lastIssued] using hkeep
      | delChallenge d =>
          simp only [heldAfter] at h
          split at h
          · cases h
          · have hkeep := ih h
            simpa [issued, lastIssued] using hkeep
      | _ =>
          have hkeep := ih h
          simpa [issued, lastIssued] using hkeep

theorem TookOwn.mono (h : TookOwn device challenge i log) (more : List (Nat × RdCmd)) :
    TookOwn device challenge i (log ++ more) := by
  obtain ⟨pre, post, hlog, hheld⟩ := h
  refine ⟨pre, post ++ more, ?_, hheld⟩
  rw [hlog, List.append_assoc, List.cons_append]

/-- Once a challenge was deleted its key never holds it again. -/
private theorem not_again {pre mid post : List (Nat × RdCmd)} {i j : Nat} {d : String}
    (hd : ((issued log).map Prod.snd).Nodup)
    (hlog : log = (pre ++ (i, .delChallenge device) :: mid) ++ (j, .delChallenge d) :: post)
    (hpre : held device pre = some challenge)
    (hlater : held d (pre ++ (i, .delChallenge device) :: mid) = some challenge) : False := by
  have hdev : d = device := by
    have hfirst : (device, challenge) ∈ issued log := by
      rw [hlog, issued_append, issued_append]
      exact List.mem_append_left _ (List.mem_append_left _ (held_issued hpre))
    have hsecond : (d, challenge) ∈ issued log := by
      rw [hlog, issued_append]
      exact List.mem_append_left _ (held_issued hlater)
    exact congrArg Prod.fst (List.inj_on_of_nodup_map hd hsecond hfirst rfl)
  subst hdev
  have hmid : (d, challenge) ∈ issued mid := by
    have hfold : mid.foldl (fun s e => heldAfter d s e.2) none = some challenge := by
      simpa [held, heldAfter] using hlater
    cases held_from hfold with
    | inl hnone => cases hnone
    | inr hmem => exact hmem
  -- the two issues of the challenge are one
  have hsplit : (issued log).map Prod.snd = (issued pre).map Prod.snd ++
      ((issued mid).map Prod.snd ++ (issued post).map Prod.snd) := by
    rw [hlog]
    simp [issued]
  rw [hsplit] at hd
  have hapart := (List.nodup_append.mp hd).2.2
  exact hapart challenge (List.mem_map_of_mem (held_issued hpre)) challenge
    (List.mem_append_left _ (List.mem_map_of_mem hmid)) rfl

/-- Of the deletions of distinct challenges one took this one. -/
theorem TookOwn.once {d : String} {j : Nat} (hd : ((issued log).map Prod.snd).Nodup)
    (hi : TookOwn device challenge i log) (hj : TookOwn d challenge j log) : i = j := by
  obtain ⟨pre, post, hlog, hpre⟩ := hi
  obtain ⟨pre', post', hlog', hpre'⟩ := hj
  have heq : pre ++ (i, .delChallenge device) :: post =
      pre' ++ (j, .delChallenge d) :: post' := hlog.symm.trans hlog'
  rcases List.append_eq_append_iff.mp heq with ⟨mid, h₁, h₂⟩ | ⟨mid, h₁, h₂⟩
  · cases mid with
    | nil =>
        have hhead := (List.cons.inj h₂).1
        exact congrArg Prod.fst hhead
    | cons e mid =>
        obtain rfl := (List.cons.inj h₂).1
        rw [h₁] at hpre' hlog'
        exact (not_again hd hlog' hpre hpre').elim
  · cases mid with
    | nil =>
        have hhead := (List.cons.inj h₂).1
        exact (congrArg Prod.fst hhead).symm
    | cons e mid =>
        obtain rfl := (List.cons.inj h₂).1
        rw [h₁] at hpre hlog
        exact (not_again hd hlog hpre' hpre).elim

end Log

/-! ## What a command does -/

/-- The file only grows, by the command carried out. -/
theorem RdCmd.step_aof (c : RdCmd) (i : Nat) (r : RdState) :
    (c.step i r).1.aof = r.aof ∨ (c.step i r).1.aof = r.aof ++ [(i, c)] := by
  cases c with
  | hsetnxStatus id status => simp only [step]; split <;> simp [logged]
  | hsetnxJoinReq id requestId => simp only [step]; split <;> simp [logged]
  | setnxReplay requestId ttl => simp only [step]; split <;> simp [logged]
  | evalConsumeRefresh token device =>
      right
      show (consumeRefresh r token device).1.aof ++ [_] = _
      unfold consumeRefresh
      split
      · rfl
      · split <;> rfl
  | hgetallPairing id => exact .inl rfl
  | ttlPairing id => exact .inl rfl
  | getChallenge device => exact .inl rfl
  | hgetallToken kind token => exact .inl rfl
  | smembersIndex kind device => exact .inl rfl
  | hgetallPresence device => exact .inl rfl
  | ping => exact .inl rfl
  | _ => exact .inr rfl

/-- The key of every device holds what the file says. -/
def KeysTold (r : RdState) : Prop :=
  ∀ device, (r.challenges device).map Entry.val = held device r.aof

theorem KeysTold.keep {r r' : RdState} (h : KeysTold r) {i : Nat} {c : RdCmd}
    (hkeys : r'.challenges = r.challenges)
    (hc : ∀ device s, heldAfter device s c = s)
    (haof : r'.aof = r.aof ∨ r'.aof = r.aof ++ [(i, c)]) : KeysTold r' := by
  intro device
  rw [hkeys, h device]
  cases haof with
  | inl he => rw [he]
  | inr he => rw [he, held_concat, hc]

theorem KeysTold.step {r : RdState} (h : KeysTold r) (c : RdCmd) (i : Nat) :
    KeysTold (c.step i r).1 := by
  have haof := c.step_aof i r
  cases c with
  | setChallenge d ch ttl =>
      intro device
      show ((r.challenges.set d ch _) device).map Entry.val = held device (r.aof ++ [_])
      rw [held_concat]
      by_cases hd : d = device
      · subst hd
        simp [heldAfter]
      · rw [TtlMap.set_ne _ _ _ (Ne.symm hd), h device]
        simp [heldAfter, hd]
  | delChallenge d =>
      intro device
      show ((r.challenges.del d) device).map Entry.val = held device (r.aof ++ [_])
      rw [held_concat]
      by_cases hd : d = device
      · subst hd
        simp [heldAfter]
      · rw [TtlMap.del_ne _ (Ne.symm hd), h device]
        simp [heldAfter, hd]
  | hsetnxStatus id status =>
      refine h.keep ?_ (fun _ _ => rfl) haof
      simp only [RdCmd.step]
      split <;> rfl
  | hsetnxJoinReq id requestId =>
      refine h.keep ?_ (fun _ _ => rfl) haof
      simp only [RdCmd.step]
      split <;> rfl
  | setnxReplay requestId ttl =>
      refine h.keep ?_ (fun _ _ => rfl) haof
      simp only [RdCmd.step]
      split <;> rfl
  | evalConsumeRefresh token device =>
      refine h.keep ?_ (fun _ _ => rfl) haof
      show (consumeRefresh r token device).1.challenges = _
      unfold consumeRefresh
      split
      · rfl
      · split <;> rfl
  | _ => exact h.keep rfl (fun _ _ => rfl) haof

/-- A server command that Redis carries out is in the file; any other leaves
the file alone. -/
theorem Srv.exec_aof (cmd : Srv) {i : Nat} {o : Oracle} {w w' : World} {a : cmd.Ans}
    (hx : cmd.exec i o w = some (w', a)) :
    w'.rd = w.rd ∨
      ∃ c, cmd = .core (.rd c) ∧ o.fault ≠ .lost ∧ w'.rd = (c.step i w.rd).1 := by
  cases cmd with
  | core c =>
      cases c with
      | rd c =>
          obtain ⟨rfl, _⟩ := Prod.mk.inj (Option.some.inj hx)
          cases hf : o.fault with
          | lost => left; simp [RdCmd.exec]
          | none => exact .inr ⟨c, rfl, by simp, by simp [RdCmd.exec]⟩
          | unacked => exact .inr ⟨c, rfl, by simp, by simp [RdCmd.exec]⟩
      | pg c =>
          simp only [Srv.exec, Core.exec] at hx
          split at hx
          · cases hx
          · obtain ⟨rfl, _⟩ := Prod.mk.inj (Option.some.inj hx)
            exact .inl rfl
      | rand n =>
          simp only [Srv.exec, Core.exec] at hx
          split at hx
          · obtain ⟨rfl, _⟩ := Prod.mk.inj (Option.some.inj hx)
            exact .inl rfl
          · cases hx
      | _ =>
          obtain ⟨rfl, _⟩ := Prod.mk.inj (Option.some.inj hx)
          exact .inl rfl
  | done k =>
      simp only [Srv.exec] at hx
      split at hx
      · split at hx
        · cases hx
        · obtain ⟨rfl, _⟩ := Prod.mk.inj (Option.some.inj hx)
          exact .inl rfl
      · cases hx
  | takeCatchup =>
      simp only [Srv.exec] at hx
      split at hx
      · cases hx
      · obtain ⟨rfl, _⟩ := Prod.mk.inj (Option.some.inj hx)
        exact .inl rfl
  | _ =>
      obtain ⟨rfl, _⟩ := Prod.mk.inj (Option.some.inj hx)
      exact .inl rfl

/-- The file only grows. -/
theorem Srv.exec_grows (cmd : Srv) {i : Nat} {o : Oracle} {w w' : World} {a : cmd.Ans}
    (hx : cmd.exec i o w = some (w', a)) : ∃ more, w'.rd.aof = w.rd.aof ++ more := by
  rcases cmd.exec_aof hx with he | ⟨c, _, _, he⟩
  · exact ⟨[], by rw [he, List.append_nil]⟩
  · rw [he]
    cases c.step_aof i w.rd with
    | inl hsame => exact ⟨[], by rw [hsame, List.append_nil]⟩
    | inr hone => exact ⟨_, hone⟩

/-! ## What every run keeps -/

/-- A deletion by a consume that Redis carries out finds, under the key of
the device, the challenge that was compared: nobody has issued or consumed
one since the read. -/
def Intact (c : StoreConfig) : Label Seam Oracle Env → Prop
  | .act i o => ∀ device challenge k,
      c.pool[i]? = some (.consumeChallenge device challenge,
        .call (.core (.rd (.delChallenge device))) k) →
      o.fault ≠ .lost → (c.world.rd.challenges device).map Entry.val = some challenge
  | _ => True

/-- The store's calls, as far as challenges are concerned. -/
def challengeDiscipline (C : Crypto) : Discipline (storeCalls C) where
  inv w := KeysTold w.rd
  allowed t _ cmd _ := ∀ c, cmd = .core c → t.Issues c
  presumed t _ cmd o w := ∀ device challenge, t = .consumeChallenge device challenge →
    cmd = .core (.rd (.delChallenge device)) → o.fault ≠ .lost →
    (w.rd.challenges device).map Entry.val = some challenge

/-- A consume that returned nil has deleted its own challenge. -/
def Took (t : Seam) (i : Nat) (r : Bool) (w : World) : Prop :=
  ∀ device challenge, t = .consumeChallenge device challenge → r = true →
    TookOwn device challenge i w.rd.aof

section Safety

variable {C : Crypto} {t : Seam} {i : Nat}

private theorem other_grows {w w' : World} (h : (challengeDiscipline C).Other i w w') :
    ∃ more, w'.rd.aof = w.rd.aof ++ more := by
  cases h with
  | @act j t cmd o r _ _ _ _ hx => exact cmd.exec_grows hx
  | env _ _ hx =>
      obtain ⟨now, _, hrd⟩ := Env.step_rd hx
      exact ⟨[], by rw [hrd, List.append_nil]⟩

private theorem took_stable (r : Bool) :
    (challengeDiscipline C).Stable i fun w => Took t i r w := by
  intro w w' hother htook device challenge ht hr
  obtain ⟨more, hmore⟩ := other_grows hother
  rw [hmore]
  exact (htook device challenge ht hr).mono more

private theorem anywhere_stable : (challengeDiscipline C).Stable i fun _ => True :=
  Discipline.stable_const True

/-- The call keeps to the commands of its method. -/
private theorem issues_safe (t : Seam) :
    (challengeDiscipline C).Triple t i (fun _ => True) (storeCode C t) fun _ _ => True := by
  apply Discipline.Triple.only (P := fun c => ∃ c', c = .core c' ∧ t.Issues c')
  · unfold storeCode
    apply only_toSrv
    exact (combined_issues C t).bind fun _ => trivial
  · exact anywhere_stable
  · intro cmd o w hc _ _ _
    refine ⟨?_, fun _ _ _ => trivial⟩
    intro c hcmd
    obtain ⟨c', hc', hissues⟩ := hc
    rw [hcmd] at hc'
    cases hc'
    exact hissues

/-- The deletion finds what was compared. -/
private theorem delete_safe (device challenge : String) :
    (challengeDiscipline C).Triple (.consumeChallenge device challenge) i (fun _ => True)
      (Core.toSrv (Redis.rd (.delChallenge device) >>= fun r => .ret r.isOk))
      (Took (.consumeChallenge device challenge) i) := by
  refine Discipline.Triple.call
    (B := fun r w => Took (.consumeChallenge device challenge) i r.isOk w)
    anywhere_stable ?_ ?_
  · intro w o hinv hfound _
    constructor
    · intro c hc
      cases hc
      exact .inr rfl
    · intro w₁ r hx _ d ch ht hr
      obtain ⟨rfl, rfl⟩ := Seam.consumeChallenge.inj ht
      obtain ⟨rfl, rfl⟩ := Prod.mk.inj (Option.some.inj hx)
      cases hf : o.fault with
      | none =>
          have hheld := hfound device challenge rfl rfl (by simp [hf])
          refine ⟨w.rd.aof, [], ?_, ?_⟩
          · rfl
          · rw [← hinv device]
            exact hheld
      | lost =>
          rw [hf] at hr
          cases hr
      | unacked =>
          rw [hf] at hr
          cases hr
  · intro r
    exact Discipline.Triple.ret (took_stable _) fun w _ htook => htook

private theorem consume_safe (device challenge : String) :
    (challengeDiscipline C).Triple (.consumeChallenge device challenge) i (fun _ => True)
      (storeCode C (.consumeChallenge device challenge))
      (Took (.consumeChallenge device challenge) i) := by
  have hrefused : (challengeDiscipline C).Triple (.consumeChallenge device challenge) i
      (fun _ => True) (.ret false) (Took (.consumeChallenge device challenge) i) := by
    apply Discipline.Triple.ret (took_stable false)
    intro w _ _ d ch _ hr
    cases hr
  refine Discipline.Triple.call (B := fun _ _ => True) anywhere_stable ?_ ?_
  · intro w o _ _ _
    refine ⟨?_, fun _ _ _ _ => trivial⟩
    intro c hc
    cases hc
    exact .inl trivial
  · intro found
    cases found with
    | error e => exact hrefused
    | ok got =>
        cases got with
        | none => exact hrefused
        | some value =>
            show (challengeDiscipline C).Triple _ i _
              (Core.toSrv (ite _ _ _ >>= _)) _
            split
            · exact hrefused
            · exact delete_safe device challenge

/-- Any call of the store. -/
private theorem challenge_call_safe (t : Seam) :
    (challengeDiscipline C).Triple t i (fun _ => True) (storeCode C t) (Took t i) := by
  cases t with
  | consumeChallenge device challenge => exact consume_safe device challenge
  | _ =>
      apply (issues_safe _).post
      intro r w _ device challenge ht
      cases ht

end Safety

/-! ## All runs -/

/-- No challenge was issued yet, and no call runs. -/
structure Unissued (c : StoreConfig) : Prop where
  idle : c.pool = []
  unwritten : c.world.rd.aof = []
  empty : c.world.rd.challenges = .empty

/-- The challenges issued are distinct. -/
def Distinct (c : StoreConfig) : Prop :=
  ((issued c.world.rd.aof).map Prod.snd).Nodup

/-- `ConsumeChallenge` has returned nil to thread `i`. -/
def Consumed (c : StoreConfig) (i : Nat) (device challenge : String) : Prop :=
  c.pool[i]? = some (.consumeChallenge device challenge, .ret true)

/-- Challenges are used once: a challenge is consumed by one call, for the
device it was issued to and no other, by a deletion at a point where it is
the latest of the device; and no deletion, whatever it reports, comes after
the issue of a newer challenge. -/
structure SingleUse (c : StoreConfig) : Prop where
  once : ∀ i j d e challenge, Consumed c i d challenge → Consumed c j e challenge → i = j
  device : ∀ i d challenge, Consumed c i d challenge →
    ∀ e, (e, challenge) ∈ issued c.world.rd.aof ↔ e = d
  latest : ∀ i d challenge, Consumed c i d challenge →
    ∃ pre post, c.world.rd.aof = pre ++ (i, .delChallenge d) :: post ∧
      lastIssued d pre = some challenge
  spares : ∀ pre i d post, c.world.rd.aof = pre ++ (i, .delChallenge d) :: post →
    ∃ challenge p, c.pool[i]? = some (.consumeChallenge d challenge, p) ∧
      lastIssued d pre = some challenge

section Runs

variable {C : Crypto} {c₀ c : StoreConfig}

theorem Intact.presumes {l : Label Seam Oracle Env} (h : Intact c l) :
    (challengeDiscipline C).Presumes c l := by
  cases l with
  | spawn t => trivial
  | act i o =>
      intro t cmd k hi device challenge ht hcmd
      subst ht
      subst hcmd
      exact h device challenge k hi
  | env e => trivial

/-- **Every run**: the keys are told by the file, the calls keep to their
commands, and a consume that returned nil took its own challenge. -/
theorem challenge_invariant (h₀ : Unissued c₀) (h : (storeCalls C).Reach Intact c₀ c) :
    KeysTold c.world.rd ∧ ∀ i t p, c.pool[i]? = some (t, p) →
      (challengeDiscipline C).Safe t i (Took t i) p c.world := by
  have hreach := h.mono fun _ _ hintact => hintact.presumes (C := C)
  have hkeys : KeysTold c₀.world.rd := by
    intro device
    rw [h₀.empty, h₀.unwritten]
    rfl
  have hsound := Discipline.sound (D := challengeDiscipline C) (Q := fun t i => Took t i)
    ?_ ?_ ?_ ?_ hkeys ?_ ?_ hreach
  · exact ⟨hsound.2.1, hsound.2.2.2⟩
  · intro t j cmd o w w' r hinv _ _ hx
    show KeysTold w'.rd
    rcases cmd.exec_aof hx with he | ⟨c, _, _, he⟩
    · rw [he]
      exact hinv
    · rw [he]
      exact KeysTold.step hinv c j
  · intro e w w' hinv _ hx
    obtain ⟨now, _, hrd⟩ := Env.step_rd hx
    show KeysTold w'.rd
    rw [hrd]
    exact hinv
  · exact fun i _ => Discipline.stable_const True
  · exact fun t i w _ hinv _ => (challenge_call_safe t).safe hinv trivial
  · exact fun _ _ => trivial
  · intro i t p hi
    rw [h₀.idle] at hi
    cases hi

/-- Only a consume deletes the challenge of a device. -/
theorem deletes_challenge {t : Seam} {d : String} (h : t.Issues (.rd (.delChallenge d))) :
    ∃ challenge, t = .consumeChallenge d challenge := by
  cases h with
  | inl hreads => cases hreads
  | inr hwrites =>
      cases t with
      | consumeChallenge device challenge =>
          obtain rfl : d = device := hwrites
          exact ⟨challenge, rfl⟩
      | decidePairingSession id approve pub sig granter => cases hwrites
      | _ => cases hwrites

/-- Every deletion in the file is one of a consume, and took the challenge of
that consume. -/
theorem deletions_told (h₀ : Unissued c₀) (h : (storeCalls C).Reach Intact c₀ c) :
    ∀ pre i d post, c.world.rd.aof = pre ++ (i, .delChallenge d) :: post →
      ∃ challenge p, c.pool[i]? = some (.consumeChallenge d challenge, p) ∧
        held d pre = some challenge := by
  induction h with
  | refl =>
      intro pre i d post hlog
      rw [h₀.unwritten] at hlog
      cases pre <;> cases hlog
  | @step c₁ c₂ l hreach hintact hs ih =>
      -- an earlier deletion is still that of the same consume
      have hearlier : ∀ pre i d post, c₁.world.rd.aof = pre ++ (i, .delChallenge d) :: post →
          ∃ challenge p, c₂.pool[i]? = some (.consumeChallenge d challenge, p) ∧
            held d pre = some challenge := by
        intro pre i d post hlog
        obtain ⟨challenge, p, hi, hheld⟩ := ih pre i d post hlog
        obtain ⟨p', hi'⟩ := System.next_task hs hi
        exact ⟨challenge, p', hi', hheld⟩
      intro pre i d post hlog
      cases l with
      | spawn t =>
          obtain rfl := Option.some.inj hs
          exact hearlier pre i d post hlog
      | env e =>
          obtain ⟨w, hx, rfl⟩ := System.next_env hs
          obtain ⟨now, _, hrd⟩ := Env.step_rd hx
          rw [hrd] at hlog
          exact hearlier pre i d post hlog
      | act j o =>
          obtain ⟨t, cmd, k, w, r, hj, hx, hc₂⟩ := System.next_act hs
          have hworld : c₂.world = w := by rw [hc₂]
          rw [hworld] at hlog
          rcases cmd.exec_aof hx with he | ⟨c, hcmd, hf, he⟩
          · rw [he] at hlog
            exact hearlier pre i d post hlog
          · rw [he] at hlog
            rcases c.step_aof j c₁.world.rd with hsame | hone
            · rw [hsame] at hlog
              exact hearlier pre i d post hlog
            · rw [hone] at hlog
              rcases List.eq_nil_or_concat post with hlast | ⟨post', e, hmore⟩
              · -- the deletion is the step just taken
                subst hlast
                obtain ⟨hpre, hhead⟩ := List.append_inj' hlog rfl
                obtain ⟨rfl, rfl⟩ := Prod.mk.inj (List.cons.inj hhead).1
                subst hcmd
                obtain ⟨hkeys, hsafe⟩ := challenge_invariant h₀ hreach
                have hissues : t.Issues (.rd (.delChallenge d)) :=
                  (hsafe j t _ hj).issues hkeys (hintact.presumes t _ k hj) _ rfl
                obtain ⟨challenge, rfl⟩ := deletes_challenge hissues
                obtain ⟨p', hj'⟩ := System.next_task hs hj
                refine ⟨challenge, p', hj', ?_⟩
                rw [← hpre, ← hkeys d]
                exact hintact d challenge k hj hf
              · rw [hmore, List.concat_eq_append, ← List.cons_append, ← List.append_assoc] at hlog
                exact hearlier pre i d post' (List.append_inj' hlog rfl).1

/-- **A challenge is used once.** -/
theorem single_use_when_intact (h₀ : Unissued c₀)
    (h : (storeCalls C).Reach Intact c₀ c) (hd : Distinct c) : SingleUse c := by
  obtain ⟨_, hsafe⟩ := challenge_invariant h₀ h
  have htook : ∀ i d challenge, Consumed c i d challenge →
      TookOwn d challenge i c.world.rd.aof := by
    intro i d challenge hi
    exact (hsafe i _ _ hi).returned d challenge rfl rfl
  constructor
  · intro i j d e challenge hi hj
    exact (htook i d challenge hi).once hd (htook j e challenge hj)
  · intro i d challenge hi e
    obtain ⟨pre, post, hlog, hheld⟩ := htook i d challenge hi
    have hmem : (d, challenge) ∈ issued c.world.rd.aof := by
      rw [hlog, issued_append]
      exact List.mem_append_left _ (held_issued hheld)
    constructor
    · intro he
      exact congrArg Prod.fst (List.inj_on_of_nodup_map hd he hmem rfl)
    · intro he
      subst he
      exact hmem
  · intro i d challenge hi
    obtain ⟨pre, post, hlog, hheld⟩ := htook i d challenge hi
    exact ⟨pre, post, hlog, held_last hheld⟩
  · intro pre i d post hlog
    obtain ⟨challenge, p, hi, hheld⟩ := deletions_told h₀ h pre i d post hlog
    exact ⟨challenge, p, hi, held_last hheld⟩

end Runs

namespace Sample

/-- The challenge of the sample runs. -/
def challenge : String := Text.hexEncode (List.replicate 32 1)

/-- One challenge was issued to the phone. -/
def challenged : StoreConfig :=
  (storeCalls crypto).serve { world := {}, pool := [] } (.issueChallenge "PH-1") (seed 1)

/-- One call consumes it. -/
def used : StoreConfig :=
  (storeCalls crypto).drive
    ((storeCalls crypto).serve challenged (.consumeChallenge "PH-1" challenge) []) 1 [{}, {}]

/-- Two calls are about to consume it. -/
def contended : StoreConfig :=
  (storeCalls crypto).serve
    ((storeCalls crypto).serve challenged (.consumeChallenge "PH-1" challenge) [])
    (.consumeChallenge "PH-1" challenge) []

/-- Both read, then both delete. -/
def raced : StoreConfig :=
  [1, 2, 1, 2].foldl (fun c i => (storeCalls crypto).drive c i [{}]) contended

theorem raced_reach :
    (storeCalls crypto).Reach (fun _ _ => True) { world := {}, pool := [] } raced := by
  have hturns : ∀ (turns : List Nat) (c : StoreConfig),
      (storeCalls crypto).Reach (fun _ _ => True) c
        (turns.foldl (fun c i => (storeCalls crypto).drive c i [{}]) c) := by
    intro turns
    induction turns with
    | nil => exact fun c => .refl
    | cons i turns ih => exact fun c => (System.drive_reach c i [{}]).trans (ih _)
  have hchallenged : (storeCalls crypto).Reach (fun _ _ => True)
      { world := {}, pool := [] } challenged := System.serve_reach _ _ _
  have hcontended : (storeCalls crypto).Reach (fun _ _ => True) challenged contended :=
    (System.serve_reach _ _ _).trans (System.serve_reach _ _ _)
  exact hchallenged.trans (hcontended.trans (hturns _ _))

/-- A step of a call whose challenge the key still holds, or of a call that is
no consume. -/
theorem intact_turn {c : StoreConfig} {i : Nat} {o : Oracle} {t : Seam}
    {p : Prog Srv Srv.Ans Bool} (hi : c.pool[i]? = some (t, p))
    (hheld : ∀ device challenge, t = .consumeChallenge device challenge →
      (c.world.rd.challenges device).map Entry.val = some challenge) :
    Intact c (.act i o) := by
  intro device challenge k hk _
  rw [hi] at hk
  exact hheld device challenge (Prod.mk.inj (Option.some.inj hk)).1

theorem used_reach :
    (storeCalls crypto).Reach Intact { world := {}, pool := [] } used := by
  have hissue : ∀ (os : List Oracle) (c : StoreConfig) (p : Prog Srv Srv.Ans Bool),
      c.pool[0]? = some (.issueChallenge "PH-1", p) →
        (storeCalls crypto).Reach Intact c ((storeCalls crypto).drive c 0 os) := by
    intro os
    induction os with
    | nil => exact fun c p _ => .refl
    | cons o os ih =>
        intro c p hi
        simp only [System.drive]
        cases hn : (storeCalls crypto).next c (.act 0 o) with
        | none => exact .refl
        | some c' =>
            obtain ⟨p', hi'⟩ := System.next_task hn hi
            have hturn : Intact c (.act 0 o) := intact_turn hi fun _ _ ht => by cases ht
            exact (System.Reach.step .refl hturn hn).trans (ih c' p' hi')
  have hchallenged : (storeCalls crypto).Reach Intact { world := {}, pool := [] } challenged := by
    refine (System.Reach.step (l := .spawn (.issueChallenge "PH-1")) .refl trivial rfl).trans
      (hissue (seed 1) _ _ rfl)
  have hheld : ∀ device value, Seam.consumeChallenge "PH-1" challenge =
      .consumeChallenge device value →
      (challenged.world.rd.challenges device).map Entry.val = some value := by
    intro device value he
    obtain ⟨rfl, rfl⟩ := Seam.consumeChallenge.inj he
    rfl
  have hspawn := System.Reach.step (l := .spawn (.consumeChallenge "PH-1" challenge))
    hchallenged trivial rfl
  have hread := System.Reach.step (l := .act 1 {}) hspawn (intact_turn rfl hheld) rfl
  exact System.Reach.step (l := .act 1 {}) hread (intact_turn rfl hheld) rfl

end Sample

/-- The challenge that was issued is consumed. -/
theorem single_use_when_intact_sample :
    Consumed Sample.used 1 "PH-1" Sample.challenge ∧ SingleUse Sample.used := by
  have hdistinct : Distinct Sample.used := by
    unfold Distinct
    decide
  exact ⟨rfl, single_use_when_intact ⟨rfl, rfl, rfl⟩ Sample.used_reach hdistinct⟩

/-- One challenge is accepted twice: both calls compare it before either
deletes it. -/
theorem consumed_twice :
    ¬ ∀ (C : Crypto) (c₀ c : StoreConfig), Unissued c₀ →
      (storeCalls C).Reach (fun _ _ => True) c₀ c → Distinct c → SingleUse c := by
  intro hall
  have hdistinct : Distinct Sample.raced := by
    unfold Distinct
    decide
  have huse := hall Sample.crypto _ _ ⟨rfl, rfl, rfl⟩ Sample.raced_reach hdistinct
  have hfirst : Consumed Sample.raced 1 "PH-1" Sample.challenge := rfl
  have hsecond : Consumed Sample.raced 2 "PH-1" Sample.challenge := rfl
  have hsame := huse.once 1 2 "PH-1" "PH-1" Sample.challenge hfirst hsecond
  cases hsame

end Calcar
