import Calcar.Verified.Issues

/-!
# Rules for the programs of the server

How the triples of `Lib.Conc` are used on this code: one rule for each kind
of core command, rules for the early exits of `H`, and `Triple.task`, which
reduces a property of every task to the store methods and the few commands
only the server issues.
-/

namespace Calcar

open Lib

variable {Task α : Type} {code : Task → Srv.M α} {D : Discipline (system code)}
variable {t : Task} {i : Nat}

/-! ## Programs -/

namespace Core

@[simp] theorem toSrv_ret {β : Type} (a : β) :
    Core.toSrv (.ret a : Core.M β) = .ret a := rfl

@[simp] theorem toSrv_call {β : Type} (c : Core) (k : c.Ans → Core.M β) :
    Core.toSrv (.call c k) = .call (.core c) fun r => Core.toSrv (k r) := rfl

@[simp] theorem toSrv_bind {β γ : Type} (p : Core.M β) (f : β → Core.M γ) :
    Core.toSrv (p >>= f) = (Core.toSrv p >>= fun a => Core.toSrv (f a)) :=
  Prog.expand_bind _ p f

end Core

namespace Api

@[simp] theorem toSrv_ret {β : Type} (S : Server) (a : β) :
    toSrv S (.ret a : M β) = .ret a := rfl

@[simp] theorem toSrv_call {β : Type} (S : Server) (c : Call) (k : c.Ans → M β) :
    toSrv S (.call c k) =
      (Core.toSrv (c.run S.crypto) >>= fun r => toSrv S (k r)) :=
  Core.toSrv_bind _ _

@[simp] theorem toSrv_bind {β γ : Type} (S : Server) (p : M β) (f : β → M γ) :
    toSrv S (p >>= f) = (toSrv S p >>= fun a => toSrv S (f a)) := by
  unfold toSrv onCore
  rw [Prog.expand_bind, Core.toSrv_bind]

/-- A handler program with its store calls carried out. -/
theorem toSrv_eq {β : Type} (S : Server) (p : M β) :
    toSrv S p = p.expand fun c => Core.toSrv (c.run S.crypto) :=
  Prog.expand_expand _ _ p

end Api

/-! ## What a step can change -/

/-- A server command is a statement to Postgres, or leaves Postgres alone. -/
theorem Srv.exec_pg (cmd : Srv) {o : Oracle} {w w' : World} {r : cmd.Ans}
    (h : cmd.exec i o w = some (w', r)) :
    w'.pg = w.pg ∨
      ∃ c r', cmd = .core (.pg c) ∧ c.exec i o.fault w.pg = some (w'.pg, r') := by
  cases cmd with
  | core c =>
      cases c with
      | pg c =>
          simp only [Srv.exec, Core.exec] at h
          cases he : c.exec i o.fault w.pg with
          | none => rw [he] at h; cases h
          | some x =>
              obtain ⟨p', r'⟩ := x
              rw [he] at h
              simp only [Option.some.injEq, Prod.mk.injEq] at h
              obtain ⟨rfl, _⟩ := h
              exact .inr ⟨c, r', rfl, he⟩
      | rd c =>
          simp only [Srv.exec, Core.exec, Option.some.injEq, Prod.mk.injEq] at h
          obtain ⟨rfl, _⟩ := h
          exact .inl rfl
      | now =>
          simp only [Srv.exec, Core.exec, Option.some.injEq, Prod.mk.injEq] at h
          obtain ⟨rfl, _⟩ := h
          exact .inl rfl
      | rand n =>
          simp only [Srv.exec, Core.exec] at h
          split at h
          · simp only [Option.some.injEq, Prod.mk.injEq] at h
            obtain ⟨rfl, _⟩ := h
            exact .inl rfl
          · cases h
      | notify ev =>
          simp only [Srv.exec, Core.exec, Option.some.injEq, Prod.mk.injEq] at h
          obtain ⟨rfl, _⟩ := h
          exact .inl rfl
  | done k =>
      simp only [Srv.exec] at h
      split at h
      · split at h
        · cases h
        · simp only [Option.some.injEq, Prod.mk.injEq] at h
          obtain ⟨rfl, _⟩ := h
          exact .inl rfl
      · cases h
  | takeCatchup =>
      simp only [Srv.exec] at h
      split at h
      · cases h
      · simp only [Option.some.injEq, Prod.mk.injEq] at h
        obtain ⟨rfl, _⟩ := h
        exact .inl rfl
  | enter dev user =>
      simp only [Srv.exec, Option.some.injEq, Prod.mk.injEq] at h
      obtain ⟨rfl, _⟩ := h
      exact .inl rfl
  | accept d =>
      simp only [Srv.exec, Option.some.injEq, Prod.mk.injEq] at h
      obtain ⟨rfl, _⟩ := h
      exact .inl rfl
  | register d u tm =>
      simp only [Srv.exec, Option.some.injEq, Prod.mk.injEq] at h
      obtain ⟨rfl, _⟩ := h
      exact .inl rfl
  | start k =>
      simp only [Srv.exec, Option.some.injEq, Prod.mk.injEq] at h
      obtain ⟨rfl, _⟩ := h
      exact .inl rfl
  | unregister d k =>
      simp only [Srv.exec, Option.some.injEq, Prod.mk.injEq] at h
      obtain ⟨rfl, _⟩ := h
      exact .inl rfl

/-- The environment only moves the time of Postgres. -/
theorem Env.step_pg {e : Env} {w w' : World} (h : e.step w = some w') :
    ∃ tm, w'.pg = { w.pg with now := tm } := by
  cases e with
  | pass d =>
      simp only [Env.step] at h
      split at h
      · obtain rfl := Option.some.inj h
        exact ⟨_, rfl⟩
      · cases h
  | setClock tm =>
      obtain rfl := Option.some.inj h
      exact ⟨_, rfl⟩
  | passRedis d =>
      simp only [Env.step] at h
      split at h
      · obtain rfl := Option.some.inj h
        exact ⟨_, rfl⟩
      · cases h
  | _ =>
      obtain ⟨hub, _, rfl⟩ := Option.map_eq_some_iff.mp h
      exact ⟨_, rfl⟩

/-! ## Core commands -/

/-- One statement: its step, and the step of nobody else, carries the
assertion on. -/
theorem Triple.pg {β : Type} {A : World → Prop} {Q : β → World → Prop} {c : PgCmd}
    {k : Except Pg.PgErr c.Ret → Core.M β} {B : Except Pg.PgErr c.Ret → World → Prop}
    (hs : D.Stable i A)
    (h : ∀ w o, D.inv w → D.presumed t i (.core (.pg c)) o w → A w →
      D.allowed t i (.core (.pg c)) w ∧
        ∀ p' r, c.exec i o.fault w.pg = some (p', r) → D.inv { w with pg := p' } →
          B r { w with pg := p' })
    (hk : ∀ r, D.Triple t i (B r) (Core.toSrv (k r)) Q) :
    D.Triple t i A (Core.toSrv (.call (.pg c) k)) Q := by
  apply Discipline.Triple.call hs (B := B) _ hk
  intro w o hi hp hA
  obtain ⟨hall, hB⟩ := h w o hi hp hA
  refine ⟨hall, ?_⟩
  intro w₁ r hx hi₁
  have hx' : (Core.pg c).exec i o w = some (w₁, r) := hx
  unfold Core.exec at hx'
  cases he : c.exec i o.fault w.pg with
  | none => simp only [he] at hx'; cases hx'
  | some x =>
      obtain ⟨p', r'⟩ := x
      simp only [he, Option.some.injEq, Prod.mk.injEq] at hx'
      obtain ⟨rfl, rfl⟩ := hx'
      exact hB p' r' he hi₁

/-- One Redis command. -/
theorem Triple.rd {β : Type} {A : World → Prop} {Q : β → World → Prop} {c : RdCmd}
    {k : Except Err c.Ret → Core.M β} {B : Except Err c.Ret → World → Prop}
    (hs : D.Stable i A)
    (h : ∀ w o, D.inv w → D.presumed t i (.core (.rd c)) o w → A w →
      D.allowed t i (.core (.rd c)) w ∧
        (D.inv { w with rd := (c.exec i o.fault w.rd).1 } →
          B (c.exec i o.fault w.rd).2 { w with rd := (c.exec i o.fault w.rd).1 }))
    (hk : ∀ r, D.Triple t i (B r) (Core.toSrv (k r)) Q) :
    D.Triple t i A (Core.toSrv (.call (.rd c) k)) Q := by
  apply Discipline.Triple.call hs (B := B) _ hk
  intro w o hi hp hA
  obtain ⟨hall, hB⟩ := h w o hi hp hA
  refine ⟨hall, ?_⟩
  intro w₁ r hx hi₁
  obtain ⟨rfl, rfl⟩ := Prod.mk.injEq _ _ _ _ ▸ Option.some.inj hx
  exact hB hi₁

/-- Reading the clock. -/
theorem Triple.now {β : Type} {A : World → Prop} {Q : β → World → Prop}
    {k : Time → Core.M β} {B : Time → World → Prop} (hs : D.Stable i A)
    (h : ∀ w o, D.inv w → D.presumed t i (.core .now) o w → A w →
      D.allowed t i (.core .now) w ∧ B w.clock w)
    (hk : ∀ r, D.Triple t i (B r) (Core.toSrv (k r)) Q) :
    D.Triple t i A (Core.toSrv (.call .now k)) Q := by
  apply Discipline.Triple.call hs (B := B) _ hk
  intro w o hi hp hA
  obtain ⟨hall, hB⟩ := h w o hi hp hA
  refine ⟨hall, ?_⟩
  intro w₁ r hx _
  obtain ⟨rfl, rfl⟩ := Prod.mk.injEq _ _ _ _ ▸ Option.some.inj hx
  exact hB

/-- A statement alone. -/
theorem Triple.pg_alone {c : PgCmd} {A : World → Prop}
    {B : Except Pg.PgErr c.Ret → World → Prop} (hsA : D.Stable i A)
    (hsB : ∀ r, D.Stable i (B r))
    (h : ∀ w o, D.inv w → D.presumed t i (.core (.pg c)) o w → A w →
      D.allowed t i (.core (.pg c)) w ∧
        ∀ p' r, c.exec i o.fault w.pg = some (p', r) → D.inv { w with pg := p' } →
          B r { w with pg := p' }) :
    D.Triple t i A (Core.toSrv (Postgres.pg c)) B :=
  Triple.pg hsA h fun r => Discipline.Triple.ret (hsB r) fun _ _ hb => hb

/-- The result of a statement as the store reports it. -/
def Postgres.reported {β : Type} : Except Pg.PgErr β → Except Err β
  | .error e => .error (Pg.mapPgError e)
  | .ok a => .ok a

/-- A statement whose error is mapped. -/
theorem Triple.query {c : PgCmd} {A : World → Prop} {B : Except Err c.Ret → World → Prop}
    (hsA : D.Stable i A) (hsB : ∀ r, D.Stable i (B r))
    (h : ∀ w o, D.inv w → D.presumed t i (.core (.pg c)) o w → A w →
      D.allowed t i (.core (.pg c)) w ∧
        ∀ p' r, c.exec i o.fault w.pg = some (p', r) → D.inv { w with pg := p' } →
          B (Postgres.reported r) { w with pg := p' }) :
    D.Triple t i A (Core.toSrv (Postgres.query c)) B := by
  apply Triple.pg hsA (B := fun r => B (Postgres.reported r)) h
  rintro (e | a)
  · exact Discipline.Triple.ret (hsB _) fun _ _ hb => hb
  · exact Discipline.Triple.ret (hsB _) fun _ _ hb => hb

/-- A transaction: the body runs between `Begin` and the deferred
`Rollback`. -/
theorem Triple.withTx {β : Type} {body : Core.M (Except Err β)} {A B : World → Prop}
    {M Q : Except Err β → World → Prop}
    (hbegin : D.Triple t i A (Core.toSrv (Postgres.pg .beginTx)) fun r w =>
      match r with
      | .ok _ => B w
      | .error _ => Q (.error .other) w)
    (hbody : D.Triple t i B (Core.toSrv body) M)
    (hroll : ∀ r, D.Triple t i (M r) (Core.toSrv (Postgres.pg .rollback)) fun _ => Q r)
    (hs : ∀ r, D.Stable i (Q r)) :
    D.Triple t i A (Core.toSrv (Postgres.withTx body)) Q := by
  unfold Postgres.withTx
  rw [Core.toSrv_bind]
  apply hbegin.bind
  rintro (e | a)
  · exact Discipline.Triple.ret (hs _) fun _ _ h => h
  · show D.Triple t i B (Core.toSrv (body >>= fun r =>
      Postgres.pg .rollback >>= fun _ => .ret r)) Q
    rw [Core.toSrv_bind]
    apply hbody.bind
    intro r
    rw [Core.toSrv_bind]
    exact (hroll r).bind fun _ => Discipline.Triple.ret (hs r) fun _ _ h => h

/-! ## Early exits -/

namespace Api

variable {S : Server}

/-- Sequencing in `H`: an early reply skips the rest. -/
theorem Triple.hbind {β γ : Type} {x : H β} {f : β → H γ} {A : World → Prop}
    {B : β → World → Prop} {Q : Except Reply γ → World → Prop}
    (hs : ∀ e, D.Stable i (Q (.error e)))
    (hx : D.Triple t i A (toSrv S x.run) fun r w =>
      match r with
      | .ok a => B a w
      | .error e => Q (.error e) w)
    (hf : ∀ a, D.Triple t i (B a) (toSrv S (f a).run) Q) :
    D.Triple t i A (toSrv S (x >>= f).run) Q := by
  show D.Triple t i A (toSrv S (Prog.bind x.run (ExceptT.bindCont f))) Q
  change D.Triple t i A (toSrv S (x.run >>= ExceptT.bindCont f)) Q
  rw [toSrv_bind]
  apply hx.bind
  intro r
  cases r with
  | ok a => exact hf a
  | error e => exact Discipline.Triple.ret (hs e) fun _ _ h => h

/-- A reply under a condition. -/
theorem Triple.replyIf {c : Prop} [Decidable c] {r : Reply} {A : World → Prop}
    {Q : Except Reply Unit → World → Prop} (hs : ∀ r, D.Stable i (Q r))
    (hno : ¬c → ∀ w, D.inv w → A w → Q (.ok ()) w)
    (hyes : c → ∀ w, D.inv w → A w → Q (.error r) w) :
    D.Triple t i A (toSrv S (Api.replyIf c r).run) Q := by
  unfold Api.replyIf
  split
  · rename_i hc
    exact Discipline.Triple.ret (hs _) (hyes hc)
  · rename_i hc
    exact Discipline.Triple.ret (hs _) (hno hc)

/-- A call whose result the handler looks at. -/
theorem Triple.attempt {c : Call} {A : World → Prop}
    {Q : Except Reply c.Ans → World → Prop} (hs : ∀ r, D.Stable i (Q r))
    (h : D.Triple t i A (Core.toSrv (c.run S.crypto)) fun a w => Q (.ok a) w) :
    D.Triple t i A (toSrv S (Api.attempt c).run) Q := by
  show D.Triple t i A (toSrv S (perform c >>= fun a => .ret (.ok a))) Q
  rw [toSrv_bind]
  have hp : toSrv S (perform c) = Core.toSrv (c.run S.crypto) := by
    show toSrv S (.call c .ret) = _
    rw [toSrv_call]
    exact Prog.bind_ret _
  rw [hp]
  exact h.bind fun a => Discipline.Triple.ret (hs _) fun _ _ hq => hq

/-- A store call whose error ends the handler. -/
theorem Triple.store {c : Seam} {bad : Err → Reply} {A : World → Prop}
    {Q : Except Reply c.Ret → World → Prop} (hs : ∀ r, D.Stable i (Q r))
    (h : D.Triple t i A (Core.toSrv (combined S.crypto c)) fun a => Q (a.mapError bad)) :
    D.Triple t i A (toSrv S (Api.store c bad).run) Q := by
  unfold Api.store
  apply Triple.hbind (B := fun a => Q (a.mapError bad)) fun e => hs _
  · apply Triple.attempt
    · rintro (e | (e | v))
      · exact hs _
      · exact hs _
      · exact hs _
    · exact h
  · rintro (e | v)
    · exact Discipline.Triple.ret (hs _) fun _ _ hq => hq
    · exact Discipline.Triple.ret (hs _) fun _ _ hq => hq

end Api

/-! ## Whole tasks -/

namespace Api

variable {S : Server} {E : Discipline (backend S)} {t : Api.Task}

/-- Every task keeps an assertion that the store methods, the commands of the
server and the other threads keep. -/
theorem Triple.task {A : World → Prop} (hs : E.Stable i A)
    (hstore : ∀ c, E.Triple t i A (Core.toSrv (combined S.crypto c)) fun _ => A)
    (hcmd : ∀ cmd o w, (∀ c, cmd ≠ .core (.pg c)) → (∀ c, cmd ≠ .core (.rd c)) →
      E.inv w → E.presumed t i cmd o w → A w →
      E.allowed t i cmd w ∧ ∀ w₁ r, cmd.exec i o w = some (w₁, r) → A w₁) :
    E.Triple t i A (t.code S) fun _ => A := by
  have hone : ∀ cmd : Srv, (∀ c, cmd ≠ .core (.pg c)) → (∀ c, cmd ≠ .core (.rd c)) →
      E.Triple t i A (Srv.perform cmd) fun _ => A := by
    intro cmd h₁ h₂
    apply Discipline.Triple.only (P := fun c => c = cmd) (Prog.only_perform rfl) hs
    rintro _ o w rfl hi hp hA
    exact hcmd _ o w h₁ h₂ hi hp hA
  have hcall : ∀ c : Call, E.Triple t i A (Core.toSrv (c.run S.crypto)) fun _ => A := by
    intro c
    cases c with
    | store c => exact hstore c
    | now => exact hone (.core .now) (by simp) (by simp)
    | rand n => exact hone (.core (.rand n)) (by simp) (by simp)
    | notify ev => exact hone (.core (.notify ev)) (by simp) (by simp)
  have hprog : ∀ {β : Type} (p : M β), E.Triple t i A (toSrv S p) fun _ => A := by
    intro β p
    rw [toSrv_eq]
    exact Discipline.Triple.expand (P := fun _ => True) hs (fun c _ => hcall c)
      (Prog.only_of_all (fun _ => trivial) p)
  have hret : ∀ {β : Type} (b : β), E.Triple t i A (.ret b : Srv.M β) fun _ => A :=
    fun b => Discipline.Triple.ret hs fun _ _ h => h
  have hauthed : ∀ hdr next, E.Triple t i A (authed S hdr next) fun _ => A := by
    intro hdr next
    apply (hprog _).bind
    rintro (r | ⟨dev, user⟩)
    · exact hret r
    · exact (hone (.enter dev user) (by simp) (by simp)).bind fun _ => hprog _
  have hserve : ∀ r, E.Triple t i A (serve S r) fun _ => A := by
    intro r
    unfold serve
    split
    · exact hprog _
    · exact hauthed _ _
  have hconn : ∀ d u, E.Triple t i A (connection S d u) fun _ => A := by
    intro d u
    apply (hone (.core .now) (by simp) (by simp)).bind
    intro tm
    apply (hone (.register d u _) (by simp) (by simp)).bind
    intro k
    apply (hone (.core (.rand 16)) (by simp) (by simp)).bind
    intro b
    apply (hone (.core .now) (by simp) (by simp)).bind
    intro seen
    apply (hprog _).bind
    intro _
    apply (hone (.start k) (by simp) (by simp)).bind
    intro _
    apply (hone (.done k) (by simp) (by simp)).bind
    intro _
    apply (hone (.unregister d k) (by simp) (by simp)).bind
    intro _
    apply (hone (.core .now) (by simp) (by simp)).bind
    intro left
    apply (hprog _).bind
    intro _
    exact hret _
  cases t with
  | request r => exact (hserve r).bind fun _ => hret _
  | upgrade u =>
      apply (hprog _).bind
      rintro (r | ⟨d, user⟩)
      · exact hret _
      · apply (hone (.accept d) (by simp) (by simp)).bind
        intro ok
        show E.Triple _ i A (ite _ _ _ : Srv.M Outcome) fun _ => A
        split
        · exact hconn d user
        · exact hret _
  | catchup =>
      apply (hone .takeCatchup (by simp) (by simp)).bind
      intro user
      apply (hprog _).bind
      intro _
      exact hret _

end Api

end Calcar
