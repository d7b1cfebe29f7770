import Calcar.Store.Rows
import Calcar.Verified.Handlers

/-!
# Store methods run alone

What a method tells about the stores when it answers, whatever may fail on
the way: a row it returns is there, a `notFound` is true, a mark that is set
was free.  `Kept` says that neither the tables nor Redis have changed, which
is all a reading method does.

A device row comes from one statement only, `insertDevice`; the programs that
never issue it leave unregistered ids unregistered (`Fresh`).

## Main results

* `reads_kept` — a program of reads changes nothing.
* `getDevice_runs`, `listUserDevices_runs`, `mark_runs` — one lemma for each
  method.
* `hfresh` — handler parts that register nothing register nothing.
-/

namespace Calcar

open Lib Pg

/-! ## Nothing changed -/

/-- Tables, log, Redis and the clock are as they were. -/
structure Kept (w w' : World) : Prop where
  tables : w'.pg.toTables = w.pg.toTables
  wal : w'.pg.wal = w.pg.wal
  rd : w'.rd = w.rd
  clock : w'.clock = w.clock

theorem Kept.refl (w : World) : Kept w w := ⟨rfl, rfl, rfl, rfl⟩

theorem Kept.trans {w w₁ w₂ : World} (h₁ : Kept w w₁) (h₂ : Kept w₁ w₂) : Kept w w₂ :=
  ⟨h₂.tables.trans h₁.tables, h₂.wal.trans h₁.wal, h₂.rd.trans h₁.rd,
    h₂.clock.trans h₁.clock⟩

theorem Kept.device {w w' : World} (h : Kept w w') (id : String) :
    w'.pg.device id = w.pg.device id := by
  show Tables.device w'.pg.toTables id = Tables.device w.pg.toTables id
  rw [h.tables]

variable {ok : Oracle → Prop} {i : Nat}

/-- A reading command changes nothing that is kept. -/
private theorem read_kept {c : Core} (hc : c.Reads) {o : Oracle} {w w' : World} {r : c.Ans}
    (hx : Core.exec i c o w = some (w', r)) : Kept w w' := by
  cases c with
  | pg c =>
      simp only [Core.exec] at hx
      cases he : c.exec i o.fault w.pg with
      | none => rw [he] at hx; cases hx
      | some x =>
          obtain ⟨p', r'⟩ := x
          rw [he] at hx
          simp only [Option.some.injEq, Prod.mk.injEq] at hx
          obtain ⟨rfl, _⟩ := hx
          have hnone : ∀ ws, ¬PgCmd.Lands w.pg i c ws := by
            intro ws hl
            cases hl with
            | now hcom => cases hcom <;> exact hc
            | tx hcm => rw [hcm] at hc; exact hc
          rcases PgCmd.exec_tables he with ⟨ht, hw⟩ | ⟨ws, hl, _⟩
          · exact ⟨ht, hw, rfl, rfl⟩
          · exact absurd hl (hnone ws)
  | rd c =>
      simp only [Core.exec, Option.some.injEq, Prod.mk.injEq] at hx
      obtain ⟨rfl, _⟩ := hx
      have hsame : (c.step i w.rd).1 = w.rd := by
        cases c <;> first | rfl | exact hc.elim
      have hrd : (c.exec i o.fault w.rd).1 = w.rd := by
        unfold RdCmd.exec
        cases o.fault with
        | none => exact hsame
        | lost => rfl
        | unacked => exact hsame
      exact ⟨rfl, rfl, hrd, rfl⟩
  | now =>
      simp only [Core.exec, Option.some.injEq, Prod.mk.injEq] at hx
      obtain ⟨rfl, _⟩ := hx
      exact .refl _
  | rand n =>
      simp only [Core.exec] at hx
      split at hx
      · simp only [Option.some.injEq, Prod.mk.injEq] at hx
        obtain ⟨rfl, _⟩ := hx
        exact ⟨rfl, rfl, rfl, rfl⟩
      · cases hx
  | notify ev => exact hc.elim

/-- **A program of reads changes nothing.** -/
theorem reads_kept {α : Type} {p : Core.M α} (hp : p.Only Core.Reads) {a : α} {w w' : World}
    (h : Prog.Runs Core.exec ok i p w a w') : Kept w w' :=
  hp.runs (I := fun w₁ => Kept w w₁)
    (fun _ _ _ _ _ hc hx hk => hk.trans (read_kept hc hx)) h (.refl w)

/-! ## Reading methods -/

/-- A statement that succeeds is the statement's own step. -/
theorem runs_query_ok {c : PgCmd} {a : c.Ret} {w w' : World}
    (h : Prog.Runs Core.exec ok i (Postgres.query c) w (.ok a) w') :
    ∃ p', c.step i w.pg = some (p', .ok a) ∧ w' = w.setPg p' := by
  obtain ⟨r, hpg, hr⟩ := runs_query.mp h
  obtain ⟨o, p', _, hx, rfl⟩ := runs_pg.mp hpg
  cases r with
  | error e => cases hr
  | ok b =>
      obtain rfl := Except.ok.inj hr
      exact ⟨p', PgCmd.exec_ok hx, rfl⟩

/-- `GetDevice`: the row it returns is there, and `notFound` is true. -/
theorem getDevice_runs {id : String} {r : Except Err Device} {w w' : World}
    (h : Prog.Runs Core.exec ok i (Postgres.getDevice id) w r w') :
    Kept w w' ∧ (∀ d, r = .ok d → w.pg.device id = some d) ∧
      (r = .error .notFound → w.pg.device id = none) := by
  refine ⟨reads_kept (Postgres.only_getDevice (by trivial)) h, ?_⟩
  obtain ⟨q, w₁, hq, hk⟩ := Prog.runs_bind.mp h
  cases q with
  | error e =>
      obtain ⟨rfl, rfl⟩ := Prog.runs_ret.mp hk
      refine ⟨fun d hd => (by cases hd), ?_⟩
      intro he
      obtain rfl := Except.error.inj he
      obtain ⟨r', hpg, hr⟩ := runs_query.mp hq
      obtain ⟨o, p', _, hx, rfl⟩ := runs_pg.mp hpg
      -- a lost or failed read is no `notFound`
      have hother : ∀ e', r' = .error e' → e' = .other := by
        intro e' he'
        subst he'
        obtain hs | ho := PgCmd.exec_answer hx
        · cases hs
        · exact Except.error.inj ho
      cases r' with
      | error e' =>
          have he' := hother e' rfl
          subst he'
          cases hr
      | ok a => cases hr
  | ok row =>
      obtain ⟨p', hx, rfl⟩ := runs_query_ok hq
      have hrow : row = w.pg.device id := by
        simp only [PgCmd.step, Option.some.injEq, Prod.mk.injEq, Except.ok.injEq] at hx
        exact hx.2.symm
      cases row with
      | none =>
          obtain ⟨rfl, _⟩ := Prog.runs_ret.mp hk
          exact ⟨fun d hd => (by cases hd), fun _ => hrow.symm⟩
      | some d =>
          obtain ⟨rfl, _⟩ := Prog.runs_ret.mp hk
          refine ⟨?_, fun he => (by cases he)⟩
          intro d' hd'
          obtain rfl := Except.ok.inj hd'
          exact hrow.symm

/-- `ListUserDevices`. -/
theorem listUserDevices_runs {user : String} {r : Except Err (List Device)} {w w' : World}
    (h : Prog.Runs Core.exec ok i (Postgres.listUserDevices user) w r w') :
    Kept w w' ∧ ∀ ds, r = .ok ds → ds = w.pg.devices.filter fun d => d.userId = user := by
  refine ⟨reads_kept (Postgres.only_query (by trivial)) h, ?_⟩
  intro ds hr
  subst hr
  obtain ⟨p', hx, _⟩ := runs_query_ok h
  simp only [PgCmd.step, Option.some.injEq, Prod.mk.injEq, Except.ok.injEq] at hx
  exact hx.2.symm

/-- `IsRevoked`. -/
theorem isRevoked_runs {id : String} {r : Except Err Bool} {w w' : World}
    (h : Prog.Runs Core.exec ok i (Postgres.isRevoked id) w r w') :
    Kept w w' ∧ ∀ b, r = .ok b → b = w.pg.isRevoked id := by
  refine ⟨reads_kept (Postgres.only_query (by trivial)) h, ?_⟩
  intro b hr
  subst hr
  obtain ⟨p', hx, _⟩ := runs_query_ok h
  simp only [PgCmd.step, Option.some.injEq, Prod.mk.injEq, Except.ok.injEq] at hx
  exact hx.2.symm

/-- `ResolveAccessToken`. -/
theorem resolveAccessToken_runs {token : String} {r : Except Err (String × String)}
    {w w' : World}
    (h : Prog.Runs Core.exec ok i (Redis.resolveAccessToken token) w r w') :
    Kept w w' ∧ ∀ who, r = .ok who →
      w.rd.tokens.get w.rd.now (.access, token) = some who := by
  refine ⟨reads_kept (Redis.only_resolveAccessToken (by trivial)) h, ?_⟩
  intro who hr
  subst hr
  obtain ⟨res, w₁, hres, hk⟩ := Prog.runs_bind.mp h
  cases res with
  | error e =>
      obtain ⟨he, _⟩ := Prog.runs_ret.mp hk
      cases he
  | ok v =>
      obtain ⟨hv, _⟩ := runs_rd_ok hres
      have hget : v = w.rd.tokens.get w.rd.now (.access, token) := hv
      rw [← hget]
      cases v with
      | none =>
          obtain ⟨he, _⟩ := Prog.runs_ret.mp hk
          cases he
      | some x =>
          obtain ⟨he, _⟩ := Prog.runs_ret.mp hk
          rw [Except.ok.inj he]

/-! ## Marks -/

/-- `CheckAndMarkRequest`: Postgres is not touched, and an id it accepts was
free. -/
theorem mark_runs {rid : String} {ttl : Time} {r : Except Err Unit} {w w' : World}
    (h : Prog.Runs Core.exec ok i (Redis.checkAndMarkRequest rid ttl) w r w') :
    w'.pg = w.pg ∧ (r = .ok () → rid ≠ "" ∧ w.rd.replay.get w.rd.now rid = none) := by
  unfold Redis.checkAndMarkRequest at h
  by_cases hargs : rid = "" ∨ ttl ≤ 0
  · rw [if_pos hargs] at h
    obtain ⟨rfl, rfl⟩ := Prog.runs_ret.mp h
    exact ⟨rfl, nofun⟩
  · rw [if_neg hargs] at h
    obtain ⟨res, w₁, hres, hk⟩ := Prog.runs_bind.mp h
    obtain ⟨o, _, hr, hw⟩ := runs_rd.mp hres
    have hpg : w₁.pg = w.pg := by rw [hw]
    cases res with
    | error e =>
        obtain ⟨rfl, rfl⟩ := Prog.runs_ret.mp hk
        exact ⟨hpg, nofun⟩
    | ok b =>
        obtain ⟨hb, _⟩ := runs_rd_ok hres
        cases b with
        | false =>
            obtain ⟨rfl, rfl⟩ := Prog.runs_ret.mp hk
            exact ⟨hpg, nofun⟩
        | true =>
            obtain ⟨rfl, rfl⟩ := Prog.runs_ret.mp hk
            refine ⟨hpg, fun _ => ⟨fun he => hargs (.inl he), ?_⟩⟩
            simp only [RdCmd.step] at hb
            split at hb
            · cases hb
            · rename_i hn
              simpa using hn

/-! ## Where device rows come from -/

namespace Pg

/-- What every write is that an open transaction holds back. -/
def Withheld (P : Write → Prop) (p : PgState) : Prop :=
  ∀ j tx w, p.txs j = some tx → w ∈ tx.writes → P w

section Withheld

variable {P : Write → Prop} {p p' : PgState}

theorem Withheld.abort (h : Withheld P p) (i : Nat) : Withheld P (abortTx p i) := by
  intro j tx w hj
  by_cases hji : j = i
  · subst hji
    rw [abortTx_self] at hj
    cases htx : p.txs j with
    | none => rw [htx] at hj; cases hj
    | some tx' =>
        rw [htx] at hj
        obtain rfl := Option.some.inj hj
        exact h j tx' w htx
  · rw [abortTx_ne p hji] at hj
    exact h j tx w hj

theorem Withheld.close (h : Withheld P p) (i : Nat) : Withheld P (closeTx p i) := by
  intro j tx w hj
  by_cases hji : j = i
  · subst hji
    rw [closeTx_self] at hj
    cases hj
  · rw [closeTx_ne p hji] at hj
    exact h j tx w hj

/-- A statement holds back what it stages, and no more. -/
theorem Withheld.exec {i : Nat} {c : PgCmd} {f : Fault} {r : Except PgErr c.Ret}
    (h : Withheld P p) (hstages : ∀ w ks, Stages p i c w ks → P w)
    (hx : c.exec i f p = some (p', r)) : Withheld P p' := by
  apply PgCmd.exec_preserves (I := Withheld P) hx h
  · intro q hq
    cases hq with
    | stay => exact h
    | commit hw => exact h
    | «open» =>
        intro j tx w hj
        by_cases hji : j = i
        · subst hji
          rw [setTx_self] at hj
          obtain rfl := Option.some.inj hj
          exact fun hm => absurd hm List.not_mem_nil
        · rw [setTx_ne p _ hji] at hj
          exact h j tx w hj
    | stage htx hlive hst =>
        intro j tx w hj
        rw [lockAll_txs] at hj
        by_cases hji : j = i
        · subst hji
          unfold stage at hj
          rw [setTx_self] at hj
          obtain rfl := Option.some.inj hj
          rw [List.mem_append, List.mem_singleton]
          rintro (hm | rfl)
          · exact h j _ w htx hm
          · exact hstages _ _ hst
        · unfold stage at hj
          rw [setTx_ne p _ hji] at hj
          exact h j tx w hj
    | lockRow => exact h
    | abort => exact h.abort i
    | close => exact h.close i
    | commitTx => exact Withheld.close (p := commitWrites p i _) h i
  · intro q hq
    exact hq.abort i
  · intro q hq
    exact hq.close i

end Withheld

/-- No open transaction holds a device row back. -/
def Unstaged (p : PgState) : Prop :=
  ∀ j tx d, p.txs j = some tx → .addDevice d ∉ tx.writes

theorem unstaged_iff {p : PgState} : Unstaged p ↔ Withheld (fun w => ∀ d, w ≠ .addDevice d) p := by
  constructor
  · rintro h j tx w hj hw d rfl
    exact h j tx d hj hw
  · intro h j tx d hj hw
    exact h j tx _ hj hw d rfl

/-- No statement holds a device row back. -/
theorem Unstaged.exec {p p' : PgState} {i : Nat} {c : PgCmd} {f : Fault}
    {r : Except PgErr c.Ret} (h : Unstaged p) (hx : c.exec i f p = some (p', r)) :
    Unstaged p' :=
  unstaged_iff.mpr <| (unstaged_iff.mp h).exec (fun w ks hst d => by cases hst <;> nofun) hx

/-- A device id that was free and is taken after a statement was taken by an
`INSERT` of that id. -/
theorem registered_by {p p' : PgState} {i : Nat} {c : PgCmd} {f : Fault}
    {r : Except PgErr c.Ret} (h : Unstaged p) (hx : c.exec i f p = some (p', r)) {id : String}
    (hno : p.device id = none) (hyes : (p'.device id).isSome = true) :
    ∃ d, c = .insertDevice d ∧ d.id = id ∧ d.userId ∈ p.users ∧
      p.deviceByKey d.userId d.pubKey = none := by
  have hstill : ∀ ws : List Write, (∀ d, .addDevice d ∈ ws → d.id ≠ id) →
      p'.toTables = ws.foldl Tables.apply p.toTables → False := by
    intro ws hws ht
    have hnone : p'.device id = none := by
      show Tables.device p'.toTables id = none
      rw [ht]
      exact Tables.device_none_writes ws hno hws
    rw [hnone] at hyes
    cases hyes
  rcases PgCmd.exec_tables hx with ⟨ht, _⟩ | ⟨ws, hl, ht, _⟩
  · exact (hstill [] (fun _ hm => absurd hm List.not_mem_nil) ht).elim
  · cases hl with
    | now hcom =>
        cases hcom with
        | @device d hu hid hkey =>
            by_cases hd : d.id = id
            · exact ⟨d, rfl, hd, hu, hkey⟩
            · refine (hstill _ ?_ ht).elim
              intro d' hm
              rw [List.mem_singleton] at hm
              cases hm
              exact hd
        | _ => exact (hstill _ (by simp) ht).elim
    | @tx tx hc htx hlive hws =>
        refine (hstill ws ?_ ht).elim
        intro d hm
        rw [hws] at hm
        exact absurd hm (h i tx d htx)

/-- The texts by which rows are found: of a device its id, of a session its id and its
user. -/
def Write.names : Write → List String
  | .addDevice d => [d.id]
  | .addSession s => [s.id, s.userId]
  | _ => []

/-- The rows are found by texts that a column takes. -/
structure TextIds (p : PgState) : Prop where
  withheld : Withheld (fun w => w.names = []) p
  device : ∀ d ∈ p.devices, '\x00' ∉ d.id.toList
  session : ∀ s ∈ p.sessions, '\x00' ∉ s.id.toList ∧ '\x00' ∉ s.userId.toList

namespace TextIds

variable {p p' : PgState} {i : Nat} {c : PgCmd}

theorem abort (h : TextIds p) (i : Nat) : TextIds (abortTx p i) where
  withheld := h.withheld.abort i
  device := by
    rw [abortTx_toTables]
    exact h.device
  session := by
    rw [abortTx_toTables]
    exact h.session

theorem close (h : TextIds p) (i : Nat) : TextIds (closeTx p i) :=
  ⟨h.withheld.close i, h.device, h.session⟩

/-- A row that changes keeps its names, and a new one brings those of its write. -/
theorem write {t : Tables} (hd : ∀ d ∈ t.devices, '\x00' ∉ d.id.toList)
    (hs : ∀ s ∈ t.sessions, '\x00' ∉ s.id.toList ∧ '\x00' ∉ s.userId.toList) {w : Write}
    (hw : ∀ text ∈ w.names, '\x00' ∉ text.toList) :
    (∀ d ∈ (t.apply w).devices, '\x00' ∉ d.id.toList) ∧
      ∀ s ∈ (t.apply w).sessions, '\x00' ∉ s.id.toList ∧ '\x00' ∉ s.userId.toList := by
  have hmodify : ∀ (id : String) (f : SessionRow → SessionRow),
      (∀ s, (f s).id = s.id ∧ (f s).userId = s.userId) →
      ∀ s ∈ (t.modifySession id f).sessions,
        '\x00' ∉ s.id.toList ∧ '\x00' ∉ s.userId.toList := by
    intro id f hf s hm
    obtain ⟨s', hm', rfl⟩ := List.mem_map.mp hm
    split
    · rw [(hf s').1, (hf s').2]
      exact hs s' hm'
    · exact hs s' hm'
  cases w with
  | addDevice d =>
      refine ⟨fun x hx => ?_, hs⟩
      obtain hm | hm := List.mem_append.mp hx
      · exact hd x hm
      · rw [List.mem_singleton.mp hm]
        exact hw _ List.mem_cons_self
  | addSession s =>
      refine ⟨hd, fun x hx => ?_⟩
      obtain hm | hm := List.mem_append.mp hx
      · exact hs x hm
      · rw [List.mem_singleton.mp hm]
        exact ⟨hw _ List.mem_cons_self, hw _ (List.mem_cons_of_mem _ List.mem_cons_self)⟩
  | revokeDevice id =>
      refine ⟨fun x hx => ?_, hs⟩
      obtain ⟨d, hm, rfl⟩ := List.mem_map.mp hx
      split
      · exact hd d hm
      · exact hd d hm
  | expireSession id => exact ⟨hd, hmodify id _ fun _ => ⟨rfl, rfl⟩⟩
  | recordJoin id j => exact ⟨hd, hmodify id _ fun _ => ⟨rfl, rfl⟩⟩
  | decideSession id status granter sig => exact ⟨hd, hmodify id _ fun _ => ⟨rfl, rfl⟩⟩
  | putConn conn device lastSeen =>
      simp only [Tables.apply]
      split
      · exact ⟨hd, hs⟩
      · exact ⟨hd, hs⟩
  | addUser id => exact ⟨hd, hs⟩
  | addRevocation r => exact ⟨hd, hs⟩
  | addGrant g => exact ⟨hd, hs⟩
  | putPushToken device platform token => exact ⟨hd, hs⟩

theorem writes (ws : List Write) {t : Tables} (hd : ∀ d ∈ t.devices, '\x00' ∉ d.id.toList)
    (hs : ∀ s ∈ t.sessions, '\x00' ∉ s.id.toList ∧ '\x00' ∉ s.userId.toList)
    (hw : ∀ w ∈ ws, ∀ text ∈ w.names, '\x00' ∉ text.toList) :
    (∀ d ∈ (ws.foldl Tables.apply t).devices, '\x00' ∉ d.id.toList) ∧
      ∀ s ∈ (ws.foldl Tables.apply t).sessions,
        '\x00' ∉ s.id.toList ∧ '\x00' ∉ s.userId.toList := by
  induction ws generalizing t with
  | nil => exact ⟨hd, hs⟩
  | cons w ws ih =>
      obtain ⟨hd', hs'⟩ := write hd hs (hw w List.mem_cons_self)
      exact ih hd' hs' fun x hx => hw x (List.mem_cons_of_mem _ hx)

/-- A statement that inserts a row was given its names. -/
theorem commits_names {ws : List Write} (h : Commits p c ws) :
    ∀ w ∈ ws, ∀ text ∈ w.names, text ∈ c.texts := by
  cases h with
  | device hu hid hkey => simp [Write.names, PgCmd.texts]
  | session hu hid => simp [Write.names, PgCmd.texts]
  | _ => simp [Write.names]

/-- No statement inserts a row under a name that no column takes. -/
theorem exec {f : Fault} {r : Except PgErr c.Ret} (h : TextIds p)
    (hx : c.exec i f p = some (p', r)) : TextIds p' := by
  by_cases hc : c.refused = true
  · rw [PgCmd.exec_refused hc hx]
    obtain he | he := PgCmd.failed_eq i c p
    · rw [he]
      exact h.abort i
    · rw [he]
      exact h.close i
  have hwithheld : Withheld (fun w => w.names = []) p' :=
    h.withheld.exec (fun w ks hst => by cases hst <;> rfl) hx
  obtain ⟨ht, -⟩ | ⟨ws, hl, ht, -⟩ := PgCmd.exec_tables hx
  · exact ⟨hwithheld, ht ▸ h.device, ht ▸ h.session⟩
  · have hws : ∀ w ∈ ws, ∀ text ∈ w.names, '\x00' ∉ text.toList := by
      intro w hw text htext
      cases hl with
      | now hcom =>
          intro hnul
          exact hc (List.any_eq_true.mpr
            ⟨text, commits_names hcom w hw text htext, hasNul_iff.mpr hnul⟩)
      | @tx tx _ htx _ hsame =>
          rw [h.withheld i tx w htx (hsame ▸ hw)] at htext
          exact absurd htext List.not_mem_nil
    obtain ⟨hd, hs⟩ := writes ws h.device h.session hws
    exact ⟨hwithheld, ht ▸ hd, ht ▸ hs⟩

end TextIds

end Pg

/-- The rows are found by such texts in every state that is reached. -/
theorem textIds_reach {S : Api.Server} {P : Config Api.Task World Srv Srv.Ans Api.Outcome →
      Label Api.Task Oracle Env → Prop} {c : Config Api.Task World Srv Srv.Ans Api.Outcome}
    (h : (Api.backend S).Reach P Api.boot c) : TextIds c.world.pg := by
  refine System.Reach.keeps (I := fun w => TextIds w.pg) ?_ ?_ h ?_
  · intro i cmd o w w' r hx hn
    obtain he | ⟨c', r', -, he⟩ := Srv.exec_pg cmd hx
    · rw [he]
      exact hn
    · exact hn.exec he
  · intro e w w' hx hn
    obtain ⟨tm, hpg⟩ := Env.step_pg hx
    rw [hpg]
    exact ⟨hn.withheld, hn.device, hn.session⟩
  · exact ⟨fun j tx w hj => (by cases hj), fun d hd => absurd hd List.not_mem_nil,
      fun s hs => absurd hs List.not_mem_nil⟩

/-- Ids that were free still are. -/
structure Fresh (w w' : World) : Prop where
  unstaged : Unstaged w'.pg
  device : ∀ id, w.pg.device id = none → w'.pg.device id = none

/-- No core command stages a device row. -/
private theorem unstaged_exec {c : Core} {o : Oracle} {w w' : World} {r : c.Ans}
    (h : Unstaged w.pg) (hx : Core.exec i c o w = some (w', r)) : Unstaged w'.pg := by
  rcases Srv.exec_pg (.core c) hx with he | ⟨c', r', _, he⟩
  · rw [he]
    exact h
  · exact h.exec he

theorem unstaged_runs {α : Type} {p : Core.M α} {a : α} {w w' : World}
    (hr : Prog.Runs Core.exec ok i p w a w') (h : Unstaged w.pg) : Unstaged w'.pg :=
  Prog.Only.runs (P := fun _ => True) (I := fun w => Unstaged w.pg)
    (fun _ _ _ _ _ _ hx hi => unstaged_exec hi hx) (Prog.only_of_all (fun _ => trivial) p) hr h

/-- A program that inserts no device leaves free ids free. -/
theorem fresh_runs {α : Type} {p : Core.M α}
    (hp : p.Only fun c => ∀ d, c ≠ .pg (.insertDevice d)) {a : α} {w w' : World}
    (hr : Prog.Runs Core.exec ok i p w a w') (h : Unstaged w.pg) : Fresh w w' := by
  refine hp.runs (I := fun w₁ => Fresh w w₁) ?_ hr ⟨h, fun _ hd => hd⟩
  intro c o w₁ w₂ r hc hx hf
  refine ⟨unstaged_exec hf.unstaged hx, ?_⟩
  intro id hd
  have hno : w₁.pg.device id = none := hf.device id hd
  cases hyes : w₂.pg.device id with
  | none => rfl
  | some d =>
      rcases Srv.exec_pg (.core c) hx with he | ⟨c', r', hcmd, he⟩
      · rw [he, hno] at hyes
        cases hyes
      · have hsome : (w₂.pg.device id).isSome = true := by
          rw [hyes]
          rfl
        obtain ⟨d', rfl, _⟩ := registered_by hf.unstaged he hno hsome
        exact absurd (Srv.core.inj hcmd) (hc d')

/-- Only `RegisterDevice` inserts devices. -/
theorem issues_insertDevice {c : Seam} {d : Device} (h : c.Issues (.pg (.insertDevice d))) :
    ∃ d', c = .registerDevice d' := by
  rcases h with hr | hw
  · exact hr.elim
  · cases c <;> first | exact ⟨_, rfl⟩ | exact hw.elim

namespace Api

variable {S : Server}

/-- A handler part that does not call `RegisterDevice` leaves free ids
free. -/
theorem hfresh {β : Type} {P : Call → Prop} {h : H β} (honly : HOnly P h)
    (hP : ∀ d, ¬P (.store (.registerDevice d))) {r : Except Reply β} {w w' : World}
    (hr : HRuns S ok i h w r w') (hw : Unstaged w.pg) : Fresh w w' := by
  refine fresh_runs ?_ hr hw
  refine Prog.Only.expand (P := P) ?_ (HOnly.run honly)
  intro c hc
  cases c with
  | store c =>
      refine (combined_issues S.crypto c).mono ?_
      rintro cmd hcmd d rfl
      obtain ⟨d', rfl⟩ := issues_insertDevice hcmd
      exact hP d' hc
  | now => exact Prog.only_perform nofun
  | rand n => exact Prog.only_perform nofun
  | notify ev => exact Prog.only_perform nofun

end Api

end Calcar
