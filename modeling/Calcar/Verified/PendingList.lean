import Calcar.Verified.Permissions

/-!
# The list of pending requests

`pending_for` answers from the manager's memory: entries of the workflow that
are not marked and not yet due.  Whether a verdict would be applied is up to
the row.  The two agree as long as nobody ends the row behind the manager's
back: the phone's route resolves rows without telling the manager, and a clock
that is set back takes an expiry out of the memory but not out of the row.

## Main results

* `pending_list_matches` — in every run without the two, an id is listed just
  when a verdict on it would be applied.
* `approved_stays_listed` — the run in which the phone's approval leaves the
  id listed.
-/

namespace Calcar.Agent

open Lib

/-! ## The law -/

/-- Nothing fails, and the clock reads `t`. -/
def atInstant (t : Int) : Nat → Oracle := fun _ => { clock := t }

/-- What the program would return at this instant. -/
def WouldReturn {α : Type} (p : Code α) (m : Machine) (t : Int) (a : α) : Prop :=
  ∃ n, (p.attempt exec 0 n (atInstant t) m).2 = some a

/-- `pending_for` lists the id. -/
def Listed (m : Machine) (t : Int) (w r : String) : Prop :=
  ∃ ids, WouldReturn (pendingFor w) m t (.ok ids) ∧ r ∈ ids

/-- A verdict of the bound device on this request would be applied. -/
def Resolvable (m : Machine) (t : Int) (w r : String) : Prop :=
  ∃ e, entryOf m.pending (namespacedKey w r) = some e ∧ e.workflowId = w ∧ e.requestId = r ∧
    ∀ decision,
      WouldReturn (resolveApproval (namespacedKey w r) e.deviceId decision) m t (.ok .applied)

/-- The list is right at this instant. -/
def ListMatches (m : Machine) (t : Int) : Prop :=
  ∀ w r, Listed m t w r ↔ Resolvable m t w r

/-- Every call of the run comes to its end. -/
def Completes (m : Machine) (ts : List PermissionTry) : Prop :=
  ∀ us t vs, ts = us ++ t :: vs → ∃ a, t.reply (machineAfter m us) = some a

/-- The phone's post does not end a tracked request whose deadline is still
ahead at `t`: it is turned down by a check, or names another row, or one that
has ended. -/
def Spares (m : Machine) (t : Int) (cfg : ConnectConfig) (p : Post) : Prop :=
  ∀ id allow e row, bearerOk p cfg.token = true → approvalFields p = .ok (id, allow) →
    m.db.getWorkflow p.workflow ≠ none → entryOf m.pending id = some e →
    m.db.requestOf id = some row → row.state = .pending → e.expiresAtMillis ≤ t

/-- Nobody ends a tracked request behind the manager's back, as far as it
matters at `t`: no post of the phone does, and no call has read the clock past
a deadline that is still ahead at `t`. -/
structure Unbypassed (m : Machine) (ts : List PermissionTry) (t : Int) : Prop where
  posts : ∀ us c vs, ts = us ++ c :: vs → ∀ cfg p, c.task = .approve cfg p →
    Spares (machineAfter m us) t cfg p
  clock : ∀ us c vs, ts = us ++ c :: vs → ∀ k key e,
    entryOf (machineAfter m us).pending key = some e →
    e.expiresAtMillis ≤ (c.oracles k).clock → e.expiresAtMillis ≤ t

/-! ## Rows beside the call -/

section Rows

variable {m : Machine} {key : String}

theorem requestOf_rest {db db' : Db} {k : String} (h : rest k db' = rest k db) (hkey : key ≠ k) :
    db'.requestOf key = db.requestOf key := by
  have hfind : ∀ db : Db, db.requestOf key = (rest k db).find? fun r => r.requestId = key := by
    intro db
    unfold rest Db.requestOf
    rw [List.find?_filter]
    congr 1
    funext r
    by_cases hr : r.requestId = key
    · simp [hr, hkey]
    · simp [hr]
  rw [hfind db', hfind db, h]

/-- Commands that change no row that is there. -/
def AddsOnly : Cmd → Prop
  | .sql (.selectWorkflow _) => True
  | .sql (.insertRequest _ _ _ _ _) => True
  | .sql _ => False
  | _ => True

theorem createPendingRequest_adds (id w : String) (kind : RequestKind) (expiresAt : Option Int) :
    (createPendingRequest id w kind expiresAt).Only AddsOnly := by
  refine andThen_only (Prog.only_perform trivial) fun row => ?_
  cases row with
  | none => trivial
  | some row => exact ⟨trivial, fun t => Prog.only_perform trivial⟩

theorem requestApproval_adds (w r device summary : String) (ttlMillis : Nat) :
    (requestApproval w r device summary ttlMillis).Only AddsOnly := by
  unfold requestApproval
  by_cases h : w = "" ∨ r = "" ∨ device = ""
  · rw [if_pos h]
    trivial
  · rw [if_neg h]
    exact ⟨trivial, fun t => andThen_only (createPendingRequest_adds _ _ _ _) fun _ =>
      ⟨trivial, fun _ => trivial⟩⟩

/-- A row that is there stays what it is. -/
theorem AddsOnly.row {c : Cmd} (hc : AddsOnly c) (o : Oracle) {row : RequestRow}
    (h : m.db.requestOf key = some row) : (c.run o m).1.db.requestOf key = some row := by
  refine run_db (P := fun db => db.requestOf key = some row) m o h fun s hs => ?_
  subst hs
  cases s with
  | selectWorkflow w => exact h
  | insertRequest id w kind expiresAt now =>
      refine wrote_keep (P := fun db => db.requestOf key = some row) h fun db' hins => ?_
      rw [(insertRequest_ok hins).2.2]
      show (m.db.requests ++ [_]).find? _ = some row
      rw [List.find?_append, show m.db.requests.find? _ = some row from h]
      rfl
  | _ => exact hc.elim

theorem adds_row {α : Type} {p : Code α} {f : α → PermissionReply} {t : PermissionTry}
    (hp : p.Only AddsOnly) (hcode : t.task.code = (p >>= fun a => .ret (f a)))
    {row : RequestRow} (h : m.db.requestOf key = some row) :
    (t.after m).db.requestOf key = some row := by
  have hkeep := meets_keep (j := 0) hp (I := fun m' => m'.db.requestOf key = some row)
    (fun _ o _ hc hm' => hc.row o hm') h
  rw [(call_wrapped hcode m).1]
  exact (Prog.meets_attempt hkeep t.steps t.oracles).1

/-- A sweep ends the rows that are due. -/
theorem sweep_row {t : PermissionTry} (htask : t.task = .sweep) {row : RequestRow}
    (h : m.db.requestOf key = some row) :
    (t.after m).db.requestOf key = some row ∨
      (t.after m).db.requestOf key = some (row.lapse (t.oracles 0).clock) := by
  have hcode : t.task.code = (sweepExpired >>= fun a => .ret (.swept a)) := by
    rw [htask]
    rfl
  rw [(call_wrapped hcode m).1]
  cases hn : t.steps with
  | zero => exact .inl h
  | succ n =>
      have hmeets : (sql (.updateAllExpired (t.oracles 0).clock)).Meets exec 0 (fun _ _ => True)
          (fun m' => m'.db.requestOf key = some row ∨
            m'.db.requestOf key = some (row.lapse (t.oracles 0).clock)) m := by
        refine meets_sql (.inl h) trivial ⟨.inr ?_, trivial⟩
        have hrows : ((Sql.updateAllExpired (t.oracles 0).clock).step m.db).1.requests =
            m.db.requests.map (.lapse (t.oracles 0).clock) := rfl
        show (((Sql.updateAllExpired (t.oracles 0).clock).step m.db).1).requestOf key = _
        rw [requestOf_map hrows fun r => (leadsTo_expired r _).requestId, h]
        rfl
      exact (Prog.meets_attempt hmeets n fun k => t.oracles (k + 1)).1

/-- A verdict works on the row it is looked up for. -/
theorem verdict_row {t : PermissionTry} {id device : String} {decision : ApprovalDecision}
    (htask : t.task = .resolve id device decision) (hkey : keyFor m.pending id ≠ some key) :
    (t.after m).db.requestOf key = m.db.requestOf key := by
  rw [(call_wrapped (resolve_code htask) m).1]
  refine resolve_keeps (I := fun m' => m'.db.requestOf key = m.db.requestOf key) id device
    decision rfl (fun c o m' hc hm' => ?_) t.steps t.oracles
  cases c with
  | now => exact hm'
  | markResolved k => exact hm'
  | sql s =>
      obtain ⟨k, hk, hkeyed⟩ := hc
      have hother : key ≠ k := by
        intro heq
        rw [heq] at hkey
        exact hkey hk
      have hconcerns : Concerns k none (.sql s) := .inl hkeyed
      rw [requestOf_rest (hconcerns.rest o m') hother]
      exact hm'
  | _ => exact hc.elim

/-- A post leaves a row alone, or names it and passes the checks. -/
theorem post_row {t : PermissionTry} {cfg : ConnectConfig} {p : Post}
    (htask : t.task = .approve cfg p) (key : String) (m : Machine) :
    (t.after m).db.requestOf key = m.db.requestOf key ∨
      bearerOk p cfg.token = true ∧ m.db.getWorkflow p.workflow ≠ none ∧
        ∃ allow, approvalFields p = .ok (key, allow) := by
  have hcode : t.task.code = (replyApproval cfg p >>= fun a => .ret (.replied a)) := by
    rw [htask]
    rfl
  rw [(call_wrapped hcode m).1]
  by_cases hrefused : bearerOk p cfg.token = false ∨
      (∀ id allow, approvalFields p ≠ .ok (id, allow)) ∨ m.db.getWorkflow p.workflow = none
  · left
    rw [(Prog.meets_attempt (replyApproval_refused hrefused) t.steps t.oracles).1]
  · rw [not_or, not_or] at hrefused
    obtain ⟨hb, hfields, hw⟩ := hrefused
    have hbearer : bearerOk p cfg.token = true := by simpa using hb
    cases hf : approvalFields p with
    | error r => exact absurd (fun id allow he => by rw [hf] at he; cases he) hfields
    | ok fields =>
        obtain ⟨id, allow⟩ := fields
        by_cases hid : key = id
        · subst hid
          exact .inr ⟨hbearer, hw, allow, rfl⟩
        · left
          have honly : (replyApproval cfg p).Only (Concerns id none) := by
            have htarget := handleApproval_concerns p
            unfold approvalTarget at htarget
            rw [hf] at htarget
            unfold replyApproval reply
            rw [if_pos hbearer]
            exact htarget
          have hkeep := meets_keep (j := 0) honly (I := fun m' => rest id m'.db = rest id m.db)
            (fun _ o m' hc hm' => (hc.rest o m').trans hm') rfl
          exact requestOf_rest (Prog.meets_attempt hkeep t.steps t.oracles).1 hid

end Rows

/-! ## One call -/

/-- Entries and rows that are not yet due agree on whether the request still
waits. -/
def Agrees (t : Int) (m : Machine) : Prop :=
  ∀ key e row, entryOf m.pending key = some e → m.db.requestOf key = some row →
    t < e.expiresAtMillis → (row.state = .pending ↔ e.resolved = false)

section Calls

variable {m : Machine} {t : Int} {c : PermissionTry} {key : String}

/-- A deadline that is still ahead has not been passed. -/
theorem lapse_ahead {row : RequestRow} {e : PendingEntry} {now : Int}
    (hdue : row.expiresAtMillis = some e.expiresAtMillis)
    (hclock : e.expiresAtMillis ≤ now → e.expiresAtMillis ≤ t) (ht : t < e.expiresAtMillis) :
    row.lapse now = row := by
  unfold RequestRow.lapse RequestRow.overdue
  rw [hdue]
  have hnot : ¬e.expiresAtMillis ≤ now := by
    intro hle
    have hpast := hclock hle
    omega
  simp [hnot]

/-- A verdict leaves entry and row in agreement. -/
theorem verdict_agrees {id device : String} {decision : ApprovalDecision} {e e' : PendingEntry}
    {row row' : RequestRow} {r : Except StorageError ApprovalOutcome} (hm : Tracked m)
    (htask : c.task = .resolve id device decision) (hreply : c.reply m = some (.resolved r))
    (he : entryOf m.pending key = some e) (hrow : m.db.requestOf key = some row)
    (hdue : row.expiresAtMillis = some e.expiresAtMillis)
    (hagree : row.state = .pending ↔ e.resolved = false)
    (hclock : e.expiresAtMillis ≤ (c.oracles 1).clock → e.expiresAtMillis ≤ t)
    (ht : t < e.expiresAtMillis) (he' : entryOf (c.after m).pending key = some e')
    (hrow' : (c.after m).db.requestOf key = some row') :
    row'.state = .pending ↔ e'.resolved = false := by
  have hsame : entryOf (c.after m).pending key = some e →
      (c.after m).db.requestOf key = some row →
      (row'.state = .pending ↔ e'.resolved = false) := by
    intro hentry hkept
    obtain rfl := Option.some.inj (he'.symm.trans hentry)
    obtain rfl := Option.some.inj (hrow'.symm.trans hkept)
    exact hagree
  have hanswer := resolve_replied hm htask hreply
  cases hanswer with
  | unknown _ hmachine =>
      rw [hmachine] at hsame
      exact hsame he hrow
  | repeated _ _ _ _ _ _ hmachine =>
      rw [hmachine] at hsame
      exact hsame he hrow
  | answered key' e₀ a hkey he₀ _ hopen hanswer hpending =>
      by_cases hk : key = key'
      · subst hk
        obtain rfl := Option.some.inj (he.symm.trans he₀)
        have hstate := hagree.mpr hopen
        rw [hrow, hrow'] at hanswer
        cases hanswer with
        | applied _ _ _ =>
            have hmark : entryOf (c.after m).pending key = some { e with resolved := true } := by
              rw [hpending]
              show entryOf (markEntry m.pending key) key = _
              rw [entryOf_markEntry, he, Option.map_some, if_pos rfl]
            obtain rfl := Option.some.inj (he'.symm.trans hmark)
            constructor
            · intro hwaits
              cases hwaits
            · intro hnot
              cases hnot
        | alreadyResolved _ hended =>
            rw [hstate] at hended
            cases hended
        | expired _ hended =>
            rw [hstate] at hended
            cases hended
        | overdue _ _ d hd hpast =>
            rw [hdue, Option.some.injEq] at hd
            have hahead := hclock (by omega)
            omega
        | failed _ _ hkept =>
            refine hsame (by rw [hpending]; exact he) ?_
            rw [hrow']
            rcases hkept with hkept | hlapsed
            · exact hkept
            · rw [Option.map_some, lapse_ahead hdue hclock ht] at hlapsed
              exact hlapsed
      · have hother : keyFor m.pending id ≠ some key := by
          intro heq
          exact hk (Option.some.inj (heq.symm.trans hkey))
        refine hsame ?_ ((verdict_row htask hother).trans hrow)
        rw [hpending]
        by_cases hmarks : marks a = true
        · rw [if_pos hmarks, entryOf_markEntry, he, Option.map_some, if_neg hk]
        · rw [if_neg hmarks]
          exact he

/-- **Every call** that is not made behind the manager's back keeps the
agreement. -/
theorem Agrees.call (h : Agrees t m) (hm : Tracked m) {a : PermissionReply}
    (hreply : c.reply m = some a)
    (hposts : ∀ cfg p, c.task = .approve cfg p → Spares m t cfg p)
    (hclock : ∀ k key e, entryOf m.pending key = some e →
      e.expiresAtMillis ≤ (c.oracles k).clock → e.expiresAtMillis ≤ t) :
    Agrees t (c.after m) := by
  intro key e' row' he' hrow' ht
  rcases entry_origin he' with ⟨e, he, hlead⟩ | ⟨_, _, _, _, _, _, _, hnew, row, hrow, hstate, _⟩
  · rw [hlead.expiresAt] at ht
    obtain ⟨row, hrow, hdue⟩ := hm.filed key e he
    have hagree := h key e row he hrow ht
    have hsame : entryOf (c.after m).pending key = some e →
        (c.after m).db.requestOf key = some row →
        (row'.state = .pending ↔ e'.resolved = false) := by
      intro hentry hkept
      obtain rfl := Option.some.inj (he'.symm.trans hentry)
      obtain rfl := Option.some.inj (hrow'.symm.trans hkept)
      exact hagree
    cases htask : c.task with
    | request w r device summary ttlMillis =>
        have hmade := request_made (m := m) (j := 0) w r device summary ttlMillis
          c.steps c.oracles
        rw [← (call_wrapped (request_code htask) m).1] at hmade
        have hkept := adds_row (requestApproval_adds w r device summary ttlMillis)
          (request_code htask) hrow
        cases hmade with
        | inl hquiet => exact hsame (by rw [hquiet]; exact he) hkept
        | inr hnew =>
            have hother : key ≠ namespacedKey w r := by
              intro heq
              rw [← heq, hrow] at hnew
              cases hnew.1
            exact hsame (by rw [hnew.2.1, entryOf_setEntry_ne _ hother]; exact he) hkept
    | resolve id device decision =>
        obtain ⟨r, rfl⟩ := resolve_reply htask hreply
        exact verdict_agrees hm htask hreply he hrow hdue hagree (hclock 1 key e he) ht he' hrow'
    | sweep =>
        refine hsame (by rw [sweep_quiet htask]; exact he) ?_
        cases sweep_row htask hrow with
        | inl hkept => exact hkept
        | inr hlapsed =>
            rw [lapse_ahead hdue (hclock 0 key e he) ht] at hlapsed
            exact hlapsed
    | list w =>
        refine hsame (by rw [list_quiet htask]; exact he) ?_
        have honly : (pendingFor w).Only AddsOnly :=
          ⟨trivial, fun _ => ⟨trivial, fun _ => trivial⟩⟩
        exact adds_row (f := .listed) honly (by rw [htask]; rfl) hrow
    | approve cfg p =>
        refine hsame (by rw [approve_quiet htask]; exact he) ?_
        rcases post_row htask key m with hkept | ⟨hb, hw, allow, hf⟩
        · rw [hkept]
          exact hrow
        · -- the post names the request, so the request has ended before
          have hended : row.state ≠ .pending := by
            intro hwaits
            have hpast := hposts cfg p htask key allow e row hb hf hw he hrow hwaits
            omega
          obtain ⟨row₁, hrow₁, hmoved⟩ := leadsTo_attempt hrow c.task.code c.steps c.oracles
          rw [hmoved.ended hended] at hrow₁
          exact hrow₁
  · obtain rfl := Option.some.inj (hrow'.symm.trans hrow)
    rw [hnew]
    exact ⟨fun _ => rfl, fun _ => hstate⟩

end Calls

/-! ## What would be returned -/

section Instants

variable {m : Machine} {t : Int} {w r : String}

/-- The ids of the open requests of a workflow. -/
def openIds (m : Machine) (t : Int) (w : String) : List String :=
  ((m.pending.filter fun p =>
    p.2.workflowId = w && !p.2.resolved && decide (t < p.2.expiresAtMillis)).map
      fun p => p.2.requestId).mergeSort fun a b => decide (a ≤ b)

theorem pendingFor_returns {a : Except StorageError (List String)} :
    WouldReturn (pendingFor w) m t a ↔ a = .ok (openIds m t w) := by
  constructor
  · intro h
    obtain ⟨n, hn⟩ := h
    match n with
    | 0 => cases hn
    | 1 => cases hn
    | 2 => cases hn
    | n + 3 => exact (Option.some.inj hn).symm
  · intro h
    rw [h]
    exact ⟨3, rfl⟩

/-- The list holds the requests that are not marked and not yet due. -/
theorem listed_iff (hm : Tracked m)
    (hkeys : ∀ key e, entryOf m.pending key = some e →
      key = namespacedKey e.workflowId e.requestId) :
    Listed m t w r ↔ ∃ e, entryOf m.pending (namespacedKey w r) = some e ∧ e.workflowId = w ∧
      e.requestId = r ∧ e.resolved = false ∧ t < e.expiresAtMillis := by
  have hmem : r ∈ openIds m t w ↔ ∃ p ∈ m.pending, (p.2.workflowId = w ∧ p.2.resolved = false ∧
      t < p.2.expiresAtMillis) ∧ p.2.requestId = r := by
    unfold openIds
    rw [List.mem_mergeSort, List.mem_map]
    simp only [List.mem_filter, Bool.and_eq_true, decide_eq_true_eq, Bool.not_eq_true', and_assoc]
  constructor
  · intro h
    obtain ⟨ids, hids, hr⟩ := h
    obtain rfl := Except.ok.inj (pendingFor_returns.mp hids)
    obtain ⟨⟨key, e⟩, hp, ⟨hw, hopen, hdue⟩, hid⟩ := hmem.mp hr
    have he := (mem_iff_entryOf hm.keys).mp hp
    have hkey := hkeys key e he
    rw [hw, hid] at hkey
    rw [hkey] at he
    exact ⟨e, he, hw, hid, hopen, hdue⟩
  · intro h
    obtain ⟨e, he, hw, hid, hopen, hdue⟩ := h
    refine ⟨_, pendingFor_returns.mpr rfl, hmem.mpr ⟨(namespacedKey w r, e), ?_, ⟨hw, hopen, hdue⟩, hid⟩⟩
    exact (mem_iff_entryOf hm.keys).mpr he

/-- A row that waits and is not due is resolved, if nothing fails. -/
theorem waiting_applied {key device : String} {e : PendingEntry} {row : RequestRow}
    (hm : DistinctIds m.db) (he : entryOf m.pending key = some e) (hdevice : e.deviceId = device)
    (hopen : e.resolved = false) (hrow : m.db.requestOf key = some row)
    (hwaits : row.state = .pending) (hdue : row.expiresAtMillis = some e.expiresAtMillis)
    (ht : t < e.expiresAtMillis) (decision : ApprovalDecision) :
    WouldReturn (resolveApproval key device decision) m t (.ok .applied) := by
  have hlapse : (m.db.updateExpired key t).requestOf key = some row := by
    rw [requestOf_lapse, hrow, Option.map_some,
      lapse_ahead (t := t) hdue (fun hle => hle) ht]
  have hcount : ((m.db.updateExpired key t).updateResolved key
      (decisionWord decision ++ ":" ++ e.summary) t).2 = 1 := by
    have hdistinct : DistinctIds (m.db.updateExpired key t) := hm.step (.updateExpired key t)
    rw [updateResolved_count hdistinct, hlapse]
    simp [waits, hwaits]
  refine ⟨8, ?_⟩
  have hread : (resolveApproval key device decision).attempt exec 0 8 (atInstant t) m =
      (resolveLocked m.pending key device decision).attempt exec 0 7 (atInstant t) m := rfl
  rw [hread, resolveLocked_some device decision (keyFor_self he) he,
    if_neg (not_not_intro hdevice), if_neg (by rw [hopen]; decide)]
  show (Prog.attempt exec 0 ((if ((m.db.updateExpired key t).updateResolved key
    (decisionWord decision ++ ":" ++ e.summary) t).2 = 1 then _ else _) >>= settleEntry key) 4
      (atInstant t) _).2 = _
  rw [hcount]
  rfl

/-- A verdict that would be applied finds the request open. -/
theorem applied_waits {key device : String} {e : PendingEntry} {decision : ApprovalDecision}
    (hm : Tracked m) (he : entryOf m.pending key = some e)
    (h : WouldReturn (resolveApproval key device decision) m t (.ok .applied)) :
    e.resolved = false ∧ t < e.expiresAtMillis ∧
      ∃ row, m.db.requestOf key = some row ∧ row.state = .pending := by
  obtain ⟨n, hn⟩ := h
  have hanswer := resolve_permission hm.distinct hn
  generalize hr : (Except.ok .applied : Except StorageError ApprovalOutcome) = r at hanswer
  cases hanswer with
  | unknown _ _ => cases hr
  | repeated _ _ _ _ _ _ _ => cases hr
  | answered key' e₀ a hkey he₀ _ hopen hrow _ =>
      obtain rfl := Option.some.inj ((keyFor_self he).symm.trans hkey)
      obtain rfl := Option.some.inj (he.symm.trans he₀)
      obtain ⟨row, hfiled, hdue⟩ := hm.filed key e he
      rw [hfiled] at hrow
      generalize (((resolveApproval key device decision).attempt exec 0 n (atInstant t)
        m).1.db.requestOf key) = post at hrow
      cases hrow with
      | applied _ hwaits hbefore => exact ⟨hopen, hbefore _ hdue, row, hfiled, hwaits⟩
      | alreadyResolved _ _ => cases hr
      | expired _ _ => cases hr
      | overdue _ _ _ _ _ => cases hr
      | failed _ _ _ => cases hr

end Instants

/-! ## Runs -/

section Runs

variable {m : Machine} {ts : List PermissionTry} {t : Int}

/-- What is tracked agrees with the rows after any calls that nobody makes
behind the manager's back. -/
theorem agrees_calls (hm : Tracked m) (hstart : m.pending = []) (hrun : Completes m ts)
    (h : Unbypassed m ts t) : Agrees t (machineAfter m ts) := by
  induction ts using List.reverseRecOn with
  | nil =>
      intro key e row he
      have hempty : (machineAfter m []).pending = [] := hstart
      rw [hempty] at he
      cases he
  | append_singleton ts c ih =>
      have hearlier : ∀ us d vs, ts = us ++ d :: vs → ts ++ [c] = us ++ d :: (vs ++ [c]) := by
        intro us d vs hts
        rw [hts, List.append_assoc, List.cons_append]
      have hagree := ih (fun us d vs hts => hrun us d (vs ++ [c]) (hearlier us d vs hts))
        ⟨fun us d vs hts => h.posts us d (vs ++ [c]) (hearlier us d vs hts),
          fun us d vs hts => h.clock us d (vs ++ [c]) (hearlier us d vs hts)⟩
      obtain ⟨a, ha⟩ := hrun ts c [] rfl
      rw [machineAfter_snoc]
      exact hagree.call (hm.calls ts) ha (h.posts ts c [] rfl) (h.clock ts c [] rfl)

/-- What is tracked in a run of a process, as the list sees it. -/
theorem listed_calls (hm : DistinctIds m.db) (hstart : m.pending = []) {w r : String} :
    Listed (machineAfter m ts) t w r ↔
      ∃ e, entryOf (machineAfter m ts).pending (namespacedKey w r) = some e ∧
        e.workflowId = w ∧ e.requestId = r ∧ e.resolved = false ∧ t < e.expiresAtMillis :=
  listed_iff ((Tracked.fresh hm hstart).calls ts)
    fun key e he => (recorded_calls hstart ts key e he).1

/-- **The list matches.**  In every run of a process that nobody goes behind,
an id is listed just when a verdict of its device would be applied. -/
theorem pending_list_matches (m : Machine) (hm : DistinctIds m.db) (hstart : m.pending = [])
    (ts : List PermissionTry) (hrun : Completes m ts) (t : Int) (h : Unbypassed m ts t) :
    ListMatches (machineAfter m ts) t := by
  have hfresh : Tracked m := Tracked.fresh hm hstart
  have htracked := hfresh.calls ts
  have hagree := agrees_calls hfresh hstart hrun h
  intro w r
  rw [listed_calls hm hstart]
  constructor
  · intro hlisted
    obtain ⟨e, he, hw, hid, hopen, ht⟩ := hlisted
    obtain ⟨row, hrow, hdue⟩ := htracked.filed _ e he
    have hwaits := (hagree _ e row he hrow ht).mpr hopen
    exact ⟨e, he, hw, hid, fun decision =>
      waiting_applied htracked.distinct he rfl hopen hrow hwaits hdue ht decision⟩
  · intro hresolvable
    obtain ⟨e, he, hw, hid, happlied⟩ := hresolvable
    obtain ⟨hopen, ht, _⟩ := applied_waits htracked he (happlied .allow)
    exact ⟨e, he, hw, hid, hopen, ht⟩

theorem completes_nil : Completes m [] := by
  intro us c vs hts
  cases us <;> cases hts

theorem completes_cons {c : PermissionTry} (hc : ∃ a, c.reply m = some a)
    (h : Completes (c.after m) ts) : Completes m (c :: ts) := by
  intro us d vs hts
  cases us with
  | nil =>
      obtain ⟨rfl, _⟩ := List.cons.inj hts
      exact hc
  | cons u us =>
      obtain ⟨rfl, hrest⟩ := List.cons.inj hts
      exact h us d vs hrest

/-- A request, and the phone's approval of it. -/
def bypassingCalls : List PermissionTry :=
  [⟨.request "w" "r" "PH-1" "rm -r" 10, 9, fun _ => {}⟩,
    ⟨.approve sampleConfig (approvalSample "w" "w:r"), 20, fun _ => { clock := 2 }⟩]

/-- A request and a sweep that comes too early for it. -/
def unbypassedCalls : List PermissionTry :=
  [⟨.request "w" "r" "PH-1" "rm -r" 10, 9, fun _ => {}⟩,
    ⟨.sweep, 9, fun _ => { clock := 4 }⟩]

end Runs

/-- At instant 5 the request is listed, and a verdict on it would be applied. -/
theorem pending_list_matches_sample :
    ListMatches (machineAfter (oneWorkflow "w") unbypassedCalls) 5 := by
  refine pending_list_matches (oneWorkflow "w") (by decide) rfl unbypassedCalls
    (completes_cons ⟨_, rfl⟩ (completes_cons ⟨_, rfl⟩ completes_nil)) 5 ⟨?_, ?_⟩
  · intro us c vs hts cfg p htask
    match us with
    | [] =>
        obtain ⟨rfl, _⟩ := List.cons.inj hts
        cases htask
    | [_] =>
        obtain ⟨rfl, _⟩ := List.cons.inj (List.cons.inj hts).2
        cases htask
    | _ :: _ :: us => cases us <;> cases (List.cons.inj (List.cons.inj hts).2).2
  · intro us c vs hts k key e he hpast
    match us with
    | [] => cases he
    | [_] =>
        obtain ⟨rfl, hrest⟩ := List.cons.inj hts
        obtain ⟨rfl, _⟩ := List.cons.inj hrest
        have hread : e.expiresAtMillis ≤ 4 := hpast
        omega
    | _ :: _ :: us => cases us <;> cases (List.cons.inj (List.cons.inj hts).2).2

/-- The phone has approved the request, and the list still shows it. -/
theorem approved_stays_listed :
    ¬ ∀ (m : Machine) (ts : List PermissionTry) (t : Int), DistinctIds m.db → m.pending = [] →
      Completes m ts → ListMatches (machineAfter m ts) t := by
  intro hall
  have hdistinct : DistinctIds (oneWorkflow "w").db := by decide
  have hrun : Completes (oneWorkflow "w") bypassingCalls :=
    completes_cons ⟨_, rfl⟩ (completes_cons ⟨_, rfl⟩ completes_nil)
  have hentry : entryOf (machineAfter (oneWorkflow "w") bypassingCalls).pending
      (namespacedKey "w" "r") = some (newEntry "w" "r" "PH-1" "rm -r" 10 0) := by decide
  have hlisted : Listed (machineAfter (oneWorkflow "w") bypassingCalls) 5 "w" "r" :=
    (listed_calls hdistinct rfl).mpr ⟨_, hentry, rfl, rfl, rfl, by decide⟩
  have hmatches := hall (oneWorkflow "w") bypassingCalls 5 hdistinct rfl hrun
  obtain ⟨e, he, _, _, happlied⟩ := (hmatches "w" "r").mp hlisted
  have htracked := (Tracked.fresh hdistinct rfl).calls bypassingCalls
  obtain ⟨_, _, row, hrow, hwaits⟩ := applied_waits htracked he (happlied .allow)
  have hended : ((machineAfter (oneWorkflow "w") bypassingCalls).db.requestOf
      (namespacedKey "w" "r")).map RequestRow.state = some .resolved := by decide
  rw [hrow, Option.map_some, hwaits] at hended
  cases hended

end Calcar.Agent
