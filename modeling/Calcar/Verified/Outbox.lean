import Calcar.Lib.Drain
import Calcar.Verified.Ring

/-!
# The outbox

Every append leaves one outbox row, and nothing deletes rows: the table is
the list of all appends, each with the clock reading of its transaction.
A row is pending until an update names it.  The drain sorts by clock reading
first, so its order within one workflow is the clock's.

## Main results

* `outbox_is_log` — the rows are the appends, in order.
* `outbox_conserved` — what is pending, and where its events are.
* `drains_in_order_iff` — drains follow the sequence numbers exactly when the
  clock did.
-/

namespace Calcar.Agent

open Lib

namespace Db

/-- The entries that wait to be published, in the order of the table. -/
def pending (db : Db) : List OutboxEntry := db.pendingRows.map OutboxRow.entry

/-! ## The table is the log of the appends -/

theorem step_stamps {db : Db} {n : String → Nat} (h : ∀ w, db.RingOf w (n w)) (s : Sql) :
    (s.step db).1.outbox.map OutboxRow.stamp = db.outbox.map OutboxRow.stamp ++ s.stamps db := by
  obtain ⟨d, now, trimNow, rfl⟩ | ⟨e, now, rfl⟩ | ⟨hsame, _, hstamps, _⟩ := step_cases s db
  · cases hknown : (db.getWorkflow d.workflowId).isSome with
    | false =>
        have herr := appendTx_unknown (d := d) (by simpa using hknown) now trimNow
        simp only [Sql.step, Sql.stamps, herr, List.append_nil]
    | true =>
        obtain ⟨db', hok, happ, _⟩ := appendTx_ring (h d.workflowId) hknown now trimNow
        simp only [Sql.step, Sql.stamps, hok, happ.enqueued, List.map_append]
        rfl
  · have hkeep := updatePublished_stamps db e now
    rw [Sql.stamps, List.append_nil]
    · exact hkeep
    · intro d now' trimNow heq
      cases heq
  · rw [hstamps, hsame.2.2, List.append_nil]

theorem run_stamps {db : Db} {n : String → Nat} (h : ∀ w, db.RingOf w (n w)) (ss : List Sql) :
    (db.run ss).outbox.map OutboxRow.stamp = db.outbox.map OutboxRow.stamp ++ db.stamps ss := by
  induction ss generalizing db n with
  | nil => simp [run, stamps]
  | cons s ss ih =>
      have hrest := ih fun v => (RingOf.step h s v).1
      simp only [run, stamps]
      rw [hrest, step_stamps h, List.append_assoc]

/-- **The outbox is the log**: one row for each append, in their order, each
under the clock reading of its append. -/
theorem outbox_is_log (ss : List Sql) :
    (({} : Db).run ss).outbox.map OutboxRow.stamp = ({} : Db).stamps ss :=
  run_stamps (n := fun _ => 0) ringOf_empty ss

theorem entries_appended (ss : List Sql) :
    (({} : Db).run ss).outbox.map OutboxRow.entry = ({} : Db).appended ss := by
  unfold appended
  rw [← outbox_is_log, List.map_map]
  rfl

/-- The appends to one workflow are the numbers it gave out. -/
theorem appended_given (w : String) (db : Db) (ss : List Sql) :
    ((db.appended ss).filter fun e => e.workflowId = w).map OutboxEntry.seqNo =
      db.given w ss := by
  induction ss generalizing db with
  | nil => rfl
  | cons s ss ih =>
      have hrest := ih (s.step db).1
      unfold appended at hrest ⊢
      simp only [stamps, given, List.map_append, List.filter_append]
      rw [hrest]
      congr 1
      cases s with
      | appendEvent d now trimNow =>
          simp only [Sql.stamps, Sql.gave]
          cases db.appendTx d now trimNow with
          | error e => rfl
          | ok x =>
              by_cases hw : d.workflowId = w
              · simp [hw]
              · simp [hw]
      | _ => rfl

/-- The appends to one workflow come in the order of their numbers. -/
theorem appended_window (w : String) (ss : List Sql) :
    Consecutive OutboxEntry.seqNo 0
      ((({} : Db).appended ss).filter fun e => e.workflowId = w) := by
  have hgiven := (ringOf_run ss w).2
  rw [← appended_given] at hgiven
  exact (Consecutive.map OutboxEntry.seqNo).mp hgiven

theorem nodup_of_ascending {l : List OutboxEntry}
    (h : ∀ w, (l.filter fun e => e.workflowId = w).Pairwise fun a b => a.seqNo < b.seqNo) :
    l.Nodup := by
  induction l with
  | nil => exact List.nodup_nil
  | cons e l ih =>
      refine List.nodup_cons.mpr ⟨fun he' => ?_, ih fun w => ?_⟩
      · have hpair := h e.workflowId
        rw [List.filter_cons_of_pos (by simp)] at hpair
        have hself := List.rel_of_pairwise_cons hpair
          (List.mem_filter.mpr ⟨he', by simp⟩)
        omega
      · exact (h w).sublist ((List.sublist_cons_self e l).filter _)

theorem appended_nodup (ss : List Sql) : (({} : Db).appended ss).Nodup :=
  nodup_of_ascending fun w => (appended_window w ss).ascending

/-! ## What is pending -/

/-- The publication marks of the table, after the marks `ms`. -/
structure MarkedBy (db : Db) (ms : List OutboxEntry) : Prop where
  shown : ∀ r ∈ db.outbox, r.publishedAtMillis.isSome ↔ r.entry ∈ ms
  known : ∀ e ∈ ms, e ∈ db.outbox.map OutboxRow.entry

theorem MarkedBy.publish {db : Db} {ms : List OutboxEntry} (h : db.MarkedBy ms)
    (e : OutboxEntry) (now : Int) :
    (db.updatePublished e now).1.MarkedBy
      (ms ++ if e ∈ db.outbox.map OutboxRow.entry then [e] else []) := by
  have hkeys : (db.updatePublished e now).1.outbox.map OutboxRow.entry =
      db.outbox.map OutboxRow.entry := by
    have hstamps := congrArg (List.map Prod.fst) (updatePublished_stamps db e now)
    rw [List.map_map, List.map_map] at hstamps
    exact hstamps
  constructor
  · intro r' hr'
    simp only [updatePublished, List.mem_map] at hr'
    obtain ⟨r, hr, rfl⟩ := hr'
    have hold := h.shown r hr
    by_cases he : r.entry = e
    · have hmem : e ∈ db.outbox.map OutboxRow.entry := he ▸ List.mem_map_of_mem hr
      rw [if_pos hmem]
      have hentry : (if unpublished e r then { r with publishedAtMillis := some now }
          else r).entry = e := by
        split
        · exact he
        · exact he
      have hset : (if unpublished e r then { r with publishedAtMillis := some now }
          else r).publishedAtMillis.isSome := by
        cases hp : r.publishedAtMillis with
        | none => simp [unpublished, he, hp]
        | some t => simp [unpublished, he, hp]
      rw [hentry]
      simp [hset]
    · have hnot : unpublished e r = false := by
        simp [unpublished, he]
      rw [hnot]
      simp only [Bool.false_eq_true, if_false]
      rw [hold, List.mem_append]
      split
      · simp [he]
      · simp
  · intro e' he'
    rw [hkeys]
    rw [List.mem_append] at he'
    cases he' with
    | inl he' => exact h.known e' he'
    | inr he' =>
        split at he'
        · rename_i hmem
          rw [List.mem_singleton] at he'
          rw [he']
          exact hmem
        · cases he'

theorem MarkedBy.step {db : Db} {ms : List OutboxEntry} {n : String → Nat}
    (h : db.MarkedBy ms) (hring : ∀ w, db.RingOf w (n w)) (s : Sql) :
    (s.step db).1.MarkedBy (ms ++ s.marks db) := by
  obtain ⟨d, now, trimNow, rfl⟩ | ⟨e, now, rfl⟩ | ⟨hsame, _, _, hmarks⟩ := step_cases s db
  · have hmarks : (Sql.appendEvent d now trimNow).marks db = [] := rfl
    rw [hmarks, List.append_nil]
    cases hknown : (db.getWorkflow d.workflowId).isSome with
    | false =>
        have herr := appendTx_unknown (d := d) (by simpa using hknown) now trimNow
        simp only [Sql.step, herr]
        exact h
    | true =>
        obtain ⟨db', hok, happ, _⟩ := appendTx_ring (hring d.workflowId) hknown now trimNow
        simp only [Sql.step, hok]
        constructor
        · intro r hr
          rw [happ.enqueued, List.mem_append, List.mem_singleton] at hr
          cases hr with
          | inl hr => exact h.shown r hr
          | inr hr =>
              -- the new number is not among the marked ones
              subst hr
              have hfresh : (⟨d.workflowId, n d.workflowId + 1⟩ : OutboxEntry) ∉ ms := by
                intro hmem
                obtain ⟨r, hr, heq⟩ := List.mem_map.mp (h.known _ hmem)
                simp only [OutboxRow.entry, OutboxEntry.mk.injEq] at heq
                have := (hring d.workflowId).enqueued r hr heq.1
                omega
              simp [OutboxRow.entry, hfresh]
        · intro e he
          rw [happ.enqueued, List.map_append, List.mem_append]
          exact .inl (h.known e he)
  · exact h.publish e now
  · rw [hmarks, List.append_nil]
    constructor
    · rw [hsame.2.2]
      exact h.shown
    · rw [hsame.2.2]
      exact h.known

theorem MarkedBy.run {db : Db} {ms : List OutboxEntry} {n : String → Nat}
    (h : db.MarkedBy ms) (hring : ∀ w, db.RingOf w (n w)) (ss : List Sql) :
    (db.run ss).MarkedBy (ms ++ db.marked ss) := by
  induction ss generalizing db ms n with
  | nil =>
      simp only [Db.run, marked, List.append_nil]
      exact h
  | cons s ss ih =>
      simp only [Db.run, marked]
      rw [← List.append_assoc]
      exact ih (h.step hring s) fun v => (RingOf.step hring s v).1

theorem markedBy_run (ss : List Sql) :
    (({} : Db).run ss).MarkedBy (({} : Db).marked ss) := by
  have h₀ : ({} : Db).MarkedBy [] :=
    ⟨fun _ hr => absurd hr List.not_mem_nil, fun _ he => absurd he List.not_mem_nil⟩
  exact h₀.run (n := fun _ => 0) ringOf_empty ss

/-- The pending rows are those no mark names. -/
theorem MarkedBy.pending_eq {db : Db} {ms : List OutboxEntry} (h : db.MarkedBy ms) :
    db.pending = (db.outbox.map OutboxRow.entry).filter fun e => e ∉ ms := by
  unfold pending pendingRows
  rw [List.filter_map]
  congr 1
  apply List.filter_congr
  intro r hr
  have hshown := h.shown r hr
  cases hp : r.publishedAtMillis with
  | none =>
      rw [hp] at hshown
      simpa using hshown
  | some t =>
      rw [hp] at hshown
      simpa using hshown

theorem pending_appended (ss : List Sql) :
    (({} : Db).run ss).pending =
      (({} : Db).appended ss).filter fun e => e ∉ ({} : Db).marked ss := by
  rw [(markedBy_run ss).pending_eq, entries_appended]

/-- A drain without a limit hands out what is pending. -/
theorem drain_perm (db : Db) {limit : Nat} (hlimit : db.pending.length ≤ limit) :
    (db.outboxDrain limit).Perm db.pending := by
  unfold pending at hlimit
  rw [List.length_map] at hlimit
  unfold outboxDrain
  rw [List.take_of_length_le (by rw [List.length_mergeSort]; exact hlimit)]
  exact (List.mergeSort_perm _ _).map _

end Db

/-- **Conservation.**  After any statements on an empty file: what is pending
is what was appended less what was marked published since, every append
counting once; and the event behind a pending entry is in the ring or lies
before the cut. -/
theorem outbox_conserved (ss : List Sql) :
    let db := ({} : Db).run ss
    let appended := ({} : Db).appended ss
    db.pending = appended.filter (fun e => e ∉ ({} : Db).marked ss) ∧
      appended.Nodup ∧
      (∀ w, (appended.filter fun e => e.workflowId = w).map OutboxEntry.seqNo =
        ({} : Db).given w ss) ∧
      (∀ limit, db.pending.length ≤ limit → (db.outboxDrain limit).Perm db.pending) ∧
      ∀ e ∈ db.pending,
        (∃ r ∈ db.eventsOf e.workflowId, r.seqNo = e.seqNo) ∨
          ∃ t, (db.ringStats e.workflowId).truncatedBeforeSeq = some t ∧ e.seqNo ≤ t := by
  intro db appended
  refine ⟨Db.pending_appended ss, Db.appended_nodup ss, fun w => Db.appended_given w {} ss,
    fun limit hlimit => Db.drain_perm db hlimit, ?_⟩
  intro e he
  have hmem : e ∈ appended.filter fun e' => e'.workflowId = e.workflowId := by
    have hpending : e ∈ appended.filter fun e => e ∉ ({} : Db).marked ss := by
      rw [← Db.pending_appended ss]
      exact he
    exact List.mem_filter.mpr ⟨(List.mem_filter.mp hpending).1, by simp⟩
  have hbounds := (Db.appended_window e.workflowId ss).bounds hmem
  have hlen := congrArg List.length (Db.appended_given e.workflowId {} ss)
  rw [List.length_map] at hlen
  have hring := (Db.ringOf_run ss e.workflowId).1
  have hends := hring.ends
  by_cases hcut : db.cut e.workflowId < e.seqNo
  · exact .inl (hring.window.exists_key hcut (by omega))
  · right
    have hpos : 0 < db.cut e.workflowId := by
      omega
    cases hrow : db.truncationOf e.workflowId with
    | none =>
        unfold Db.cut at hpos
        rw [hrow] at hpos
        simp at hpos
    | some r =>
        refine ⟨r.truncatedBeforeSeq, ?_, ?_⟩
        · simp only [Db.ringStats, hrow, Option.map_some]
        · unfold Db.cut at hcut
          rw [hrow] at hcut
          simp only [Option.map_some, Option.getD_some] at hcut
          omega

/-! ## The order of a drain -/

/-- Every drain returns the pending entries of each workflow ascending, and
of them a prefix. -/
def DrainsInOrder (db : Db) : Prop :=
  ∀ limit : Nat, limit < 4294967296 → ∀ w,
    ((db.outboxDrain limit).filter fun e => e.workflowId = w).Pairwise
        (fun e e' => e.seqNo < e'.seqNo) ∧
      ((db.outboxDrain limit).filter fun e => e.workflowId = w) <+:
        db.pending.filter fun e => e.workflowId = w

/-- Of two appends to one workflow that both still wait, the later one read
no earlier time. -/
def SteadyClock (ss : List Sql) : Prop :=
  ∀ e t e' t', (e, t) ∈ ({} : Db).stamps ss → (e', t') ∈ ({} : Db).stamps ss →
    e ∉ ({} : Db).marked ss → e' ∉ ({} : Db).marked ss →
    e.workflowId = e'.workflowId → e.seqNo < e'.seqNo → t ≤ t'

namespace Db

/-- `drainLe`, spelled out. -/
theorem drainLe_iff (a b : OutboxRow) :
    drainLe a b = true ↔ a.enqueuedAtMillis < b.enqueuedAtMillis ∨
      (a.enqueuedAtMillis = b.enqueuedAtMillis ∧
        (a.workflowId < b.workflowId ∨ (a.workflowId = b.workflowId ∧ a.seqNo ≤ b.seqNo))) := by
  simp [drainLe]

theorem drainLe_trans (a b c : OutboxRow) (h₁ : drainLe a b) (h₂ : drainLe b c) :
    drainLe a c := by
  rw [drainLe_iff] at *
  rcases h₁ with h₁ | ⟨ht₁, h₁⟩
  · rcases h₂ with h₂ | ⟨ht₂, _⟩
    · exact .inl (by omega)
    · exact .inl (by omega)
  · rcases h₂ with h₂ | ⟨ht₂, h₂⟩
    · exact .inl (by omega)
    · refine .inr ⟨by omega, ?_⟩
      rcases h₁ with h₁ | ⟨hw₁, hs₁⟩
      · rcases h₂ with h₂ | ⟨hw₂, _⟩
        · exact .inl (String.lt_trans h₁ h₂)
        · exact .inl (hw₂ ▸ h₁)
      · rcases h₂ with h₂ | ⟨hw₂, hs₂⟩
        · exact .inl (hw₁ ▸ h₂)
        · exact .inr ⟨hw₁.trans hw₂, by omega⟩

theorem drainLe_total (a b : OutboxRow) : drainLe a b || drainLe b a := by
  rw [Bool.or_eq_true, drainLe_iff, drainLe_iff]
  by_cases hlt : a.enqueuedAtMillis < b.enqueuedAtMillis
  · exact .inl (.inl hlt)
  by_cases hgt : b.enqueuedAtMillis < a.enqueuedAtMillis
  · exact .inr (.inl hgt)
  have heq : a.enqueuedAtMillis = b.enqueuedAtMillis := by omega
  by_cases hw : a.workflowId < b.workflowId
  · exact .inl (.inr ⟨heq, .inl hw⟩)
  by_cases hw' : b.workflowId < a.workflowId
  · exact .inr (.inr ⟨heq.symm, .inl hw'⟩)
  have hsame : a.workflowId = b.workflowId :=
    String.le_antisymm (String.not_lt.mp hw') (String.not_lt.mp hw)
  by_cases hs : a.seqNo ≤ b.seqNo
  · exact .inl (.inr ⟨heq, .inr ⟨hsame, hs⟩⟩)
  · exact .inr (.inr ⟨heq.symm, .inr ⟨hsame.symm, by omega⟩⟩)

/-- The pending rows of one workflow. -/
def pendingOf (db : Db) (w : String) : List OutboxRow :=
  db.pendingRows.filter fun r => r.workflowId = w

theorem drain_filter (db : Db) (limit : Nat) (w : String) :
    ((db.outboxDrain limit).filter fun e => e.workflowId = w) =
      (((db.pendingRows.mergeSort drainLe).take limit).filter
        fun r => r.workflowId = w).map OutboxRow.entry := by
  unfold outboxDrain
  rw [List.filter_map]
  rfl

theorem pending_filter (db : Db) (w : String) :
    (db.pending.filter fun e => e.workflowId = w) = (db.pendingOf w).map OutboxRow.entry := by
  unfold pending pendingOf
  rw [List.filter_map]
  rfl

/-- In the table the pending rows of a workflow stand in the order of their
numbers. -/
theorem pendingOf_ascending (ss : List Sql) (w : String) :
    ((({} : Db).run ss).pendingOf w).Pairwise fun a b => a.seqNo < b.seqNo := by
  have hwin := (appended_window w ss).ascending
  rw [← entries_appended, List.filter_map, List.pairwise_map] at hwin
  unfold pendingOf pendingRows
  rw [List.filter_filter]
  have hsub : ((({} : Db).run ss).outbox.filter fun r =>
      decide (r.workflowId = w) && r.publishedAtMillis.isNone).Sublist
        ((({} : Db).run ss).outbox.filter fun r => decide (r.workflowId = w)) := by
    rw [← List.filter_filter]
    have hswap : ((({} : Db).run ss).outbox.filter fun r => r.publishedAtMillis.isNone).filter
        (fun r => decide (r.workflowId = w)) =
        ((({} : Db).run ss).outbox.filter fun r => decide (r.workflowId = w)).filter
          fun r => r.publishedAtMillis.isNone := by
      rw [List.filter_filter, List.filter_filter]
      apply List.filter_congr
      intro r _
      rw [Bool.and_comm]
    rw [hswap]
    exact List.filter_sublist
  exact hwin.sublist hsub

/-- A pending row is an unmarked append under its clock reading. -/
theorem mem_pendingRows (ss : List Sql) (r : OutboxRow)
    (hr : r ∈ (({} : Db).run ss).pendingRows) :
    (r.entry, r.enqueuedAtMillis) ∈ ({} : Db).stamps ss ∧ r.entry ∉ ({} : Db).marked ss := by
  unfold pendingRows at hr
  rw [List.mem_filter] at hr
  constructor
  · rw [← outbox_is_log]
    exact List.mem_map_of_mem hr.1
  · intro hmem
    have hsome := ((markedBy_run ss).shown r hr.1).mpr hmem
    rw [Option.isNone_iff_eq_none] at hr
    rw [hr.2] at hsome
    cases hsome

/-- An unmarked append has its pending row. -/
theorem pendingRow_of_stamp (ss : List Sql) {e : OutboxEntry} {t : Int}
    (he : (e, t) ∈ ({} : Db).stamps ss) (hm : e ∉ ({} : Db).marked ss) :
    ∃ r ∈ (({} : Db).run ss).pendingRows, r.entry = e ∧ r.enqueuedAtMillis = t := by
  rw [← outbox_is_log] at he
  obtain ⟨r, hr, heq⟩ := List.mem_map.mp he
  simp only [OutboxRow.stamp, Prod.mk.injEq] at heq
  refine ⟨r, ?_, heq⟩
  unfold pendingRows
  refine List.mem_filter.mpr ⟨hr, ?_⟩
  cases hp : r.publishedAtMillis with
  | none => rfl
  | some t' =>
      have hshown := ((markedBy_run ss).shown r hr).mp (by rw [hp]; rfl)
      exact absurd (heq.1 ▸ hshown) hm

/-- Under a steady clock the drain's order is the order of the numbers. -/
theorem drains_of_steady {ss : List Sql} (h : SteadyClock ss) :
    DrainsInOrder (({} : Db).run ss) := by
  intro limit _ w
  have hasc := pendingOf_ascending ss w
  have hrows : ∀ r ∈ (({} : Db).run ss).pendingOf w,
      r ∈ (({} : Db).run ss).pendingRows ∧ r.workflowId = w := by
    intro r hr
    unfold pendingOf at hr
    rw [List.mem_filter, decide_eq_true_eq] at hr
    exact hr
  have hord : ((({} : Db).run ss).pendingOf w).Pairwise fun a b => drainLe a b := by
    refine List.Pairwise.imp_of_mem ?_ hasc
    intro a b ha hb hab
    obtain ⟨ha, haw⟩ := hrows a ha
    obtain ⟨hb, hbw⟩ := hrows b hb
    have hsa := mem_pendingRows ss a ha
    have hsb := mem_pendingRows ss b hb
    have ht : a.enqueuedAtMillis ≤ b.enqueuedAtMillis :=
      h a.entry _ b.entry _ hsa.1 hsb.1 hsa.2 hsb.2 (haw.trans hbw.symm) hab
    rw [drainLe_iff]
    by_cases heq : a.enqueuedAtMillis = b.enqueuedAtMillis
    · exact .inr ⟨heq, .inr ⟨haw.trans hbw.symm, by omega⟩⟩
    · exact .inl (by omega)
  have hanti : ∀ a b, a ∈ (({} : Db).run ss).pendingOf w → b ∈ (({} : Db).run ss).pendingOf w →
      drainLe a b → drainLe b a → a = b := by
    intro a b ha hb hab hba
    rw [drainLe_iff] at hab hba
    have hlt := String.lt_irrefl w
    have haw := (hrows a ha).2
    have hbw := (hrows b hb).2
    rw [haw, hbw] at hab hba
    rcases pairwise_mem hasc ha hb with heq | hlt' | hgt'
    · exact heq
    · simp only [hlt, false_or, true_and] at hab hba
      omega
    · simp only [hlt, false_or, true_and] at hab hba
      omega
  have hprefix := drain_prefix drainLe_trans drainLe_total (p := fun r => r.workflowId = w)
    limit hord hanti
  rw [drain_filter, pending_filter]
  refine ⟨?_, hprefix.map _⟩
  rw [List.pairwise_map]
  exact hasc.sublist hprefix.sublist

/-- If even the unlimited drain keeps the order, the clock was steady. -/
theorem steady_of_drains {ss : List Sql}
    (hcount : (({} : Db).run ss).pending.length < 4294967296)
    (h : DrainsInOrder (({} : Db).run ss)) : SteadyClock ss := by
  intro e t e' t' he he' hm hm' hw hseq
  obtain ⟨r, hr, hre, hrt⟩ := pendingRow_of_stamp ss he hm
  obtain ⟨r', hr', hre', hrt'⟩ := pendingRow_of_stamp ss he' hm'
  have hwr : r.workflowId = e.workflowId := congrArg OutboxEntry.workflowId hre
  have hwr' : r'.workflowId = e.workflowId := (congrArg OutboxEntry.workflowId hre').trans hw.symm
  have hsr : r.seqNo = e.seqNo := congrArg OutboxEntry.seqNo hre
  have hsr' : r'.seqNo = e'.seqNo := congrArg OutboxEntry.seqNo hre'
  -- the whole queue, sorted
  have hasc := (h _ hcount e.workflowId).1
  have hall : (({} : Db).run ss).pendingRows.mergeSort drainLe =
      ((({} : Db).run ss).pendingRows.mergeSort drainLe).take (({} : Db).run ss).pending.length := by
    rw [List.take_of_length_le]
    unfold pending
    have hlength : (({} : Db).run ss).pendingRows.length = _ :=
      (List.length_map OutboxRow.entry).symm
    rw [List.length_mergeSort]
    exact Nat.le_of_eq hlength
  rw [drain_filter, ← hall, List.pairwise_map] at hasc
  have hsorted := (List.pairwise_mergeSort drainLe_trans drainLe_total
    (({} : Db).run ss).pendingRows).filter fun r => decide (r.workflowId = e.workflowId)
  have hmem : r ∈ ((({} : Db).run ss).pendingRows.mergeSort drainLe).filter
      fun r => decide (r.workflowId = e.workflowId) :=
    List.mem_filter.mpr ⟨List.mem_mergeSort.mpr hr, by simpa using hwr⟩
  have hmem' : r' ∈ ((({} : Db).run ss).pendingRows.mergeSort drainLe).filter
      fun r => decide (r.workflowId = e.workflowId) :=
    List.mem_filter.mpr ⟨List.mem_mergeSort.mpr hr', by simpa using hwr'⟩
  have hbefore : drainLe r r' := by
    rcases pairwise_mem (hasc.and hsorted) hmem hmem' with heq | hlt | hgt
    · rw [heq] at hsr
      omega
    · exact hlt.2
    · have hgt' : r'.seqNo < r.seqNo := hgt.1
      omega
  rw [drainLe_iff] at hbefore
  omega

end Db

/-- **Drains and the clock.**  After any statements on an empty file, drains
follow the sequence numbers of every workflow exactly when of any two of its
appends that still wait the later one read no earlier time.  (The converse
needs a limit that covers the queue, and limits have 32 bits.) -/
theorem drains_in_order_iff (ss : List Sql) :
    (SteadyClock ss → DrainsInOrder (({} : Db).run ss)) ∧
      ((({} : Db).run ss).pending.length < 4294967296 →
        DrainsInOrder (({} : Db).run ss) → SteadyClock ss) :=
  ⟨Db.drains_of_steady, Db.steady_of_drains⟩

/-- Two appends to one workflow, the second under an earlier reading. -/
def backStep : List Sql :=
  [.insertWorkflow ⟨"wf-1", 4, 1, "build", none, 10, 10⟩,
    .appendEvent ⟨"wf-1", "ev-1", none, 10, .commandStarted, "started", none⟩ 2000 2000,
    .appendEvent ⟨"wf-1", "ev-2", none, 11, .commandCompleted, "completed", none⟩ 1000 1000]

/-- A clock that steps back turns the order of a drain around. -/
theorem drain_follows_the_clock : ¬∀ ss, DrainsInOrder (({} : Db).run ss) := by
  intro h
  have hcount : (({} : Db).run backStep).pending.length < 4294967296 := by decide
  have hsteady := Db.steady_of_drains hcount (h backStep)
  have hstamps : (⟨"wf-1", 1⟩, 2000) ∈ ({} : Db).stamps backStep ∧
      (⟨"wf-1", 2⟩, 1000) ∈ ({} : Db).stamps backStep ∧ ({} : Db).marked backStep = [] := by
    decide
  obtain ⟨h₁, h₂, hnone⟩ := hstamps
  have hle := hsteady _ _ _ _ h₁ h₂ (by rw [hnone]; exact List.not_mem_nil)
    (by rw [hnone]; exact List.not_mem_nil) rfl (by decide)
  omega

end Calcar.Agent
