import Calcar.Agent.Catalog
import Calcar.Verified.Ring

/-!
# Replay and snapshots

Three readers share one window: `events_after` reads it in pages, the
truncation row says where it begins, and the snapshot shows its end.  Each
is brought back to the list of retained events.

## Main results

* `eventsAfter_page` — `events_after` is a page of the retained events.
* `replay_complete` — pages, the gap, the snapshot, and what follows it.
-/

namespace Calcar.Agent

open Lib

namespace Db

/-- The retained events of a workflow, oldest first. -/
def retained (db : Db) (w : String) : List WorkflowEvent := (db.eventsOf w).map mapEvent

theorem run_append (db : Db) (ss later : List Sql) :
    db.run (ss ++ later) = (db.run ss).run later := by
  induction ss generalizing db with
  | nil => rfl
  | cons s ss ih => exact ih (s.step db).1

theorem given_append (w : String) (db : Db) (ss later : List Sql) :
    db.given w (ss ++ later) = db.given w ss ++ (db.run ss).given w later := by
  induction ss generalizing db with
  | nil => rfl
  | cons s ss ih =>
      simp only [List.cons_append, given, run]
      rw [ih, List.append_assoc]

namespace RingOf

variable {db : Db} {w : String} {n : Nat}

theorem retained_window (h : db.RingOf w n) :
    Consecutive WorkflowEvent.seqNo (db.cut w) (db.retained w) :=
  (Consecutive.map mapEvent).mpr h.window

theorem retained_ends (h : db.RingOf w n) : db.cut w + (db.retained w).length = n := by
  unfold retained
  rw [List.length_map]
  exact h.ends

/-- `events_after` reads a page of the retained events. -/
theorem eventsAfter_page (h : db.RingOf w n) (k : Int) (limit : Nat) :
    db.eventsAfter w k limit = pageAfter WorkflowEvent.seqNo (db.retained w) k limit := by
  have hdrop := h.window.filter_gt k
  have hsorted : orderBySeq ((db.eventsOf w).filter fun r => k < r.seqNo) =
      (db.eventsOf w).filter fun r => k < r.seqNo := by
    rw [hdrop]
    by_cases hle : (k - db.cut w).toNat ≤ (db.eventsOf w).length
    · exact orderBySeq_of_ascending (h.window.drop hle)
    · rw [List.drop_eq_nil_of_le (by omega), orderBySeq, List.mergeSort_nil]
  unfold eventsAfter pageAfter retained
  rw [hsorted, List.filter_map, List.map_take]
  rfl

theorem pages_retained (h : db.RingOf w n) {k : Int} {ps : List (List WorkflowEvent)}
    (hps : Pages WorkflowEvent.seqNo (db.eventsAfter w) k ps) :
    ps.flatten = (db.retained w).filter fun e => k < e.seqNo := by
  have hread : db.eventsAfter w = pageAfter WorkflowEvent.seqNo (db.retained w) := by
    funext k limit
    exact h.eventsAfter_page k limit
  rw [hread] at hps
  exact pages_flatten h.retained_window hps

theorem pages_read (h : db.RingOf w n) (k : Int) {limit : Nat} (hlimit : 0 < limit) :
    ∃ ps, Pages WorkflowEvent.seqNo (db.eventsAfter w) k ps := by
  have hread : db.eventsAfter w = pageAfter WorkflowEvent.seqNo (db.retained w) := by
    funext k limit
    exact h.eventsAfter_page k limit
  rw [hread]
  exact pages_exist h.retained_window hlimit k

/-- An appended number after `k` is missing exactly when `k` lies before the
cut the ring reports. -/
theorem gap_iff (h : db.RingOf w n) (k : Int) :
    (∃ s : Int, 1 ≤ s ∧ s ≤ n ∧ k < s ∧
        ∀ e ∈ (db.retained w).filter (fun e => k < e.seqNo), e.seqNo ≠ s) ↔
      ∃ t, (db.ringStats w).truncatedBeforeSeq = some t ∧ k < t := by
  have hends := h.retained_ends
  have hwin := h.retained_window
  constructor
  · rintro ⟨s, hs₁, hsn, hks, hmissing⟩
    by_cases hcut : db.cut w < s
    · -- a retained number would have been returned
      obtain ⟨e, he, hes⟩ := hwin.exists_key (s := s) hcut (by omega)
      have hreturned : e ∈ (db.retained w).filter (fun e => k < e.seqNo) := by
        simp only [List.mem_filter, decide_eq_true_eq]
        exact ⟨he, by omega⟩
      exact absurd hes (hmissing e hreturned)
    · unfold cut at hcut
      cases hrow : db.truncationOf w with
      | none =>
          rw [hrow] at hcut
          simp only [Option.map_none, Option.getD_none] at hcut
          omega
      | some r =>
          rw [hrow] at hcut
          simp only [Option.map_some, Option.getD_some] at hcut
          refine ⟨r.truncatedBeforeSeq, ?_, by omega⟩
          simp only [ringStats, hrow, Option.map_some]
  · rintro ⟨t, ht, hkt⟩
    have hcut : db.cut w = t := by
      simp only [ringStats] at ht
      unfold cut
      rw [ht]
      rfl
    have hpos : 0 < db.cut w := by
      cases h.marked with
      | inl hnone =>
          simp only [ringStats, hnone, Option.map_none, reduceCtorEq] at ht
      | inr hpos => exact hpos
    refine ⟨t, by omega, by omega, hkt, ?_⟩
    intro e he hes
    have hmem := (List.mem_filter.mp he).1
    have := (hwin.bounds hmem).1
    omega

/-- The ring fits into the one read a snapshot makes. -/
theorem snapshot_reads (h : db.RingOf w n) :
    db.eventsAfter w 0 ringReadLimit = db.retained w := by
  have hcut := h.cut_nonneg
  rw [h.eventsAfter_page]
  unfold pageAfter
  have hall : (db.retained w).filter (fun e => 0 < e.seqNo) = db.retained w := by
    rw [List.filter_eq_self]
    intro e he
    have := (h.retained_window.bounds he).1
    exact decide_eq_true (by omega)
  rw [hall]
  apply List.take_of_length_le
  have hlimits := h.law.limits.1
  have hlen : (db.retained w).length = (db.eventsOf w).length := List.length_map ..
  simp only [ringStats, maxRingEvents] at hlimits
  unfold ringReadLimit
  omega

/-- The last number of the retained events is the number of appends. -/
theorem last_retained (h : db.RingOf w n) :
    (((db.retained w).getLast?).map WorkflowEvent.seqNo).getD 0 = n := by
  have hends := h.retained_ends
  cases hlast : (db.retained w).getLast? with
  | none =>
      have hempty := List.getLast?_eq_none_iff.mp hlast
      have hrows : db.eventsOf w = [] := by
        unfold retained at hempty
        exact List.map_eq_nil_iff.mp hempty
      have hn : ¬0 < n := fun hpos => h.newest hpos hrows
      simp only [Option.map_none, Option.getD_none]
      omega
  | some e =>
      have hkey := h.retained_window.last_key hlast
      simp only [Option.map_some, Option.getD_some]
      omega

end RingOf

end Db

/-- The newest entries of a list, at most `m`. -/
def newest {α : Type} (m : Nat) (l : List α) : List α := l.drop (l.length - m)

/-- The snapshot of a known workflow: its end, and how far it goes. -/
theorem snapshot_body {db : Db} {w : String} {n : Nat} (h : db.RingOf w n)
    (registry : Registry) (computerId : String) {row : WorkflowRow}
    (hrow : db.getWorkflow w = some row) :
    ∃ body, workflowSnapshotBody registry db computerId w = some body ∧
      body.field "last_seq_no" = some (.int n) ∧
      body.field "activity" =
        some (.arr ((newest activityCap (db.retained w)).map activityRow)) := by
  unfold workflowSnapshotBody
  rw [hrow]
  refine ⟨_, rfl, ?_, ?_⟩
  · have hlast := h.last_retained
    rw [← h.snapshot_reads] at hlast
    simp only [Value.field, List.find?_cons]
    simp [hlast]
  · have hreads := h.snapshot_reads
    simp only [Value.field, List.find?_cons]
    simp [hreads, newest]

/-- **Snapshot and replay.**  After any statements on an empty file: pages of
`events_after`, read from any number on, are put together the retained events
after it, ascending; an appended event after it is missing exactly when it
lies before `truncated_before_seq`; the snapshot shows the newest events and
ends at the newest number.  After any more statements, reading on from that
number returns every retained event appended since, exactly once. -/
theorem replay_complete (ss : List Sql) (w : String) :
    let db := ({} : Db).run ss
    let given := ({} : Db).given w ss
    (db.retained w).Pairwise (fun e e' => e.seqNo < e'.seqNo) ∧
    (∀ k limit, 0 < limit → ∃ ps, Pages WorkflowEvent.seqNo (db.eventsAfter w) k ps) ∧
    (∀ k ps, Pages WorkflowEvent.seqNo (db.eventsAfter w) k ps →
      ps.flatten = ((db.retained w).filter fun e => k < e.seqNo) ∧
      ((∃ s ∈ given, k < s ∧ ∀ e ∈ ps.flatten, e.seqNo ≠ s) ↔
        ∃ t, (db.ringStats w).truncatedBeforeSeq = some t ∧ k < t)) ∧
    (∀ registry computerId row, db.getWorkflow w = some row →
      ∃ body, workflowSnapshotBody registry db computerId w = some body ∧
        body.field "last_seq_no" = some (.int (given.getLast?.getD 0)) ∧
        body.field "activity" =
          some (.arr ((newest activityCap (db.retained w)).map activityRow))) ∧
    ∀ later ps,
      Pages WorkflowEvent.seqNo ((db.run later).eventsAfter w) (given.getLast?.getD 0) ps →
      (ps.flatten.map WorkflowEvent.seqNo).Nodup ∧
      ∀ e, e ∈ ps.flatten ↔ e ∈ (db.run later).retained w ∧ e.seqNo ∈ db.given w later := by
  intro db given
  obtain ⟨hring, hgiven⟩ : db.RingOf w given.length ∧
      Consecutive (fun seq => seq) 0 given := Db.ringOf_run ss w
  have hlast : given.getLast?.getD 0 = given.length := by
    cases hg : given.getLast? with
    | none =>
        rw [List.getLast?_eq_none_iff.mp hg]
        rfl
    | some s =>
        have hkey := hgiven.last_key hg
        simp only [Option.getD_some]
        omega
  have hmem : ∀ s : Int, s ∈ given ↔ 1 ≤ s ∧ s ≤ given.length := by
    intro s
    constructor
    · intro hs
      have := hgiven.bounds hs
      omega
    · rintro ⟨h₁, h₂⟩
      obtain ⟨s', hs', rfl⟩ := hgiven.exists_key (s := s) (by omega) (by omega)
      exact hs'
  refine ⟨hring.retained_window.ascending, fun k limit hlimit => hring.pages_read k hlimit,
    ?_, ?_, ?_⟩
  · intro k ps hps
    have hflat := hring.pages_retained hps
    refine ⟨hflat, ?_⟩
    rw [hflat, ← hring.gap_iff k]
    constructor
    · rintro ⟨s, hs, hks, hmissing⟩
      have hbounds := (hmem s).mp hs
      exact ⟨s, hbounds.1, hbounds.2, hks, hmissing⟩
    · rintro ⟨s, hs₁, hsn, hks, hmissing⟩
      exact ⟨s, (hmem s).mpr ⟨hs₁, hsn⟩, hks, hmissing⟩
  · intro registry computerId row hrow
    rw [hlast]
    exact snapshot_body hring registry computerId hrow
  · intro later ps hps
    obtain ⟨hring', hgiven'⟩ : (db.run later).RingOf w (given ++ db.given w later).length ∧
        Consecutive (fun seq => seq) 0 (given ++ db.given w later) := by
      have h := Db.ringOf_run (ss ++ later) w
      rwa [Db.run_append, Db.given_append] at h
    have hlater := (Consecutive.append.mp hgiven').2
    have hflat := hring'.pages_retained hps
    have hwin := hring'.retained_window
    have hends := hring'.retained_ends
    rw [List.length_append] at hends
    have hasc : ps.flatten.Pairwise fun e e' => e.seqNo < e'.seqNo := by
      rw [hflat]
      exact hwin.ascending.filter _
    constructor
    · unfold List.Nodup
      rw [List.pairwise_map]
      exact hasc.imp fun h => by omega
    · intro e
      rw [hflat, hlast, List.mem_filter, decide_eq_true_eq]
      constructor
      · rintro ⟨he, hgt⟩
        have hbounds := hwin.bounds he
        obtain ⟨s, hs, hes⟩ := hlater.exists_key (s := e.seqNo) (by omega) (by omega)
        exact ⟨he, hes ▸ hs⟩
      · rintro ⟨he, hs⟩
        have hbounds := hlater.bounds hs
        exact ⟨he, by omega⟩

end Calcar.Agent
