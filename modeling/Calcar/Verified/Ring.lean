import Calcar.Agent.Sqlite
import Calcar.Lib.Window

/-!
# The event ring

Every append numbers its event, and the trim in the same transaction drops
the shortest prefix after which both limits hold again.  `RingOf` says what
the tables look like after any statements: the retained rows are a window
onto the numbers given out so far, and the truncation row counts what is
missing.  Replay reads the window in pages; the snapshot is its tail.

## Main results

* `trimRing_window` — the walk of `trim_ring` is eviction.
* `ring_invariant` — the law of the ring, after any statements.
* `replay_complete` — pages, the gap, and a snapshot followed by replay.
-/

namespace Calcar.Agent

open Lib

/-! ## The limits -/

/-- Both limits hold, or only the newest row is left. -/
def Fits (rows : List EventRow) : Prop :=
  (rows.length : Int) ≤ maxRingEvents ∧
    ((bytesOf rows : Int) ≤ maxRingBytes ∨ rows.length = 1)

instance : DecidablePred Fits := fun _ => inferInstanceAs (Decidable (_ ∧ _))

theorem fits_single (r : EventRow) : Fits [r] := by
  refine ⟨?_, .inr rfl⟩
  simp [maxRingEvents]

@[simp] theorem bytesOf_cons (r : EventRow) (rows : List EventRow) :
    bytesOf (r :: rows) = r.approxBytes + bytesOf rows := rfl

/-- A row ahead of others is kept only when both limits hold. -/
theorem fits_cons_concat (r : EventRow) (rows : List EventRow) (new : EventRow) :
    Fits (r :: (rows ++ [new])) ↔
      ((r :: (rows ++ [new])).length : Int) ≤ maxRingEvents ∧
        (bytesOf (r :: (rows ++ [new])) : Int) ≤ maxRingBytes := by
  have hlen : (r :: (rows ++ [new])).length ≠ 1 := by
    simp
  unfold Fits
  simp only [hlen, or_false]

/-! ## The walk of `trim_ring` -/

/-- Started with what is over the limits, the walk stops at the last row
eviction drops.  Only the positive part of what is still needed matters. -/
theorem cutoffWalk_evicted {rows : List EventRow} {new : EventRow} {lo e b : Int}
    {c : Option Int} (hrows : Consecutive EventRow.seqNo lo rows)
    (he : max e 0 = max (((rows ++ [new]).length : Int) - maxRingEvents) 0)
    (hb : max b 0 = max ((bytesOf (rows ++ [new]) : Int) - maxRingBytes) 0) :
    Db.cutoffWalk rows e b c =
      if evicted Fits (rows ++ [new]) = 0 then c
      else some (lo + evicted Fits (rows ++ [new])) := by
  induction rows generalizing lo e b c with
  | nil =>
      have hfits : Fits ([] ++ [new]) := fits_single new
      simp only [Db.cutoffWalk, List.nil_append, evicted]
      rw [List.nil_append] at hfits
      simp [hfits]
  | cons r rows ih =>
      obtain ⟨hr, hrows⟩ := hrows
      rw [List.cons_append] at he hb ⊢
      have hlen : ((r :: (rows ++ [new])).length : Int) = (rows ++ [new]).length + 1 := by
        simp
      have hbytes : (bytesOf (r :: (rows ++ [new])) : Int) =
          r.approxBytes + bytesOf (rows ++ [new]) := by
        simp
      unfold Db.cutoffWalk
      by_cases hdone : e ≤ 0 ∧ b ≤ 0
      · have hfits : Fits (r :: (rows ++ [new])) := by
          rw [fits_cons_concat]
          omega
        simp [hdone, evicted, hfits]
      · have hnot : ¬Fits (r :: (rows ++ [new])) := by
          rw [fits_cons_concat]
          omega
        have hrest : Db.cutoffWalk rows (e - 1) (b - r.approxBytes) (some r.seqNo) =
            if evicted Fits (rows ++ [new]) = 0 then some r.seqNo
            else some (lo + 1 + evicted Fits (rows ++ [new])) :=
          ih hrows (by omega) (by omega)
        have hcount : evicted Fits (r :: (rows ++ [new])) = evicted Fits (rows ++ [new]) + 1 := by
          simp only [evicted, hnot, if_false]
        rw [if_neg hdone, hrest, hcount]
        by_cases hz : evicted Fits (rows ++ [new]) = 0
        · simp [hz, hr]
        · have hsum : lo + 1 + (evicted Fits (rows ++ [new]) : Int) =
              lo + ((evicted Fits (rows ++ [new]) + 1 : Nat) : Int) := by
            omega
          rw [if_neg hz, if_neg (Nat.succ_ne_zero _), hsum]

/-! ## The rows of one workflow -/

namespace Db

/-- How many events of a workflow the truncation row says are gone. -/
def cut (db : Db) (w : String) : Int :=
  ((db.truncationOf w).map TruncationRow.truncatedBeforeSeq).getD 0

/-- How many the same row has counted. -/
def dropped (db : Db) (w : String) : Int :=
  ((db.truncationOf w).map TruncationRow.droppedCount).getD 0

theorem eventsOf_filter_upTo (events : List EventRow) (w : String) (cutoff : Int) :
    (events.filter fun r => ¬upTo w cutoff r).filter (fun r => r.workflowId = w) =
      (events.filter fun r => r.workflowId = w).filter fun r => ¬r.seqNo ≤ cutoff := by
  rw [List.filter_filter, List.filter_filter]
  apply List.filter_congr
  intro r _
  by_cases hr : r.workflowId = w <;> simp [upTo, hr]

theorem eventsOf_filter_other (events : List EventRow) {w v : String} (hv : v ≠ w)
    (cutoff : Int) :
    (events.filter fun r => ¬upTo w cutoff r).filter (fun r => r.workflowId = v) =
      events.filter fun r => r.workflowId = v := by
  rw [List.filter_filter]
  apply List.filter_congr
  intro r _
  by_cases hr : r.workflowId = v
  · simp [upTo, hr, hv]
  · simp [hr]

theorem countP_upTo (events : List EventRow) (w : String) (cutoff : Int) :
    events.countP (upTo w cutoff) =
      (events.filter fun r => r.workflowId = w).countP fun r => r.seqNo ≤ cutoff := by
  rw [List.countP_filter]
  apply List.countP_congr
  intro r _
  simp [upTo, and_comm]

theorem find?_map_truncation (rows : List TruncationRow) (v w : String)
    (f : TruncationRow → TruncationRow) (hf : ∀ r, (f r).workflowId = r.workflowId) :
    (rows.map fun r => if r.workflowId = w then f r else r).find? (fun r => r.workflowId = v) =
      (rows.find? fun r => r.workflowId = v).map fun r => if v = w then f r else r := by
  rw [List.find?_map]
  have hkey : ((fun r : TruncationRow => decide (r.workflowId = v)) ∘
      fun r => if r.workflowId = w then f r else r) = fun r => decide (r.workflowId = v) := by
    funext r
    simp only [Function.comp_apply]
    split
    · rw [hf]
    · rfl
  rw [hkey]
  cases hfound : rows.find? fun r => r.workflowId = v with
  | none => rfl
  | some r =>
      have hr : r.workflowId = v := by
        simpa using List.find?_some hfound
      simp [hr]

/-- The upsert raises the cut and adds to the count. -/
theorem truncationOf_upsert (db : Db) (w v : String) (cutoff deleted now : Int) :
    (db.upsertTruncation w cutoff deleted now).truncationOf v =
      if v = w then
        match db.truncationOf w with
        | some r => some ⟨r.workflowId, max r.truncatedBeforeSeq cutoff,
            r.droppedCount + deleted, now⟩
        | none => some ⟨w, cutoff, deleted, now⟩
      else db.truncationOf v := by
  unfold upsertTruncation
  by_cases hsome : (db.truncationOf w).isSome
  · rw [if_pos hsome]
    simp only [truncationOf]
    rw [find?_map_truncation]
    · by_cases hv : v = w
      · subst hv
        obtain ⟨r, hr⟩ := Option.isSome_iff_exists.mp hsome
        unfold truncationOf at hr
        simp [hr]
      · simp [hv]
    · intro r
      rfl
  · rw [if_neg hsome]
    have hnone : db.truncationOf w = none := by
      simpa using hsome
    by_cases hv : v = w
    · subst hv
      unfold truncationOf at hnone ⊢
      simp [List.find?_append, hnone]
    · simp only [truncationOf, List.find?_append, hv, if_false]
      have hlast : ([⟨w, cutoff, deleted, now⟩] : List TruncationRow).find?
          (fun r => r.workflowId = v) = none := by
        simp [Ne.symm hv]
      rw [hlast, Option.or_none]

theorem orderBySeq_of_ascending {lo : Int} {rows : List EventRow}
    (h : Consecutive EventRow.seqNo lo rows) : orderBySeq rows = rows := by
  unfold orderBySeq
  apply List.mergeSort_of_pairwise
  apply h.ascending.imp
  intro a b hab
  simp only [decide_eq_true_eq]
  omega

/-- **The trim** of a ring whose rows are a window: eviction, with the
truncation row to match. -/
theorem trimRing_window {db : Db} {w : String} {rows : List EventRow} {new : EventRow}
    {lo : Int} (hrows : db.eventsOf w = rows ++ [new])
    (hwin : Consecutive EventRow.seqNo lo (rows ++ [new])) (now : Int) :
    ∃ db', db.trimRing w now = .ok db' ∧
      db'.eventsOf w = evict Fits (rows ++ [new]) ∧
      (∀ v, v ≠ w → db'.eventsOf v = db.eventsOf v ∧ db'.truncationOf v = db.truncationOf v) ∧
      db'.truncationOf w =
        (if evicted Fits (rows ++ [new]) = 0 then db.truncationOf w
        else (db.upsertTruncation w (lo + evicted Fits (rows ++ [new]))
          (evicted Fits (rows ++ [new])) now).truncationOf w) ∧
      db'.workflows = db.workflows ∧ db'.outbox = db.outbox ∧ db'.requests = db.requests := by
  have hlt := evicted_lt Fits fits_single (l := rows ++ [new]) (by simp)
  have hold : Consecutive EventRow.seqNo lo rows := (Consecutive.append.mp hwin).1
  -- the walk, started with the excess
  have hwalk : cutoffWalk rows (max (((rows ++ [new]).length : Int) - maxRingEvents) 0)
      (max ((bytesOf (rows ++ [new]) : Int) - maxRingBytes) 0) none =
        if evicted Fits (rows ++ [new]) = 0 then none
        else some (lo + evicted Fits (rows ++ [new])) :=
    cutoffWalk_evicted hold (by omega) (by omega)
  unfold trimRing
  simp only [hrows]
  by_cases hz : max (((rows ++ [new]).length : Int) - maxRingEvents) 0 = 0 ∧
      max ((bytesOf (rows ++ [new]) : Int) - maxRingBytes) 0 = 0
  · -- within the limits already
    have hfits : Fits (rows ++ [new]) := ⟨by omega, .inl (by omega)⟩
    have hnone : evicted Fits (rows ++ [new]) = 0 := by
      cases hl : rows ++ [new] with
      | nil => rfl
      | cons a l =>
          rw [hl] at hfits
          simp [evicted, hfits]
    refine ⟨db, by rw [if_pos hz], ?_, fun v _ => ⟨rfl, rfl⟩, by rw [if_pos hnone], rfl, rfl, rfl⟩
    rw [evict_eq_drop, hnone, hrows]
    rfl
  · rw [if_neg hz, hwin.max?_keys (by simp)]
    have hnew : lo + ((rows ++ [new]).length : Int) = new.seqNo := by
      have hlast := hwin.last_key (a := new) (by simp)
      omega
    have holder : orderBySeq ((rows ++ [new]).filter fun r => r.seqNo < new.seqNo) = rows := by
      rw [hwin.filter_lt_last]
      exact orderBySeq_of_ascending hold
    simp only [hnew, holder, hwalk]
    by_cases hk : evicted Fits (rows ++ [new]) = 0
    · simp only [hk, if_true]
      refine ⟨db, rfl, ?_, fun v _ => ⟨rfl, rfl⟩, rfl, rfl, rfl, rfl⟩
      rw [evict_eq_drop, hk, hrows]
      rfl
    · simp only [hk, if_false]
      have hrows' : (db.events.filter fun r => r.workflowId = w) = rows ++ [new] := hrows
      have hcount : db.events.countP (upTo w (lo + evicted Fits (rows ++ [new]))) =
          evicted Fits (rows ++ [new]) := by
        rw [countP_upTo, hrows']
        exact hwin.countP_le (by omega)
      rw [hcount]
      refine ⟨_, rfl, ?_, ?_, ?_, ?_, ?_, ?_⟩
      · have hev : ∀ (d : Db) (c n t : Int), (d.upsertTruncation w c n t).eventsOf w =
            d.eventsOf w := by
          intro d c n t
          unfold upsertTruncation
          split <;> rfl
        rw [hev]
        unfold eventsOf
        rw [eventsOf_filter_upTo, hrows', hwin.filter_le, evict_eq_drop]
      · intro v hv
        constructor
        · unfold upsertTruncation
          split
          · exact eventsOf_filter_other _ hv _
          · exact eventsOf_filter_other _ hv _
        · rw [truncationOf_upsert, if_neg hv]
          rfl
      · rw [truncationOf_upsert, truncationOf_upsert]
        rfl
      · unfold upsertTruncation
        split <;> rfl
      · unfold upsertTruncation
        split <;> rfl
      · unfold upsertTruncation
        split <;> rfl

/-- The tables after `n` appends to a workflow. -/
structure RingOf (db : Db) (w : String) (n : Nat) : Prop where
  window : Consecutive EventRow.seqNo (db.cut w) (db.eventsOf w)
  ends : db.cut w + (db.eventsOf w).length = n
  fits : db.eventsOf w ≠ [] → Fits (db.eventsOf w)
  newest : 0 < n → db.eventsOf w ≠ []
  counted : db.dropped w = db.cut w
  marked : db.truncationOf w = none ∨ 0 < db.cut w
  enqueued : ∀ r ∈ db.outbox, r.workflowId = w → r.seqNo ≤ n

namespace RingOf

variable {db : Db} {w : String} {n : Nat}

theorem cut_nonneg (h : db.RingOf w n) : 0 ≤ db.cut w := by
  cases h.marked with
  | inl hnone => simp [cut, hnone]
  | inr hpos => omega

/-- The next number is the number of appends so far, plus one. -/
theorem nextSeq_eq (h : db.RingOf w n) : db.nextSeq w = n + 1 := by
  unfold nextSeq
  have hends := h.ends
  by_cases hempty : db.eventsOf w = []
  · have hn : ¬0 < n := fun hpos => h.newest hpos hempty
    have hz : (n : Int) = 0 := by omega
    rw [hempty, hz]
    rfl
  · rw [h.window.max?_keys hempty, Option.getD_some, hends]

/-- A statement that leaves the three tables alone keeps the ring. -/
theorem congr {db' : Db} (h : db.RingOf w n) (hev : db'.eventsOf w = db.eventsOf w)
    (htr : db'.truncationOf w = db.truncationOf w)
    (hout : ∀ r ∈ db'.outbox, r.workflowId = w → ∃ r' ∈ db.outbox, r'.entry = r.entry) :
    db'.RingOf w n := by
  have hcut : db'.cut w = db.cut w := by
    unfold cut
    rw [htr]
  have hdropped : db'.dropped w = db.dropped w := by
    unfold dropped
    rw [htr]
  refine ⟨?_, ?_, ?_, ?_, ?_, ?_, ?_⟩
  · rw [hcut, hev]
    exact h.window
  · rw [hcut, hev]
    exact h.ends
  · rw [hev]
    exact h.fits
  · rw [hev]
    exact h.newest
  · rw [hdropped, hcut]
    exact h.counted
  · rw [htr, hcut]
    exact h.marked
  · intro r hr hw
    obtain ⟨r', hr', hentry⟩ := hout r hr hw
    have hfields := hentry
    simp only [OutboxRow.entry, OutboxEntry.mk.injEq] at hfields
    have := h.enqueued r' hr' (by rw [hfields.1, hw])
    omega

end RingOf

/-- What an append does to its workflow's ring: the new row gets the next
number, and the shortest prefix goes after which the limits hold. -/
structure Appended (db db' : Db) (d : EventDraft) (now : Int) (n : Nat) : Prop where
  rows : db'.eventsOf d.workflowId =
    evict Fits (db.eventsOf d.workflowId ++ [eventRow d (n + 1)])
  enqueued : db'.outbox = db.outbox ++ [⟨d.workflowId, n + 1, now, none⟩]
  others : ∀ v, v ≠ d.workflowId →
    db'.eventsOf v = db.eventsOf v ∧ db'.truncationOf v = db.truncationOf v
  workflows : db'.workflows = db.workflows
  requests : db'.requests = db.requests

/-- The cut and the count after a trim that dropped `k` rows. -/
theorem RingOf.cut_after {db db₁ db' : Db} {w : String} {n k : Nat} {now : Int}
    (h : db.RingOf w n) (hold : db₁.truncationOf w = db.truncationOf w)
    (htr : db'.truncationOf w = if k = 0 then db₁.truncationOf w
      else (db₁.upsertTruncation w (db.cut w + k) k now).truncationOf w) :
    db'.cut w = db.cut w + k ∧ db'.dropped w = db.cut w + k ∧
      (db'.truncationOf w = none ∨ 0 < db'.cut w) := by
  have hnonneg := h.cut_nonneg
  have hcounted := h.counted
  have hmarked := h.marked
  unfold cut dropped at *
  rw [truncationOf_upsert, if_pos rfl, hold] at htr
  by_cases hz : k = 0
  · rw [if_pos hz] at htr
    rw [htr, hz]
    exact ⟨by omega, by omega, hmarked⟩
  · rw [if_neg hz] at htr
    cases hrow : db.truncationOf w with
    | none =>
        rw [hrow] at htr
        rw [htr]
        simp only [Option.map_some, Option.getD_some, Option.map_none, Option.getD_none]
        exact ⟨trivial, by omega, .inr (by omega)⟩
    | some r =>
        rw [hrow] at htr hcounted hnonneg
        rw [htr]
        simp only [Option.map_some, Option.getD_some] at hcounted hnonneg ⊢
        exact ⟨by omega, by omega, .inr (by omega)⟩

/-- **Append**: on a known workflow it succeeds with the next number. -/
theorem appendTx_ring {db : Db} {d : EventDraft} {n : Nat} (h : db.RingOf d.workflowId n)
    (hknown : (db.getWorkflow d.workflowId).isSome) (now trimNow : Int) :
    ∃ db', db.appendTx d now trimNow = .ok (db', n + 1) ∧ Appended db db' d now n ∧
      db'.RingOf d.workflowId (n + 1) := by
  let new := eventRow d (n + 1)
  have hends := h.ends
  have hwin : Consecutive EventRow.seqNo (db.cut d.workflowId) (db.eventsOf d.workflowId ++ [new]) := by
    apply h.window.concat
    rw [hends]
    rfl
  -- neither key is taken
  have hfreshEvent : (db.events.any fun r => r.workflowId = d.workflowId ∧ r.seqNo = (n : Int) + 1) =
      false := by
    rw [List.any_eq_false]
    intro r hr hkey
    simp only [decide_eq_true_eq] at hkey
    have hmem : r ∈ db.eventsOf d.workflowId := by
      unfold eventsOf
      simp [hr, hkey.1]
    have := (h.window.bounds hmem).2
    omega
  have hfreshOutbox : (db.outbox.any fun r => r.entry = ⟨d.workflowId, (n : Int) + 1⟩) = false := by
    rw [List.any_eq_false]
    intro r hr hkey
    simp only [decide_eq_true_eq, OutboxRow.entry, OutboxEntry.mk.injEq] at hkey
    have := h.enqueued r hr hkey.1
    omega
  let db₁ : Db := { db with
    events := db.events ++ [new]
    outbox := db.outbox ++ [⟨d.workflowId, n + 1, now, none⟩] }
  have hrows : db₁.eventsOf d.workflowId = db.eventsOf d.workflowId ++ [new] := by
    have hw : new.workflowId = d.workflowId := rfl
    simp [db₁, eventsOf, hw]
  obtain ⟨db', htrim, hev, hothers, htr, hwf, hout, hreq⟩ := trimRing_window hrows hwin trimNow
  have hothers' : ∀ v, v ≠ d.workflowId → db'.eventsOf v = db.eventsOf v ∧
      db'.truncationOf v = db.truncationOf v := by
    intro v hv
    refine ⟨?_, (hothers v hv).2⟩
    rw [(hothers v hv).1]
    have hw : new.workflowId ≠ v := fun heq => hv heq.symm
    simp [db₁, eventsOf, hw]
  refine ⟨db', ?_, ⟨hev, hout, hothers', hwf, hreq⟩, ?_⟩
  · unfold appendTx
    simp only [h.nextSeq_eq]
    rw [if_neg (by simpa using Option.isSome_iff_ne_none.mp hknown), hfreshEvent,
      hfreshOutbox]
    have htrim' : trimRing db₁ d.workflowId trimNow = .ok db' := htrim
    simp only [Bool.false_eq_true, if_false]
    rw [htrim']
  · -- the cut moves by what was evicted
    have hk := evicted_lt Fits fits_single (l := db.eventsOf d.workflowId ++ [new]) (by simp)
    have hlen : (db.eventsOf d.workflowId ++ [new]).length =
        (db.eventsOf d.workflowId).length + 1 := by
      simp
    have hsame : db₁.truncationOf d.workflowId = db.truncationOf d.workflowId := rfl
    obtain ⟨hcut, hdropped, hmarked⟩ := h.cut_after hsame htr
    have hne := (evict_fits Fits fits_single (l := db.eventsOf d.workflowId ++ [new]) (by simp))
    refine ⟨?_, ?_, ?_, ?_, ?_, hmarked, ?_⟩
    · rw [hcut, hev, evict_eq_drop]
      exact hwin.drop (by omega)
    · rw [hcut, hev, evict_eq_drop, List.length_drop]
      omega
    · rw [hev]
      exact fun _ => hne.2
    · rw [hev]
      exact fun _ => hne.1
    · rw [hdropped, hcut]
    · rw [hout]
      intro r hr hw
      simp only [db₁, List.mem_append, List.mem_singleton] at hr
      cases hr with
      | inl hr =>
          have := h.enqueued r hr hw
          omega
      | inr hr =>
          subst hr
          simp

/-! ## Any statements -/

/-- An append fails on an unknown workflow. -/
theorem appendTx_unknown {db : Db} {d : EventDraft} (hknown : (db.getWorkflow d.workflowId).isNone)
    (now trimNow : Int) : db.appendTx d now trimNow = .error .sqlite := by
  unfold appendTx
  simp only [hknown, if_true]

/-- The outbox rows keep their keys and clock readings when one is marked. -/
theorem updatePublished_stamps (db : Db) (e : OutboxEntry) (now : Int) :
    (db.updatePublished e now).1.outbox.map OutboxRow.stamp = db.outbox.map OutboxRow.stamp := by
  simp only [updatePublished, List.map_map]
  apply List.map_congr_left
  intro r _
  simp only [Function.comp_apply]
  split <;> rfl

/-- The three tables of the log are the same. -/
def SameLog (db db' : Db) : Prop :=
  db'.events = db.events ∧ db'.truncations = db.truncations ∧ db'.outbox = db.outbox

theorem SameLog.rfl {db : Db} : SameLog db db := ⟨Eq.refl _, Eq.refl _, Eq.refl _⟩

theorem wrote_same {db : Db} {x : Except StorageError Db}
    (h : ∀ db', x = .ok db' → SameLog db db') : SameLog db (Sql.wrote db x).1 := by
  cases x with
  | ok db' => exact h db' (Eq.refl _)
  | error e => exact SameLog.rfl

/-- **What a statement does to the log**: it appends, it marks, or it leaves
the three tables alone. -/
theorem step_cases (s : Sql) (db : Db) :
    (∃ d now trimNow, s = .appendEvent d now trimNow) ∨
      (∃ e now, s = .updatePublished e now) ∨
      (SameLog db (s.step db).1 ∧ (∀ w, s.gave w db = []) ∧ s.stamps db = [] ∧
        s.marks db = []) := by
  cases s with
  | appendEvent d now trimNow => exact .inl ⟨d, now, trimNow, Eq.refl _⟩
  | updatePublished e now => exact .inr (.inl ⟨e, now, Eq.refl _⟩)
  | insertWorkflow row =>
      refine .inr (.inr ⟨?_, fun _ => Eq.refl _, Eq.refl _, Eq.refl _⟩)
      apply wrote_same
      intro db' h
      unfold insertWorkflow at h
      split at h
      · cases h
      · split at h
        · cases h
        · cases h
          exact SameLog.rfl
  | updateWorkflowState w state now =>
      refine .inr (.inr ⟨?_, fun _ => Eq.refl _, Eq.refl _, Eq.refl _⟩)
      apply wrote_same
      intro db' h
      unfold updateWorkflowState at h
      split at h
      · cases h
      · cases h
        exact SameLog.rfl
  | upsertBinding row =>
      refine .inr (.inr ⟨?_, fun _ => Eq.refl _, Eq.refl _, Eq.refl _⟩)
      apply wrote_same
      intro db' h
      unfold upsertBinding at h
      split at h
      · cases h
      · split at h
        · cases h
          exact SameLog.rfl
        · cases h
          exact SameLog.rfl
  | insertRequest id w kind expiresAt now =>
      refine .inr (.inr ⟨?_, fun _ => Eq.refl _, Eq.refl _, Eq.refl _⟩)
      apply wrote_same
      intro db' h
      unfold insertRequest at h
      split at h
      · cases h
      · split at h
        · cases h
        · cases h
          exact SameLog.rfl
  | _ => exact .inr (.inr ⟨SameLog.rfl, fun _ => Eq.refl _, Eq.refl _, Eq.refl _⟩)

/-- A log written by no append keeps the ring. -/
theorem RingOf.same {db db' : Db} {w : String} {n : Nat} (h : db.RingOf w n)
    (hs : SameLog db db') : db'.RingOf w n := by
  apply h.congr
  · unfold eventsOf
    rw [hs.1]
  · unfold truncationOf
    rw [hs.2.1]
  · intro r hr _
    rw [hs.2.2] at hr
    exact ⟨r, hr, Eq.refl _⟩

theorem RingOf.marked_published {db : Db} {w : String} {n : Nat} (h : db.RingOf w n)
    (e : OutboxEntry) (now : Int) : (db.updatePublished e now).1.RingOf w n := by
  refine h.congr (Eq.refl _) (Eq.refl _) ?_
  intro r hr _
  have hstamp : r.stamp ∈ db.outbox.map OutboxRow.stamp := by
    rw [← updatePublished_stamps db e now]
    exact List.mem_map_of_mem hr
  obtain ⟨r', hr', heq⟩ := List.mem_map.mp hstamp
  exact ⟨r', hr', congrArg Prod.fst heq⟩

/-- One statement: the appends counted so far and the number it gave. -/
theorem RingOf.step {db : Db} {n : String → Nat} (h : ∀ w, db.RingOf w (n w)) (s : Sql)
    (w : String) :
    (s.step db).1.RingOf w (n w + (s.gave w db).length) ∧
      Consecutive (fun seq => seq) (n w) (s.gave w db) := by
  obtain ⟨d, now, trimNow, rfl⟩ | ⟨e, now, rfl⟩ | ⟨hsame, hgave, _, _⟩ := step_cases s db
  · cases hknown : (db.getWorkflow d.workflowId).isSome with
    | false =>
        have herr := appendTx_unknown (d := d) (by simpa using hknown) now trimNow
        simp only [Sql.step, Sql.gave, herr]
        exact ⟨h w, trivial⟩
    | true =>
        obtain ⟨db', hok, happ, hring⟩ := appendTx_ring (h d.workflowId) hknown now trimNow
        simp only [Sql.step, Sql.gave, hok]
        by_cases hw : d.workflowId = w
        · subst hw
          rw [if_pos (Eq.refl _)]
          exact ⟨hring, Eq.refl _, trivial⟩
        · rw [if_neg hw]
          have hother := happ.others w (Ne.symm hw)
          have hout := happ.enqueued
          refine ⟨(h w).congr hother.1 hother.2 ?_, trivial⟩
          intro r hr hrw
          rw [hout, List.mem_append, List.mem_singleton] at hr
          cases hr with
          | inl hr => exact ⟨r, hr, Eq.refl _⟩
          | inr hr =>
              subst hr
              exact absurd hrw hw
  · exact ⟨(h w).marked_published e now, trivial⟩
  · rw [hgave]
    exact ⟨(h w).same hsame, trivial⟩

/-- Any statements: the numbers given out go on from where they were. -/
theorem RingOf.run {db : Db} {n : String → Nat} (h : ∀ w, db.RingOf w (n w)) (ss : List Sql)
    (w : String) :
    (db.run ss).RingOf w (n w + (db.given w ss).length) ∧
      Consecutive (fun seq => seq) (n w) (db.given w ss) := by
  induction ss generalizing db n with
  | nil => exact ⟨h w, trivial⟩
  | cons s ss ih =>
      have hstep := fun v => (RingOf.step h s v).1
      obtain ⟨hring, hgiven⟩ := ih hstep
      have hlen : (s.gave w db ++ given w (s.step db).1 ss).length =
          (s.gave w db).length + (given w (s.step db).1 ss).length := List.length_append
      simp only [Db.run, given]
      rw [hlen, ← Nat.add_assoc]
      refine ⟨hring, Consecutive.append.mpr ⟨(RingOf.step h s w).2, ?_⟩⟩
      have hcast : ((n w + (s.gave w db).length : Nat) : Int) =
          n w + (s.gave w db).length := Int.natCast_add _ _
      rw [← hcast]
      exact hgiven

theorem ringOf_empty (w : String) : ({} : Db).RingOf w 0 where
  window := trivial
  ends := rfl
  fits := fun h => absurd (Eq.refl _) h
  newest := fun h => absurd h (Nat.lt_irrefl 0)
  counted := rfl
  marked := .inl rfl
  enqueued := fun _ hr => by cases hr

/-- The ring after any statements on an empty file. -/
theorem ringOf_run (ss : List Sql) (w : String) :
    (({} : Db).run ss).RingOf w (({} : Db).given w ss).length ∧
      Consecutive (fun seq => seq) 0 (({} : Db).given w ss) := by
  have h := RingOf.run (n := fun _ => 0) ringOf_empty ss w
  rw [Nat.zero_add] at h
  exact h

end Db

/-! ## The law of the ring -/

/-- The numbers `lo + 1` to `hi`. -/
def numbers (lo hi : Nat) : List Int :=
  (List.range (hi - lo)).map fun (i : Nat) => (lo : Int) + 1 + i

/-- The shortest prefix is gone after which the limits hold, and never the
last row. -/
def ShortestEviction (rows kept : List EventRow) : Prop :=
  ∃ k, k < rows.length ∧ kept = rows.drop k ∧ Fits kept ∧ ∀ j, j < k → ¬Fits (rows.drop j)

theorem evict_shortestEviction {rows : List EventRow} (hrows : rows ≠ []) :
    ShortestEviction rows (evict Fits rows) :=
  ⟨evicted Fits rows, evicted_lt Fits fits_single hrows, evict_eq_drop Fits rows,
    (evict_fits Fits fits_single hrows).2, fun _ hj => evict_shortest Fits rows hj⟩

/-- One workflow's ring after `n` appends to it, `cut` of them evicted. -/
structure RingLaw (db : Db) (w : String) (n cut : Nat) : Prop where
  limits : ((db.ringStats w).count : Int) ≤ maxRingEvents ∧
    (((db.ringStats w).approxBytes : Int) ≤ maxRingBytes ∨ (db.ringStats w).count = 1)
  evicts : cut ≤ n
  retained : (db.eventsOf w).map EventRow.seqNo = numbers cut n
  dropped : (db.ringStats w).droppedCount = cut
  truncated : (db.ringStats w).truncatedBeforeSeq = if cut = 0 then none else some (cut : Int)
  newest : 0 < n → (db.ringStats w).newestSeq = some (n : Int)

/-- The law at the cut the truncation row names. -/
theorem Db.RingOf.law {db : Db} {w : String} {n : Nat} (h : db.RingOf w n) :
    RingLaw db w n (db.cut w).toNat := by
  have hcut := h.cut_nonneg
  have hends := h.ends
  have hcast : ((db.cut w).toNat : Int) = db.cut w := by
    omega
  have hlimits : ((db.eventsOf w).length : Int) ≤ maxRingEvents ∧
      ((bytesOf (db.eventsOf w) : Int) ≤ maxRingBytes ∨ (db.eventsOf w).length = 1) := by
    by_cases hempty : db.eventsOf w = []
    · rw [hempty]
      decide
    · exact h.fits hempty
  refine ⟨hlimits, by omega, ?_, ?_, ?_, ?_⟩
  · have hlen : n - (db.cut w).toNat = (db.eventsOf w).length := by
      omega
    unfold numbers
    rw [h.window.keys, hlen, hcast]
  · rw [hcast]
    exact h.counted
  · have hmarked := h.marked
    unfold Db.cut at *
    simp only [Db.ringStats]
    cases hrow : db.truncationOf w with
    | none => simp
    | some r =>
        rw [hrow] at hmarked hcut
        simp only [Option.map_some, Option.getD_some, reduceCtorEq, false_or] at hmarked hcut ⊢
        rw [if_neg (by omega)]
        congr 1
        omega
  · intro hn
    simp only [Db.ringStats]
    rw [h.window.max?_keys (h.newest hn), hends]

/-- **The event ring.**  After any statements on an empty file, whatever was
appended to whichever workflows: the retained numbers of a workflow are
`cut + 1` to `n`, `n` being the appends to it so far, which were given the
numbers `1` to `n`; both limits hold or one row is left; both counters of the
truncation row are `cut`.  The next append, on a known workflow, gets the
number `n + 1` and evicts the shortest prefix that restores the limits; on an
unknown one it changes nothing. -/
theorem ring_invariant (ss : List Sql) (w : String) :
    let db := ({} : Db).run ss
    let n := (({} : Db).given w ss).length
    (∃ cut, RingLaw db w n cut) ∧ ({} : Db).given w ss = numbers 0 n ∧
      ∀ d now trimNow, d.workflowId = w →
        ((db.getWorkflow w).isSome →
          ∃ db', db.appendTx d now trimNow = .ok (db', n + 1) ∧
            ShortestEviction (db.eventsOf w ++ [Db.eventRow d (n + 1)]) (db'.eventsOf w)) ∧
        ((db.getWorkflow w).isNone → db.appendTx d now trimNow = .error .sqlite) := by
  intro db n
  obtain ⟨hring, hgiven⟩ := Db.ringOf_run ss w
  refine ⟨⟨_, hring.law⟩, ?_, ?_⟩
  · have hkeys := hgiven.keys
    simp only [List.map_id'] at hkeys
    rw [hkeys]
    simp [numbers, n]
  · intro d now trimNow hd
    subst hd
    refine ⟨fun hknown => ?_, fun hknown => Db.appendTx_unknown hknown now trimNow⟩
    obtain ⟨db', hok, happ, _⟩ := Db.appendTx_ring hring hknown now trimNow
    refine ⟨db', hok, ?_⟩
    rw [happ.rows]
    exact evict_shortestEviction (by simp)

end Calcar.Agent
