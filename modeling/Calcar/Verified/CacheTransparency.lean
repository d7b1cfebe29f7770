import Calcar.Lib.Aligned
import Calcar.Lib.Events
import Calcar.Phone.Cache

/-!
# The cache behind the live source

The source that writes through runs beside the live source it wraps, on the same calls and
answers.  A call waits for its write before it returns, and a write that throws takes the
answer with it.

## Main results

* `mirrors_step` — one step keeps the calls of both alike unless a write fails.
* `cache_transparent_iff` — in a run both end their calls alike just when no write fails.
* `unopened_transparent` — without a database nothing differs.
* `table_le`, `table_ids` — the table never holds more rows than its cap, nor an id twice.
-/

namespace Calcar.Phone.Cache

open Lib

/-- Both sources, on the same events. -/
structure Both where
  source : Source
  plain : Plain

namespace Both

def boot (sort : List CachedDevice → List CachedDevice) (db : Except String Unit) : Both where
  source := .boot sort db
  plain := {}

def next (b : Both) (e : Event) : Option Both := do
  let source ← b.source.next e
  let plain ← b.plain.next e
  some { source := source, plain := plain }

end Both

/-- A call has ended as that of the live source has, or is still on its way: to the answer,
or to the end of a write with the answer in hand. -/
def Mirrors (call : Fetch × Stage) (live : Fetch × Option (Except String Result)) : Prop :=
  call.1 = live.1 ∧
    match call.2 with
    | .asked => live.2 = none
    | .writing devices _ => live.2 = some (.ok (.devices devices))
    | .over result => live.2 = some result

/-- Every call returns or throws what the live source does. -/
def Transparent (b : Both) : Prop := List.Forall₂ Mirrors b.source.calls b.plain.calls

/-- No write fails. -/
def Held (_ : Both) (e : Event) (_ : Both) : Prop := ∀ i text, e ≠ .written i (.error text)

section Steps

variable {b b' : Both} {e : Event}

theorem next_eq (hnext : b.next e = some b') :
    b.source.next e = some b'.source ∧ b.plain.next e = some b'.plain := by
  simp only [Both.next, Option.bind_eq_bind, Option.bind_eq_some_iff, Option.some.injEq] at hnext
  rcases hnext with ⟨source, hsource, plain, hplain, rfl⟩
  exact ⟨hsource, hplain⟩

/-- The live source has what a call goes on with. -/
theorem mirrors_behind (s : Source) (fetch : Fetch) (result : Except String Result)
    (nowMillis : Int) : Mirrors (fetch, s.behind result nowMillis) (fetch, some result) := by
  refine ⟨rfl, ?_⟩
  unfold Source.behind
  match result with
  | .error _ => rfl
  | .ok (.presence _) | .ok (.ownerDeviceId _) | .ok (.computer _) | .ok (.workflow _) => rfl
  | .ok (.devices devices) => cases s.opened <;> rfl

theorem call_step {fetch : Fetch} (h : Transparent b) (hnext : b.next (.call fetch) = some b') :
    Transparent b' := by
  obtain ⟨hsource, hplain⟩ := next_eq hnext
  simp only [Source.next, Plain.next, Option.some.injEq] at hsource hplain
  rw [Transparent, ← hsource, ← hplain]
  exact Aligned.concat h ⟨rfl, rfl⟩

theorem answer_step {i : Nat} {result : Except String Result} {nowMillis : Int}
    (h : Transparent b) (hnext : b.next (.answer i result nowMillis) = some b') :
    Transparent b' := by
  obtain ⟨hsource, hplain⟩ := next_eq hnext
  simp only [Source.next] at hsource
  split at hsource
  · rename_i fetch hcall
    obtain ⟨live, hlive, hfetch, hnone⟩ := Aligned.beside h hcall
    obtain rfl : live = (fetch, none) := Prod.ext hfetch.symm hnone
    simp only [Plain.next, hlive] at hplain
    split at hsource
    · rename_i hends
      rw [if_pos hends, Option.some.injEq] at hplain
      rw [Option.some.injEq] at hsource
      rw [Transparent, ← hsource, ← hplain]
      exact Aligned.set h (mirrors_behind b.source fetch result nowMillis)
    · cases hsource
  · cases hsource

/-- **The end of a write** is the end of its call, with what the live source returned just
when the write went through. -/
theorem written_step {i : Nat} {outcome : Except String Unit} (h : Transparent b)
    (hnext : b.next (.written i outcome) = some b') : Transparent b' ↔ outcome = .ok () := by
  obtain ⟨hsource, hplain⟩ := next_eq hnext
  simp only [Plain.next, Option.some.injEq] at hplain
  simp only [Source.next] at hsource
  split at hsource
  · rename_i fetch devices rows hcall
    obtain ⟨live, hlive, hfetch, hresult⟩ := Aligned.beside h hcall
    have hi : i < b.source.calls.length := (List.getElem?_eq_some_iff.mp hcall).1
    rw [Transparent, ← hplain]
    cases outcome with
    | ok done =>
        rw [Option.some.injEq] at hsource
        rw [← hsource]
        exact iff_of_true (Aligned.set_left h hlive ⟨hfetch, hresult⟩) rfl
    | error text =>
        rw [Option.some.injEq] at hsource
        rw [← hsource]
        refine iff_of_false (fun hafter => ?_) (by simp)
        have hended : (b.source.calls.set i (fetch, Stage.over (.error text)))[i]? =
            some (fetch, Stage.over (.error text)) := List.getElem?_set_self hi
        obtain ⟨live', hlive', -, hthrown⟩ := Aligned.beside hafter hended
        cases hlive.symm.trans hlive'
        cases hthrown.symm.trans hresult
  · cases hsource

/-- **One step** keeps the calls of both alike unless a write fails. -/
theorem mirrors_step (h : Transparent b) (hnext : b.next e = some b') :
    Transparent b' ↔ Held b e b' := by
  cases e with
  | call fetch => exact iff_of_true (call_step h hnext) (by simp [Held])
  | answer i result nowMillis => exact iff_of_true (answer_step h hnext) (by simp [Held])
  | written i outcome =>
      rw [written_step h hnext]
      cases outcome with
      | ok done => simp [Held]
      | error text => simp [Held]

end Steps

/-- **Cache transparency.**  In a run of the source that the app has booted with, beside the
live source on the same calls and answers, every call ends as it does there, or waits for
its answer or its write, if and only if no write fails. -/
theorem cache_transparent_iff (sort : List CachedDevice → List CachedDevice)
    (db : Except String Unit) (events : List Event) :
    Every Both.next (fun _ _ b' => Transparent b') (.boot sort db) events ↔
      Every Both.next Held (.boot sort db) events := by
  refine every_iff (P := fun _ _ b' => Transparent b') (Q := Held) Transparent ?_ ?_ events
  · intro b e b' h hnext
    exact ⟨mirrors_step h hnext, id⟩
  · exact List.Forall₂.nil

/-! ## Without a database -/

/-- A source that waits for no write. -/
def Unwritten (s : Source) : Prop :=
  s.opened = false ∧ ∀ call ∈ s.calls, ∀ devices rows, call.2 ≠ .writing devices rows

theorem behind_unopened {s : Source} (h : s.opened = false) (result : Except String Result)
    (nowMillis : Int) : s.behind result nowMillis = .over result := by
  unfold Source.behind
  match result with
  | .error _ => rfl
  | .ok (.presence _) | .ok (.ownerDeviceId _) | .ok (.computer _) | .ok (.workflow _) => rfl
  | .ok (.devices devices) => simp [h]

theorem unwritten_next {s s' : Source} {e : Event} (h : Unwritten s) (hnext : s.next e = some s') :
    Unwritten s' ∧ ∀ i outcome, e ≠ .written i outcome := by
  rcases h with ⟨hopened, hcalls⟩
  cases e with
  | call fetch =>
      cases hnext
      refine ⟨⟨hopened, fun call hcall => ?_⟩, by simp⟩
      rcases List.mem_append.mp hcall with hcall | hcall
      · exact hcalls call hcall
      · simp [List.mem_singleton.mp hcall]
  | answer i result nowMillis =>
      simp only [Source.next, behind_unopened hopened] at hnext
      split at hnext
      · split at hnext
        · cases hnext
          refine ⟨⟨hopened, fun call hcall => ?_⟩, by simp⟩
          rcases List.mem_or_eq_of_mem_set hcall with hcall | rfl
          · exact hcalls call hcall
          · simp
        · cases hnext
      · cases hnext
  | written i outcome =>
      simp only [Source.next] at hnext
      split at hnext
      · rename_i fetch devices rows hcall
        exact absurd rfl (hcalls _ (List.mem_of_getElem? hcall) devices rows)
      · cases hnext

/-- **A database that does not open** changes nothing. -/
theorem unopened_transparent (sort : List CachedDevice → List CachedDevice) (text : String)
    (events : List Event) :
    Every Both.next (fun _ _ b' => Transparent b') (.boot sort (.error text)) events := by
  refine every_of_inv (fun b => Transparent b ∧ Unwritten b.source) ?_ ?_ events
  · intro b e b' h hnext
    have hafter := unwritten_next h.2 (next_eq hnext).1
    have hheld : Held b e b' := fun i text => hafter.2 i (.error text)
    have htransparent := (mirrors_step h.1 hnext).2 hheld
    exact ⟨htransparent, htransparent, hafter.1⟩
  · exact ⟨List.Forall₂.nil, rfl, by simp [Both.boot, Source.boot]⟩

/-! ## The table -/

theorem replaceAll_length_le (sort : List CachedDevice → List CachedDevice)
    (devices : List DeviceList.Device) (nowMillis : Int) :
    (replaceAll sort devices nowMillis).length ≤ maxRows := by
  unfold replaceAll replaceCached
  simp only [List.length_map]
  split
  · assumption
  · rw [List.length_drop]
    omega

theorem insertRow_length_le (table : List DbRow) (row : DbRow) :
    (insertRow table row).length ≤ table.length + 1 := by
  unfold insertRow
  rw [List.length_append]
  exact Nat.add_le_add_right (List.length_filter_le _ table) 1

theorem replaceDeviceRows_length_le (rows : List DbRow) :
    (replaceDeviceRows rows).length ≤ rows.length := by
  have hall : ∀ table : List DbRow,
      (rows.foldl insertRow table).length ≤ table.length + rows.length := by
    induction rows with
    | nil => exact fun table => Nat.le_refl _
    | cons row rows ih =>
        intro table
        have hrow := insertRow_length_le table row
        have hrest := ih (insertRow table row)
        rw [List.foldl_cons, List.length_cons]
        omega
  have hempty := hall []
  rw [List.length_nil, Nat.zero_add] at hempty
  exact hempty

/-- No two rows have one primary key. -/
def Keyed (table : List DbRow) : Prop :=
  table.Pairwise fun row row' => row.lookup "device_id" ≠ row'.lookup "device_id"

theorem keyed_insertRow {table : List DbRow} (h : Keyed table) (row : DbRow) :
    Keyed (insertRow table row) := by
  refine List.pairwise_append.mpr ⟨h.filter _, List.pairwise_singleton _ row, ?_⟩
  intro kept hkept other hother
  rw [List.mem_singleton.mp hother]
  exact of_decide_eq_true (List.mem_filter.mp hkept).2

theorem keyed_replaceDeviceRows (rows : List DbRow) : Keyed (replaceDeviceRows rows) := by
  have hall : ∀ table : List DbRow, Keyed table → Keyed (rows.foldl insertRow table) := by
    induction rows with
    | nil => exact fun table h => h
    | cons row rows ih => exact fun table h => ih _ (keyed_insertRow h row)
  exact hall [] List.Pairwise.nil

/-- The table and the rows on their way to it are within the cap. -/
def Bounded (s : Source) : Prop :=
  s.table.length ≤ maxRows ∧
    ∀ call ∈ s.calls, ∀ devices rows, call.2 = .writing devices rows → rows.length ≤ maxRows

theorem bounded_set {s : Source} (h : Bounded s) (i : Nat) (call : Fetch × Stage)
    (hcall : ∀ devices rows, call.2 = .writing devices rows → rows.length ≤ maxRows) :
    Bounded { s with calls := s.calls.set i call } := by
  refine ⟨h.1, fun other hother => ?_⟩
  rcases List.mem_or_eq_of_mem_set hother with hother | rfl
  · exact h.2 other hother
  · exact hcall

theorem bounded_next {s s' : Source} {e : Event} (h : Bounded s) (hnext : s.next e = some s') :
    Bounded s' := by
  cases e with
  | call fetch =>
      cases hnext
      refine ⟨h.1, fun call hcall => ?_⟩
      rcases List.mem_append.mp hcall with hcall | hcall
      · exact h.2 call hcall
      · simp [List.mem_singleton.mp hcall]
  | answer i result nowMillis =>
      simp only [Source.next] at hnext
      split at hnext
      · split at hnext
        · cases hnext
          refine bounded_set h i _ fun devices rows hstage => ?_
          unfold Source.behind at hstage
          split at hstage
          · split at hstage
            · cases hstage
              exact replaceAll_length_le s.sort _ nowMillis
            · cases hstage
          · cases hstage
        · cases hnext
      · cases hnext
  | written i outcome =>
      simp only [Source.next] at hnext
      split at hnext
      · rename_i fetch devices rows hcall
        have hrows := h.2 _ (List.mem_of_getElem? hcall) devices rows rfl
        cases outcome with
        | ok done =>
            cases hnext
            have hset := bounded_set h i (fetch, .over (.ok (.devices devices))) (by simp)
            exact ⟨(replaceDeviceRows_length_le rows).trans hrows, hset.2⟩
        | error text =>
            cases hnext
            exact bounded_set h i _ (by simp)
      · cases hnext

/-- **The table** stays within its cap. -/
theorem table_le (sort : List CachedDevice → List CachedDevice) (db : Except String Unit)
    (events : List Event) :
    Every Source.next (fun _ _ s' => s'.table.length ≤ maxRows) (.boot sort db) events := by
  refine every_of_inv Bounded (fun s e s' h hnext => ?_) ?_ events
  · have hafter := bounded_next h hnext
    exact ⟨hafter.1, hafter⟩
  · exact ⟨Nat.zero_le _, by simp [Source.boot]⟩

/-- **The table** holds no id twice. -/
theorem table_ids (sort : List CachedDevice → List CachedDevice) (db : Except String Unit)
    (events : List Event) :
    Every Source.next (fun _ _ s' => Keyed s'.table) (.boot sort db) events := by
  refine every_of_inv (fun s => Keyed s.table) (fun s e s' h hnext => ?_) ?_ events
  · have hafter : Keyed s'.table := by
      cases e with
      | call fetch =>
          cases hnext
          exact h
      | answer i result nowMillis =>
          simp only [Source.next] at hnext
          split at hnext
          · split at hnext
            · cases hnext
              exact h
            · cases hnext
          · cases hnext
      | written i outcome =>
          simp only [Source.next] at hnext
          split at hnext
          · rename_i fetch devices rows hcall
            cases outcome with
            | ok done =>
                cases hnext
                exact keyed_replaceDeviceRows rows
            | error text =>
                cases hnext
                exact h
          · cases hnext
    exact ⟨hafter, hafter⟩
  · exact List.Pairwise.nil

namespace Full

/-- The call waits for its write. -/
def writing : Both where
  source := { Source.boot id (.ok ()) with
    calls := [(.fetchDevices, .writing [] [])] }
  plain := { calls := [(.fetchDevices, some (.ok (.devices [])))] }

/-- The write has failed. -/
def thrown : Both where
  source := { Source.boot id (.ok ()) with
    calls := [(.fetchDevices, .over (.error "database or disk is full"))] }
  plain := { calls := [(.fetchDevices, some (.ok (.devices [])))] }

def events : List Event := [.call .fetchDevices, .answer 0 (.ok (.devices [])) 0]

def last : Event := .written 0 (.error "database or disk is full")

end Full

/-- The live source has returned the devices, and the fetch throws. -/
theorem full_disk_throws :
    ¬∀ (sort : List CachedDevice → List CachedDevice) (db : Except String Unit)
      (events : List Event),
      Every Both.next (fun _ _ b' => Transparent b') (.boot sort db) events := by
  intro h
  have hrun : follow Both.next (.boot id (.ok ())) Full.events = some Full.writing := rfl
  have hnext : Full.writing.next Full.last = some Full.thrown := rfl
  have hlast := (h id (.ok ()) (Full.events ++ [Full.last])).last hrun hnext
  cases hlast with
  | cons hmirrors _ => cases hmirrors.2

end Calcar.Phone.Cache
