import Mathlib.Data.List.Infix
import Calcar.Verified.Migrations

/-!
# What a migration file gives

A file is taken apart at the first Up marker and the first Down marker.  The two cannot
overlap, so the cut never ends before it starts, and what is between them holds no Down
marker.

## Main results

* `parseMigration_iff` — which files are accepted, and what they give.
* `no_down_applied` — in every run, what is carried out is the Up block of a file.
-/

namespace Calcar.Migrate

open Lib

/-! ## Finding a marker -/

section Index

variable {pat s : List Char} {k : Nat}

theorem index_some : index pat s = some k ↔
    k ≤ s.length ∧ pat <+: s.drop k ∧ ∀ j < k, ¬pat <+: s.drop j := by
  induction s generalizing k with
  | nil =>
      by_cases hpat : pat = []
      · simp only [index, hpat, if_true, Option.some.injEq]
        constructor
        · rintro rfl
          exact ⟨Nat.le_refl _, List.nil_prefix, fun j hj => absurd hj (Nat.not_lt_zero j)⟩
        · rintro ⟨hk, -, -⟩
          exact (Nat.le_zero.mp hk).symm
      · simp [index, hpat]
  | cons c cs ih =>
      by_cases hhere : pat <+: c :: cs
      · have hpre : pat.isPrefixOf (c :: cs) = true := List.isPrefixOf_iff_prefix.mpr hhere
        simp only [index, hpre, if_true, Option.some.injEq]
        constructor
        · rintro rfl
          exact ⟨Nat.zero_le _, hhere, fun j hj => absurd hj (Nat.not_lt_zero j)⟩
        · rintro ⟨-, -, hfirst⟩
          by_contra hne
          exact hfirst 0 (by omega) hhere
      · have hpre : ¬pat.isPrefixOf (c :: cs) = true := fun h =>
          hhere (List.isPrefixOf_iff_prefix.mp h)
        rw [index, if_neg hpre, Option.map_eq_some_iff]
        constructor
        · rintro ⟨n, hn, rfl⟩
          rcases ih.mp hn with ⟨hlen, hat, hfirst⟩
          refine ⟨Nat.succ_le_succ hlen, hat, fun j hj => ?_⟩
          cases j with
          | zero => exact hhere
          | succ j => exact hfirst j (by omega)
        · rintro ⟨hlen, hat, hfirst⟩
          cases k with
          | zero => exact absurd hat hhere
          | succ n =>
              exact ⟨n, ih.mpr ⟨Nat.le_of_succ_le_succ hlen, hat, fun j hj =>
                hfirst (j + 1) (by omega)⟩, rfl⟩

end Index

/-- The end of one marker is not the beginning of the other. -/
theorem markers_differ : ∀ d < upMarker.length,
    upMarker.drop d ≠ downMarker.take (upMarker.length - d) := by decide

/-- The markers do not overlap. -/
theorem markers_apart {s : List Char} {a b : Nat} (hup : upMarker <+: s.drop a)
    (hdown : downMarker <+: s.drop b) (hab : a ≤ b) : a + upMarker.length ≤ b := by
  by_contra hnot
  have hd : b - a < upMarker.length := by omega
  apply markers_differ (b - a) hd
  have hupTake : upMarker = (s.drop a).take upMarker.length := List.prefix_iff_eq_take.mp hup
  have hdownTake : downMarker = (s.drop b).take downMarker.length :=
    List.prefix_iff_eq_take.mp hdown
  have hshort : upMarker.length - (b - a) ≤ downMarker.length := by
    have : upMarker.length ≤ downMarker.length := by decide
    omega
  have hsame : a + (b - a) = b := by omega
  calc upMarker.drop (b - a)
      = ((s.drop a).take upMarker.length).drop (b - a) := by rw [← hupTake]
    _ = (s.drop b).take (upMarker.length - (b - a)) := by
        rw [List.drop_take, List.drop_drop, hsame]
    _ = ((s.drop b).take downMarker.length).take (upMarker.length - (b - a)) := by
        rw [List.take_take, Nat.min_eq_left hshort]
    _ = downMarker.take (upMarker.length - (b - a)) := by rw [← hdownTake]

/-! ## Trimming -/

theorem trimSpace_within (s : List Char) :
    (Text.trimSpace (String.ofList s)).toList <:+: s := by
  rw [Text.trimSpace, String.toList_ofList, String.toList_ofList]
  have hfront : s.dropWhile Text.isSpace <:+ s := List.dropWhile_suffix _
  have hback := List.reverse_prefix.mpr
    (List.dropWhile_suffix Text.isSpace (l := (s.dropWhile Text.isSpace).reverse))
  rw [List.reverse_reverse] at hback
  exact hback.isInfix.trans hfront.isInfix

/-! ## Files -/

/-- A text that is cut at its first Up marker and its first Down marker. -/
structure Cut (text front block rest : List Char) : Prop where
  parts : text = front ++ upMarker ++ block ++ downMarker ++ rest
  firstUp : ∀ j < front.length, ¬upMarker <+: text.drop j
  firstDown : ∀ j < (front ++ upMarker ++ block).length, ¬downMarker <+: text.drop j

section Cut

variable {text front block rest : List Char}

theorem Cut.up (h : Cut text front block rest) : index upMarker text = some front.length := by
  apply index_some.mpr
  refine ⟨?_, ?_, h.firstUp⟩
  · rw [h.parts]
    simp only [List.length_append]
    omega
  · rw [h.parts, List.append_assoc, List.append_assoc, List.append_assoc, List.drop_left]
    exact List.prefix_append _ _

theorem Cut.down (h : Cut text front block rest) :
    index downMarker text = some (front ++ upMarker ++ block).length := by
  apply index_some.mpr
  refine ⟨?_, ?_, h.firstDown⟩
  · rw [h.parts]
    simp only [List.length_append]
    omega
  · rw [h.parts, List.append_assoc _ downMarker, List.drop_left]
    exact List.prefix_append _ _

/-- The block between the markers. -/
theorem Cut.block_eq (h : Cut text front block rest) :
    (text.take (front ++ upMarker ++ block).length).drop (front.length + upMarker.length) =
      block := by
  rw [h.parts, List.append_assoc _ downMarker, List.take_left, ← List.length_append,
    List.drop_left]

theorem Cut.rest_eq (h : Cut text front block rest) :
    text.drop ((front ++ upMarker ++ block).length + downMarker.length) = rest := by
  rw [h.parts, ← List.length_append, List.drop_left]

/-- No Down marker is in the block. -/
theorem Cut.clean (h : Cut text front block rest) : ¬downMarker <:+: block := by
  rintro ⟨x, y, hblock⟩
  apply h.firstDown (front ++ upMarker ++ x).length
  · have hpos : 0 < downMarker.length := by decide
    rw [← hblock]
    simp only [List.length_append]
    omega
  · have hsplit : text = (front ++ upMarker ++ x) ++ (downMarker ++ (y ++ downMarker ++ rest)) := by
      rw [h.parts, ← hblock]
      simp only [List.append_assoc]
    rw [hsplit, List.drop_left]
    exact List.prefix_append _ _

end Cut

/-- Where both markers are, the text is cut. -/
theorem cut_of_index {text : List Char} {a b : Nat} (hup : index upMarker text = some a)
    (hdown : index downMarker text = some b) (hab : a ≤ b) :
    ∃ front block rest, Cut text front block rest ∧ front.length = a ∧
      (front ++ upMarker ++ block).length = b := by
  rcases index_some.mp hup with ⟨halen, hupAt, hupFirst⟩
  rcases index_some.mp hdown with ⟨hblen, hdownAt, hdownFirst⟩
  have hapart := markers_apart hupAt hdownAt hab
  rcases hupAt with ⟨afterUp, hafterUp⟩
  rcases hdownAt with ⟨rest, hrest⟩
  have hfront : (text.take a).length = a := List.length_take_of_le halen
  have hhead : text.take b = text.take a ++ upMarker ++
      (text.take b).drop (a + upMarker.length) := by
    have hmarker : ((text.take b).drop a).take upMarker.length = upMarker := by
      rw [List.drop_take, List.take_take, Nat.min_eq_left (by omega), ← hafterUp, List.take_left]
    calc text.take b
        = (text.take b).take a ++ (text.take b).drop a := (List.take_append_drop _ _).symm
      _ = text.take a ++ (((text.take b).drop a).take upMarker.length ++
            ((text.take b).drop a).drop upMarker.length) := by
          rw [List.take_take, Nat.min_eq_left hab, List.take_append_drop]
      _ = text.take a ++ upMarker ++ (text.take b).drop (a + upMarker.length) := by
          rw [hmarker, List.drop_drop, List.append_assoc]
  have hlen : (text.take a ++ upMarker ++ (text.take b).drop (a + upMarker.length)).length = b := by
    rw [← hhead]
    exact List.length_take_of_le hblen
  refine ⟨text.take a, (text.take b).drop (a + upMarker.length), rest, ⟨?_, ?_, ?_⟩, hfront, hlen⟩
  · rw [← hhead, List.append_assoc, hrest, List.take_append_drop]
  · rw [hfront]
    exact hupFirst
  · rw [hlen]
    exact hdownFirst

/-- **Which files are accepted, and what they give.** -/
theorem parseMigration_iff (name body : String) (m : Migration) :
    parseMigration name body = .ok m ↔
      ∃ front block rest, Cut body.toList front block rest ∧ m.version = name ∧
        m.upSQL = Text.trimSpace (String.ofList block) ∧ m.upSQL ≠ "" ∧
        m.downSQL = Text.trimSpace (String.ofList rest) ∧ m.downSQL ≠ "" := by
  constructor
  · intro h
    unfold parseMigration at h
    split at h
    · rename_i a b hup hdown
      split at h
      · cases h
      · rename_i hab
        rcases cut_of_index hup hdown (Nat.le_of_not_lt hab) with
          ⟨front, block, rest, hcut, hfront, hlen⟩
        rw [← hfront, ← hlen] at h
        simp only [hcut.block_eq, hcut.rest_eq] at h
        split at h
        · cases h
        · rename_i hnonempty
          cases h
          exact ⟨front, block, rest, hcut, rfl, rfl, fun he => hnonempty (.inl he), rfl,
            fun he => hnonempty (.inr he)⟩
    · cases h
  · rintro ⟨front, block, rest, hcut, hname, hup, hupNe, hdown, hdownNe⟩
    have horder : ¬(front ++ upMarker ++ block).length < front.length := by
      simp only [List.length_append]
      omega
    have hblocks : ¬(Text.trimSpace (String.ofList block) = "" ∨
        Text.trimSpace (String.ofList rest) = "") := by
      rw [← hup, ← hdown]
      exact fun h => h.elim hupNe hdownNe
    unfold parseMigration
    simp only [hcut.up, hcut.down, horder, hcut.block_eq, hcut.rest_eq, hblocks, if_false]
    rw [← hname, ← hup, ← hdown]

/-! ## Runs -/

theorem mem_parsed {entries : List Entry} {ms : List Migration} {m : Migration}
    (h : List.Forall₂ (fun e m => parseMigration e.name e.body = .ok m) entries ms)
    (hm : m ∈ ms) : ∃ e ∈ entries, parseMigration e.name e.body = .ok m := by
  induction h with
  | nil => cases hm
  | @cons e _ _ _ hfirst _ ih =>
      rcases List.mem_cons.mp hm with rfl | hlater
      · exact ⟨e, List.mem_cons_self, hfirst⟩
      · rcases ih hlater with ⟨e', he', hparse⟩
        exact ⟨e', List.mem_cons_of_mem _ he', hparse⟩

/-- A migration comes from a file of the build. -/
theorem mem_loadMigrations {entries : List Entry} {ms : List Migration} {m : Migration}
    (h : loadMigrations entries = .ok ms) (hm : m ∈ ms) :
    ∃ e ∈ entries, e.isDir = false ∧ parseMigration e.name e.body = .ok m := by
  rcases mem_parsed (parseAll_ok h) hm with ⟨e, he, hparse⟩
  rw [List.mem_insertionSort, List.mem_filter] at he
  have hfile : e.isDir = false := by simpa using (Bool.and_eq_true_iff.mp he.2).1
  exact ⟨e, he.1, hfile, hparse⟩

/-- **Only Up blocks are carried out.**  In every run of any number of deployments, what a
transaction commits is the Up block of a file of a build and the name of that file: what is
between the first Up marker and the first Down marker, trimmed, not empty, and without a
Down marker in it. -/
theorem no_down_applied {Build : Type} (files : Build → List Entry)
    (c : Config Build World Cmd Ans (Except MigrateError Unit))
    (h : (deployments files).Reach (fun _ _ => True) boot c) :
    ∀ cs ∈ c.world.wal, ∃ b, ∃ e ∈ files b, e.isDir = false ∧ ∃ front block rest sql,
      Cut e.body.toList front block rest ∧ sql = Text.trimSpace (String.ofList block) ∧
        cs = [.up sql, .insert e.name] ∧ sql ≠ "" ∧ ¬downMarker <:+: sql.toList := by
  intro cs hcs
  rcases List.mem_iff_getElem?.mp hcs with ⟨k, hk⟩
  rcases (deployments_sound h).1.history k cs hk with ⟨b, before, m, after, hload, hlaw, -⟩
  rcases mem_loadMigrations hload (List.mem_append_right before List.mem_cons_self) with
    ⟨e, he, hfile, hparse⟩
  rcases (parseMigration_iff _ _ _).mp hparse with
    ⟨front, block, rest, hcut, hname, hup, hne, -, -⟩
  have hclean : ¬downMarker <:+: m.upSQL.toList := by
    rw [hup]
    exact fun hin => hcut.clean (hin.trans (trimSpace_within block))
  exact ⟨b, e, he, hfile, front, block, rest, m.upSQL, hcut, hup, hname ▸ hlaw, hne, hclean⟩

open Sample in
/-- What two deployments at once have carried out comes from the first file. -/
theorem no_down_applied_raced :
    raced.world.wal ≠ [] ∧ ∀ cs ∈ raced.world.wal, ∃ e ∈ entries, .insert e.name ∈ cs := by
  refine ⟨by rw [raced_facts.2]; exact List.cons_ne_nil _ _, fun cs hcs => ?_⟩
  rcases no_down_applied embedded raced raced_reach cs hcs with
    ⟨_, e, he, -, _, _, _, sql, -, -, hsame, -, -⟩
  exact ⟨e, he, by simp [hsame]⟩

end Calcar.Migrate
