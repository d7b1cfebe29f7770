import Calcar.Verified.AdapterStream

/-!
# Line consumption in chunks

An adapter hands `consume` the bytes pumped so far, again and again.  What the
calls give together is the parse of the bytes, however they were cut.

## Main results

* `Reader.feed_open`, `Reader.feed_ended` — one call takes the parse from the
  old bytes to the new ones.
* `chunk_invariance` — any increasing chain of prefixes, and a finishing call.
-/

namespace Calcar.Agent

open Lib

/-- What `consume` changes in place: the cursor and the tail, the events and the
session. -/
structure Reader where
  state : StreamState := {}
  events : List ProviderEvent := []
  session : Option String
  deriving DecidableEq, Repr

/-- A call of `consume`. -/
def Reader.feed (k : LineAdapter) (finished : Bool) (r : Reader) (bytes : Bytes) : Reader :=
  let out := consume k bytes r.state finished r.session
  ⟨out.1, r.events ++ out.2.1, out.2.2⟩

/-- The calls before the finishing one. -/
def Reader.feedAll (k : LineAdapter) (r : Reader) (prefixes : List Bytes) : Reader :=
  prefixes.foldl (Reader.feed k false) r

/-- The lines of `bytes` that have ended, each once and in order, are parsed. -/
def Reader.parsed (k : LineAdapter) (session : Option String) (bytes : Bytes) : Reader where
  state := readTo bytes
  events := (parseLines k (Lines.split newline bytes).1 session).1
  session := (parseLines k (Lines.split newline bytes).1 session).2

/-- All lines of `bytes` are parsed, and what follows the last newline if it is
not empty. -/
def Reader.ended (k : LineAdapter) (session : Option String) (bytes : Bytes) : Reader where
  state := ⟨bytes.length, []⟩
  events := (parseLines k (Lines.all newline bytes) session).1
  session := (parseLines k (Lines.all newline bytes) session).2

section

variable {k : LineAdapter}

theorem parseLines_append (lines others : List Bytes) (session : Option String) :
    parseLines k (lines ++ others) session =
      ((parseLines k lines session).1 ++
          (parseLines k others (parseLines k lines session).2).1,
        (parseLines k others (parseLines k lines session).2).2) := by
  induction lines generalizing session with
  | nil => rfl
  | cons line lines ih =>
      rw [List.cons_append, parseLines, ih]
      simp [parseLines]

/-- The bytes that are read together with what was kept of the last call. -/
theorem read_grown (b p : Bytes) :
    (readTo b).tail ++ (b ++ p).drop (min (readTo b).cursor (b ++ p).length) =
      (Lines.split newline b).2 ++ p := by
  rw [show (readTo b).cursor = b.length from rfl, drop_read]
  rfl

/-- **A call goes on from the parse of the bytes before.** -/
theorem Reader.feed_open (session : Option String) (b p : Bytes) :
    (Reader.parsed k session b).feed k false (b ++ p) = Reader.parsed k session (b ++ p) := by
  have hsplit : Lines.split newline (b ++ p) = _ := Lines.split_append b p
  simp only [feed, Reader.parsed, consume, read_grown]
  simp [readTo, hsplit, parseLines_append]

/-- **The finishing call adds what is left.** -/
theorem Reader.feed_ended (session : Option String) (b p : Bytes) :
    (Reader.parsed k session b).feed k true (b ++ p) = Reader.ended k session (b ++ p) := by
  have hall : Lines.all newline (b ++ p) = _ := Lines.all_append b p
  simp only [feed, Reader.parsed, Reader.ended, consume, read_grown]
  simp [hall, parseLines_append]

/-- A finishing call that finds nothing new changes nothing. -/
theorem Reader.feed_again (session : Option String) (b : Bytes) :
    (Reader.ended k session b).feed k true b = Reader.ended k session b := by
  simp [feed, Reader.ended, consume, Lines.all, Lines.split, Lines.closing, parseLines]

theorem Reader.feedAll_chain (session : Option String) (prefixes : List Bytes) :
    ∀ b : Bytes, (b :: prefixes).IsChain (· <+: ·) →
      (Reader.parsed k session b).feedAll k prefixes =
        Reader.parsed k session (prefixes.getLastD b) := by
  induction prefixes with
  | nil => exact fun b _ => rfl
  | cons p prefixes ih =>
      intro b hchain
      obtain ⟨⟨grown, rfl⟩, hrest⟩ := List.isChain_cons_cons.mp hchain
      rw [List.getLastD_cons, ← ih (b ++ grown) hrest, feedAll, List.foldl_cons, feed_open]
      rfl

end

/-- **Chunk invariance.** Before the finishing call the events and the session are
the parse of the lines that have ended in the last prefix; the finishing call on
the whole makes them the parse of all its lines, the rest behind the last newline
among them; and another finishing call adds nothing. -/
theorem chunk_invariance (k : LineAdapter) (session : Option String) (whole : Bytes)
    (prefixes : List Bytes) (hchain : prefixes.IsChain (· <+: ·))
    (hwhole : ∀ p ∈ prefixes, p <+: whole) :
    let before := Reader.feedAll k { session := session } prefixes
    let last := prefixes.getLastD []
    before.events = (parseLines k (Lines.split newline last).1 session).1 ∧
      before.session = (parseLines k (Lines.split newline last).1 session).2 ∧
      (before.feed k true whole).events = (parseLines k (Lines.all newline whole) session).1 ∧
      (before.feed k true whole).session = (parseLines k (Lines.all newline whole) session).2 ∧
      (before.feed k true whole).feed k true whole = before.feed k true whole := by
  intro before last
  have hstart : ([] :: prefixes).IsChain (· <+: ·) := by
    cases prefixes with
    | nil => exact .singleton _
    | cons p prefixes => exact List.isChain_cons_cons.mpr ⟨List.nil_prefix, hchain⟩
  have hbefore : before = Reader.parsed k session last :=
    Reader.feedAll_chain session prefixes [] hstart
  have hlast : last <+: whole := by
    cases List.mem_cons.mp (List.getLastD_mem_cons (l := prefixes) (a := [])) with
    | inl hnone => rw [show last = [] from hnone]; exact List.nil_prefix
    | inr hmem => exact hwhole last hmem
  obtain ⟨rest, hrest⟩ := hlast
  rw [hbefore, ← hrest, Reader.feed_ended, Reader.feed_again]
  exact ⟨rfl, rfl, rfl, rfl, rfl⟩

/-- Two prefixes, the first cut inside a line and the second behind its carriage return. -/
theorem chunk_invariance_sample :
    let whole : Bytes := "CODEX_STEP a\r\nCODEX_DONE b".toUTF8.toList
    let before := Reader.feedAll .codex { session := none } [whole.take 5, whole.take 13]
    before.events = [] ∧ (before.feed .codex true whole).events =
      [⟨.commandStarted, "a", none⟩, ⟨.commandCompleted, "b", none⟩] := by
  intro whole before
  have h := chunk_invariance .codex none whole [whole.take 5, whole.take 13]
    (by decide +kernel) (by decide +kernel)
  exact ⟨h.1.trans (by decide +kernel), h.2.2.1.trans (by decide +kernel)⟩

end Calcar.Agent
