import Calcar.Agent.Adapters
import Mathlib.Data.List.Basic

/-!
# What an adapter reads and when

An adapter reads a child's two streams as far as they have been pumped, at
whatever moments it is drained.  Until the exit is seen it keeps an unfinished
line for later, so the moments do not matter.  The drain that sees the exit
closes both streams and adds the event of the exit.  The pumps do not stop at
the exit: what they deliver afterwards is read as a stream of its own, behind
that event.

## Main results

* `Open.step`, `Closed.drains` — one moment before the exit is seen; all
  moments after it.
* `stream_timing_iff` — the drains give the parse of the streams and one
  terminal event at the end just when the pumps were in time and no line
  announces an exit.
* `late_line_is_cut` — a run in which a line is cut by the exit.
-/

namespace Calcar.Agent

open Lib

/-! ## Runs of one child -/

/-- What happens to a child and its adapter. -/
inductive Moment where
  | stdout (chunk : Bytes)
  | stderr (chunk : Bytes)
  | ends (code : UInt32)
  | stop
  | poll (waited : Bool)
  | drain (waited : Bool)
  deriving DecidableEq, Repr

/-- The child after a moment; it ends once. -/
def PlainChild.step (c : PlainChild) : Moment → PlainChild
  | .stdout chunk => { c with stdout := c.stdout.push chunk }
  | .stderr chunk => { c with stderr := c.stderr.push chunk }
  | .ends code => { c with ended := c.ended.or (some code) }
  | .stop => c
  | .poll waited => c.wait waited
  | .drain waited => c.wait waited

/-- The adapter after a moment, and what a drain returns. -/
def AdapterState.step (k : LineAdapter) (a : AdapterState) :
    Moment → AdapterState × Option Drained
  | .stdout chunk => ({ a with child := a.child.map fun c => c.step (.stdout chunk) }, none)
  | .stderr chunk => ({ a with child := a.child.map fun c => c.step (.stderr chunk) }, none)
  | .ends code => ({ a with child := a.child.map fun c => c.step (.ends code) }, none)
  | .stop => (a.stop.1, none)
  | .poll waited => (a.poll waited, none)
  | .drain waited => ((a.drain k waited).1, some (a.drain k waited).2)

/-- The child after moments. -/
def PlainChild.after (c : PlainChild) (ms : List Moment) : PlainChild := ms.foldl PlainChild.step c

/-- The adapter after moments. -/
def AdapterState.after (k : LineAdapter) (a : AdapterState) (ms : List Moment) : AdapterState :=
  ms.foldl (fun a m => (a.step k m).1) a

/-- What the drains of a run return. -/
def AdapterState.drains (k : LineAdapter) : AdapterState → List Moment → List Drained
  | _, [] => []
  | a, m :: ms => (a.step k m).2.toList ++ AdapterState.drains k (a.step k m).1 ms

/-- The child at each drain of a run, as the drain finds it. -/
def PlainChild.looks : PlainChild → List Moment → List PlainChild
  | _, [] => []
  | c, .drain waited :: ms => c.wait waited :: PlainChild.looks (c.wait waited) ms
  | c, m :: ms => PlainChild.looks (c.step m) ms

/-- The exit has been seen. -/
def PlainChild.finished (c : PlainChild) : Bool := c.exitCode.isSome

/-- A child that has just been started. -/
def newChild (cap : Nat) : PlainChild := { stdout := { cap := cap }, stderr := { cap := cap } }

/-- Its adapter. -/
def spawned (cap : Nat) : AdapterState := { child := some (newChild cap) }

/-! ## The law -/

/-- The events of one line. -/
def lineEvents (k : LineAdapter) (line : Bytes) : List ProviderEvent :=
  (readLine k (trimEndCr (fromUtf8Lossy line))).1

/-- The line-by-line parse of a stream. -/
def streamEvents (k : LineAdapter) (bytes : Bytes) : List ProviderEvent :=
  (Lines.all newline bytes).flatMap (lineEvents k)

/-- Where an event comes from. -/
inductive Origin where
  | stream
  | exit
  deriving DecidableEq, Repr

/-- The events of a drain in order, with their origin. -/
def Drained.sourced (d : Drained) : List (Origin × ProviderEvent) :=
  (d.fromStdout ++ d.fromStderr).map (Prod.mk .stream) ++ (d.terminal.toList).map (Prod.mk .exit)

/-- The event says that the workflow is over. -/
def EndsWorkflow (e : ProviderEvent) : Prop :=
  e.eventType = .workflowCompleted ∨ e.eventType = .workflowStopped

/-- The event of the exit, or one that reads like it. -/
def Terminal (e : Origin × ProviderEvent) : Prop := e.1 = .exit ∨ EndsWorkflow e.2

/-- The drains of the run give what they would give at any other moments. -/
structure TimingFree (k : LineAdapter) (cap : Nat) (ms : List Moment) : Prop where
  stdout : ((spawned cap).drains k ms).flatMap Drained.fromStdout =
    streamEvents k ((newChild cap).after ms).stdout.buf
  stderr : ((spawned cap).drains k ms).flatMap Drained.fromStderr =
    streamEvents k ((newChild cap).after ms).stderr.buf
  last : ∃ before t, ((spawned cap).drains k ms).flatMap Drained.sourced = before ++ [t] ∧
    Terminal t ∧ ∀ e ∈ before, ¬Terminal e

/-- The last moment is a drain, and the exit has been seen by then: the drains
observe the whole capture. -/
def ObservesAll (cap : Nat) (ms : List Moment) : Prop :=
  (∃ us waited, ms = us ++ [.drain waited]) ∧ ((newChild cap).after ms).finished = true

/-- What came in between one look and the next. -/
def piecesFrom : Bytes → List Bytes → List Bytes
  | _, [] => []
  | b, b' :: bs => b'.drop b.length :: piecesFrom b' bs

/-- A stream as the drains find it from the exit on: at the first of them it
already parses to the events of the whole, and what comes later parses to
none. -/
def InTime (k : LineAdapter) (whole : Bytes) (seen : List Bytes) : Prop :=
  ∃ first later, seen = first :: later ∧ streamEvents k first = streamEvents k whole ∧
    ∀ piece ∈ piecesFrom first later, streamEvents k piece = []

/-- The pumps are in time, and no line announces that the workflow is over. -/
structure Punctual (k : LineAdapter) (cap : Nat) (ms : List Moment) : Prop where
  stdout : InTime k ((newChild cap).after ms).stdout.buf
    ((((newChild cap).looks ms).filter PlainChild.finished).map fun c => c.stdout.buf)
  stderr : InTime k ((newChild cap).after ms).stderr.buf
    ((((newChild cap).looks ms).filter PlainChild.finished).map fun c => c.stderr.buf)
  unannounced : ∀ e, e ∈ streamEvents k ((newChild cap).after ms).stdout.buf ∨
    e ∈ streamEvents k ((newChild cap).after ms).stderr.buf → ¬EndsWorkflow e

/-! ## Lines and their events -/

section Streams

variable {k : LineAdapter} {b p : Bytes} {session : Option String}

/-- The session that lines are read in does not change their events. -/
theorem parseLines_events (lines : List Bytes) (session : Option String) :
    (parseLines k lines session).1 = lines.flatMap (lineEvents k) := by
  induction lines generalizing session with
  | nil => rfl
  | cons line lines ih =>
      rw [List.flatMap_cons, ← ih (parseLine k (trimEndCr (fromUtf8Lossy line)) session).2]
      rfl

/-- Where an adapter is that has read `b`. -/
def readTo (b : Bytes) : StreamState := ⟨b.length, (Lines.split newline b).2⟩

/-- The events of the lines that have ended. -/
def openEvents (k : LineAdapter) (b : Bytes) : List ProviderEvent :=
  (Lines.split newline b).1.flatMap (lineEvents k)

theorem drop_read (b p : Bytes) : (b ++ p).drop (min b.length (b ++ p).length) = p := by
  have hmin : min b.length (b ++ p).length = b.length := by
    rw [List.length_append]
    omega
  rw [hmin, List.drop_left]

/-- Before the exit is seen, a piece is read from where the last one ended. -/
theorem consume_open (session : Option String) :
    (consume k (b ++ p) (readTo b) false session).1 = readTo (b ++ p) ∧
      openEvents k b ++ (consume k (b ++ p) (readTo b) false session).2.1 =
        openEvents k (b ++ p) := by
  have hsplit : Lines.split newline (b ++ p) = _ := Lines.split_append b p
  constructor
  · show (⟨(b ++ p).length, (Lines.split newline ((readTo b).tail ++
      (b ++ p).drop (min b.length (b ++ p).length))).2⟩ : StreamState) = readTo (b ++ p)
    rw [drop_read]
    unfold readTo
    rw [hsplit]
  · show openEvents k b ++ (parseLines k (Lines.split newline ((readTo b).tail ++
      (b ++ p).drop (min b.length (b ++ p).length))).1 session).1 = _
    rw [drop_read, parseLines_events]
    unfold openEvents readTo
    rw [hsplit, List.flatMap_append]

/-- The drain that sees the exit closes the stream. -/
theorem consume_close (session : Option String) :
    (consume k (b ++ p) (readTo b) true session).1 = ⟨(b ++ p).length, []⟩ ∧
      openEvents k b ++ (consume k (b ++ p) (readTo b) true session).2.1 =
        streamEvents k (b ++ p) := by
  refine ⟨rfl, ?_⟩
  show openEvents k b ++ (parseLines k (Lines.all newline ((readTo b).tail ++
    (b ++ p).drop (min b.length (b ++ p).length))) session).1 = _
  rw [drop_read, parseLines_events]
  unfold openEvents readTo streamEvents
  rw [Lines.all_append b p, List.flatMap_append]

/-- From then on every piece is a stream of its own. -/
theorem consume_late (session : Option String) :
    (consume k (b ++ p) ⟨b.length, []⟩ true session).1 = ⟨(b ++ p).length, []⟩ ∧
      (consume k (b ++ p) ⟨b.length, []⟩ true session).2.1 = streamEvents k p := by
  refine ⟨rfl, ?_⟩
  show (parseLines k (Lines.all newline ([] ++
    (b ++ p).drop (min b.length (b ++ p).length))) session).1 = _
  rw [drop_read, parseLines_events]
  rfl

end Streams

/-! ## Moments between drains -/

/-- Between two drains the adapter stands still and the streams grow. -/
structure Between (a : AdapterState) (c : PlainChild) (a' : AdapterState) (c' : PlainChild) :
    Prop where
  child : a'.child = some c'
  stdout : a'.stdout = a.stdout
  stderr : a'.stderr = a.stderr
  emitted : a'.terminalEmitted = a.terminalEmitted
  stdoutGrows : c.stdout.buf <+: c'.stdout.buf
  stderrGrows : c.stderr.buf <+: c'.stderr.buf
  seen : c.finished = true → c'.finished = true

section Moments

variable {k : LineAdapter} {a : AdapterState} {c : PlainChild} {m : Moment}

theorem push_grows (s : CappedSink) (chunk : Bytes) : s.buf <+: (s.push chunk).buf :=
  List.prefix_append _ _

/-- Polling changes no stream. -/
theorem wait_streams (c : PlainChild) (waited : Bool) :
    (c.wait waited).stdout = c.stdout ∧ (c.wait waited).stderr = c.stderr := by
  unfold PlainChild.wait
  cases c.exitCode with
  | some code => exact ⟨rfl, rfl⟩
  | none =>
      cases waited with
      | true => exact ⟨rfl, rfl⟩
      | false => exact ⟨rfl, rfl⟩

/-- An exit that has been seen stays seen. -/
theorem wait_finished {waited : Bool} (h : c.finished = true) : c.wait waited = c := by
  obtain ⟨code, hcode⟩ := Option.isSome_iff_exists.mp h
  unfold PlainChild.wait
  rw [hcode]

theorem Between.of_wait (waited : Bool) :
    Between { a with child := some c } c { a with child := some (c.wait waited) }
      (c.wait waited) where
  child := rfl
  stdout := rfl
  stderr := rfl
  emitted := rfl
  stdoutGrows :=
    (wait_streams c waited).1 ▸ List.prefix_rfl
  stderrGrows :=
    (wait_streams c waited).2 ▸ List.prefix_rfl
  seen h := by
    rw [wait_finished h]
    exact h

/-- **A moment that is no drain.** -/
theorem step_between (hchild : a.child = some c) (hm : ∀ waited, m ≠ .drain waited) :
    (a.step k m).2 = none ∧ Between a c (a.step k m).1 (c.step m) := by
  have hsame : a = { a with child := some c } := by
    rw [← hchild]
  cases m with
  | stdout chunk =>
      rw [hsame]
      exact ⟨rfl, rfl, rfl, rfl, rfl, push_grows c.stdout chunk, List.prefix_rfl, id⟩
  | stderr chunk =>
      rw [hsame]
      exact ⟨rfl, rfl, rfl, rfl, rfl, List.prefix_rfl, push_grows c.stderr chunk, id⟩
  | ends code =>
      rw [hsame]
      exact ⟨rfl, rfl, rfl, rfl, rfl, List.prefix_rfl, List.prefix_rfl, id⟩
  | stop =>
      rw [hsame]
      exact ⟨rfl, rfl, rfl, rfl, rfl, List.prefix_rfl, List.prefix_rfl, id⟩
  | poll waited =>
      rw [hsame]
      exact ⟨rfl, .of_wait waited⟩
  | drain waited => exact absurd rfl (hm waited)

theorem looks_between (ms : List Moment) (hm : ∀ waited, m ≠ .drain waited) :
    c.looks (m :: ms) = (c.step m).looks ms := by
  cases m with
  | drain waited => exact absurd rfl (hm waited)
  | _ => rfl

theorem drains_between (ms : List Moment) (hchild : a.child = some c)
    (hm : ∀ waited, m ≠ .drain waited) :
    a.drains k (m :: ms) = (a.step k m).1.drains k ms := by
  show (a.step k m).2.toList ++ (a.step k m).1.drains k ms = _
  rw [(step_between hchild hm).1]
  rfl

theorem drain_eq (hchild : a.child = some c) (waited : Bool) :
    a.drain k waited = a.drainChild k (c.wait waited) := by
  unfold AdapterState.drain
  rw [hchild]

/-- A moment is a drain or it is none. -/
theorem drain_or (m : Moment) : (∃ waited, m = .drain waited) ∨ ∀ waited, m ≠ .drain waited := by
  cases m with
  | drain waited => exact .inl ⟨waited, rfl⟩
  | _ => exact .inr fun _ h => by cases h

theorem drains_append (us vs : List Moment) :
    a.drains k (us ++ vs) = a.drains k us ++ (a.after k us).drains k vs := by
  induction us generalizing a with
  | nil => rfl
  | cons u us ih =>
      show (a.step k u).2.toList ++ (a.step k u).1.drains k (us ++ vs) = _
      rw [ih, ← List.append_assoc]
      rfl

theorem looks_append (us vs : List Moment) :
    c.looks (us ++ vs) = c.looks us ++ (c.after us).looks vs := by
  induction us generalizing c with
  | nil => rfl
  | cons u us ih =>
      obtain ⟨waited, rfl⟩ | hu := drain_or u
      · show c.wait waited :: (c.wait waited).looks (us ++ vs) = _
        rw [ih]
        rfl
      · rw [List.cons_append, looks_between _ hu, looks_between _ hu, ih]
        rfl

end Moments

/-! ## Before the exit is seen -/

/-- A stream that is read up to some point, and the events so far. -/
def ReadTo (k : LineAdapter) (s : StreamState) (buf : Bytes) (events : List ProviderEvent) : Prop :=
  ∃ b, b <+: buf ∧ s = readTo b ∧ events = openEvents k b

/-- The adapter after drains `ds`, none of which saw the exit. -/
structure Open (k : LineAdapter) (a : AdapterState) (c : PlainChild) (ds : List Drained) :
    Prop where
  child : a.child = some c
  quiet : a.terminalEmitted = false
  stdout : ReadTo k a.stdout c.stdout.buf (ds.flatMap Drained.fromStdout)
  stderr : ReadTo k a.stderr c.stderr.buf (ds.flatMap Drained.fromStderr)
  unended : ∀ d ∈ ds, d.terminal = none

/-- The adapter after a drain that saw the exit and found these streams. -/
structure Closed (a : AdapterState) (c : PlainChild) (out err : Bytes) : Prop where
  child : a.child = some c
  seen : c.finished = true
  emitted : a.terminalEmitted = true
  stdout : a.stdout = ⟨out.length, []⟩
  stderr : a.stderr = ⟨err.length, []⟩
  stdoutGrows : out <+: c.stdout.buf
  stderrGrows : err <+: c.stderr.buf

section Invariants

variable {k : LineAdapter} {a : AdapterState} {c : PlainChild} {ds : List Drained}

theorem ReadTo.grow {s : StreamState} {buf buf' : Bytes} {events : List ProviderEvent}
    (h : ReadTo k s buf events) (hgrows : buf <+: buf') : ReadTo k s buf' events := by
  obtain ⟨b, hb, hs, he⟩ := h
  exact ⟨b, hb.trans hgrows, hs, he⟩

theorem ReadTo.drain {s : StreamState} {buf : Bytes} {events : List ProviderEvent}
    (h : ReadTo k s buf events) (session : Option String) :
    ReadTo k (consume k buf s false session).1 buf
      (events ++ (consume k buf s false session).2.1) := by
  obtain ⟨b, ⟨p, rfl⟩, rfl, rfl⟩ := h
  obtain ⟨hstate, hevents⟩ := consume_open (k := k) (b := b) (p := p) session
  exact ⟨b ++ p, List.prefix_rfl, hstate, hevents⟩

theorem ReadTo.close {s : StreamState} {buf : Bytes} {events : List ProviderEvent}
    (h : ReadTo k s buf events) (session : Option String) :
    (consume k buf s true session).1 = ⟨buf.length, []⟩ ∧
      events ++ (consume k buf s true session).2.1 = streamEvents k buf := by
  obtain ⟨b, ⟨p, rfl⟩, rfl, rfl⟩ := h
  exact consume_close session

/-- **One moment** before the exit is seen. -/
theorem Open.step (h : Open k a c ds) (m : Moment)
    (hunseen : ∀ waited, m = .drain waited → (c.wait waited).finished = false) :
    Open k (a.step k m).1 (c.step m) (ds ++ (a.step k m).2.toList) := by
  obtain ⟨waited, rfl⟩ | hm := drain_or m
  · have hfinished : (c.wait waited).exitCode.isSome = false := hunseen waited rfl
    obtain ⟨hout, herr⟩ := wait_streams c waited
    have hnone : (c.wait waited).exitCode = none := by simpa using hfinished
    show Open k (a.drain k waited).1 (c.wait waited) (ds ++ [(a.drain k waited).2])
    rw [drain_eq h.child]
    unfold AdapterState.drainChild
    simp only [hnone]
    refine ⟨rfl, ?_, ?_, ?_, fun d hd => ?_⟩
    · show (a.terminalEmitted || false) = false
      rw [h.quiet]
      rfl
    · rw [List.flatMap_append, List.flatMap_singleton, hout]
      exact h.stdout.drain _
    · rw [List.flatMap_append, List.flatMap_singleton, herr]
      exact h.stderr.drain _
    · rw [List.mem_append, List.mem_singleton] at hd
      cases hd with
      | inl hd => exact h.unended d hd
      | inr hd =>
          rw [hd]
          show (if a.terminalEmitted = true then none else none) = none
          rw [ite_self]
  · obtain ⟨hnone, hbetween⟩ := step_between (k := k) h.child hm
    rw [hnone, Option.toList_none, List.append_nil]
    refine ⟨hbetween.child, ?_, ?_, ?_, h.unended⟩
    · rw [hbetween.emitted]
      exact h.quiet
    · rw [hbetween.stdout]
      exact h.stdout.grow hbetween.stdoutGrows
    · rw [hbetween.stderr]
      exact h.stderr.grow hbetween.stderrGrows

/-- **All moments** before the exit is seen. -/
theorem Open.run (h : Open k a c ds) (us : List Moment)
    (hunseen : ∀ l ∈ c.looks us, l.finished = false) :
    Open k (a.after k us) (c.after us) (ds ++ a.drains k us) := by
  induction us generalizing a c ds with
  | nil =>
      show Open k a c (ds ++ [])
      rw [List.append_nil]
      exact h
  | cons u us ih =>
      have hstep : Open k (a.step k u).1 (c.step u) (ds ++ (a.step k u).2.toList) := by
        refine h.step u fun waited hu => ?_
        subst hu
        exact hunseen (c.wait waited) List.mem_cons_self
      have hrest : ∀ l ∈ (c.step u).looks us, l.finished = false := by
        intro l hl
        refine hunseen l ?_
        obtain ⟨waited, rfl⟩ | hu := drain_or u
        · exact List.mem_cons_of_mem _ hl
        · rw [looks_between us hu]
          exact hl
      have hrun := ih hstep hrest
      rw [List.append_assoc] at hrun
      exact hrun

/-- **The drain that sees the exit.** -/
theorem Open.close (h : Open k a c ds) {waited : Bool} (hseen : (c.wait waited).finished = true) :
    Closed (a.drain k waited).1 (c.wait waited) c.stdout.buf c.stderr.buf ∧
      (∃ t, (a.drain k waited).2.terminal = some t) ∧
      ds.flatMap Drained.fromStdout ++ (a.drain k waited).2.fromStdout =
        streamEvents k c.stdout.buf ∧
      ds.flatMap Drained.fromStderr ++ (a.drain k waited).2.fromStderr =
        streamEvents k c.stderr.buf := by
  have hfinished : (c.wait waited).exitCode.isSome = true := hseen
  obtain ⟨code, hcode⟩ := Option.isSome_iff_exists.mp hfinished
  obtain ⟨hout, herr⟩ := wait_streams c waited
  rw [drain_eq h.child]
  unfold AdapterState.drainChild
  simp only [hcode, h.quiet, hout, herr]
  obtain ⟨houtState, houtEvents⟩ := h.stdout.close a.providerSessionId
  obtain ⟨herrState, herrEvents⟩ := h.stderr.close
    (consume k c.stdout.buf a.stdout true a.providerSessionId).2.2
  refine ⟨⟨rfl, hseen, rfl, houtState, herrState, ?_, ?_⟩, ⟨_, rfl⟩, houtEvents, herrEvents⟩
  · exact hout ▸ List.prefix_rfl
  · exact herr ▸ List.prefix_rfl

/-- **All moments after it**: every piece is read on its own, and the exit is
not told again. -/
theorem Closed.drains {out err : Bytes} (h : Closed a c out err) (ms : List Moment) :
    (∀ l ∈ c.looks ms, l.finished = true) ∧ (∀ d ∈ a.drains k ms, d.terminal = none) ∧
      (a.drains k ms).flatMap Drained.fromStdout =
        (piecesFrom out ((c.looks ms).map fun l => l.stdout.buf)).flatMap (streamEvents k) ∧
      (a.drains k ms).flatMap Drained.fromStderr =
        (piecesFrom err ((c.looks ms).map fun l => l.stderr.buf)).flatMap (streamEvents k) := by
  induction ms generalizing a c out err with
  | nil => exact ⟨fun l hl => absurd hl List.not_mem_nil, fun d hd => absurd hd List.not_mem_nil,
      rfl, rfl⟩
  | cons m ms ih =>
      obtain ⟨waited, rfl⟩ | hm := drain_or m
      · have hsame : c.wait waited = c := wait_finished h.seen
        obtain ⟨p, hp⟩ := h.stdoutGrows
        obtain ⟨q, hq⟩ := h.stderrGrows
        have hfinished : c.exitCode.isSome = true := h.seen
        obtain ⟨houtState, houtEvents⟩ :=
          consume_late (k := k) (b := out) (p := p) a.providerSessionId
        obtain ⟨herrState, herrEvents⟩ := consume_late (k := k) (b := err) (p := q)
          (consume k c.stdout.buf a.stdout true a.providerSessionId).2.2
        rw [← h.stdout, hp] at houtState houtEvents
        rw [← h.stderr, hq] at herrState herrEvents
        have hdrain : a.drain k waited = a.drainChild k c := by
          rw [drain_eq h.child, hsame]
        have hclosed : Closed (a.drain k waited).1 c c.stdout.buf c.stderr.buf := by
          rw [hdrain]
          unfold AdapterState.drainChild
          simp only [hfinished, h.emitted]
          exact ⟨rfl, h.seen, rfl, houtState, herrState, List.prefix_rfl, List.prefix_rfl⟩
        obtain ⟨hlooks, hterminal, hstdout, hstderr⟩ := ih hclosed
        have hpiece : c.stdout.buf.drop out.length = p := by
          rw [← hp, List.drop_left]
        have hpiece' : c.stderr.buf.drop err.length = q := by
          rw [← hq, List.drop_left]
        have hcons : a.drains k (.drain waited :: ms) =
            (a.drain k waited).2 :: (a.drain k waited).1.drains k ms := rfl
        have hlook : c.looks (.drain waited :: ms) = c :: c.looks ms := by
          show c.wait waited :: (c.wait waited).looks ms = _
          rw [hsame]
        rw [hcons, hlook, List.map_cons, List.map_cons, List.flatMap_cons, List.flatMap_cons,
          piecesFrom, piecesFrom, List.flatMap_cons, List.flatMap_cons, hstdout, hstderr, hpiece,
          hpiece', ← houtEvents, ← herrEvents]
        refine ⟨fun l hl => ?_, fun d hd => ?_, ?_, ?_⟩
        · cases List.mem_cons.mp hl with
          | inl hl =>
              rw [hl]
              exact h.seen
          | inr hl => exact hlooks l hl
        · cases List.mem_cons.mp hd with
          | inl hd =>
              rw [hd, hdrain]
              unfold AdapterState.drainChild
              simp only [h.emitted]
              rfl
          | inr hd => exact hterminal d hd
        · rw [hdrain]
          unfold AdapterState.drainChild
          simp only [hfinished]
        · rw [hdrain]
          unfold AdapterState.drainChild
          simp only [hfinished]
      · obtain ⟨_, hbetween⟩ := step_between (k := k) h.child hm
        have hclosed : Closed (a.step k m).1 (c.step m) out err := by
          refine ⟨hbetween.child, hbetween.seen h.seen, ?_, ?_, ?_,
            h.stdoutGrows.trans hbetween.stdoutGrows, h.stderrGrows.trans hbetween.stderrGrows⟩
          · rw [hbetween.emitted]
            exact h.emitted
          · rw [hbetween.stdout]
            exact h.stdout
          · rw [hbetween.stderr]
            exact h.stderr
        rw [drains_between ms h.child hm, looks_between ms hm]
        exact ih hclosed

end Invariants

/-! ## The terminal event -/

section Terminals

variable {ds : List Drained}

/-- Of two lists around a terminal event, the second is empty and the first
holds no other just when it is the only one and the last. -/
theorem sole_last {α : Type} {T : α → Prop} {t : α} (ht : T t) (xs ys : List α) :
    (∃ before u, xs ++ t :: ys = before ++ [u] ∧ T u ∧ ∀ e ∈ before, ¬T e) ↔
      ys = [] ∧ ∀ e ∈ xs, ¬T e := by
  constructor
  · intro hsole
    obtain ⟨before, u, heq, _, hbefore⟩ := hsole
    have hys : ys = [] := by
      cases hrev : ys.reverse with
      | nil => exact List.reverse_eq_nil_iff.mp hrev
      | cons y rest =>
          have hlast : ys = rest.reverse ++ [y] := by
            rw [← List.reverse_reverse ys, hrev, List.reverse_cons]
          rw [hlast, ← List.cons_append, ← List.append_assoc] at heq
          have hinit := (List.append_inj' heq rfl).1
          have hmem : t ∈ before := by
            rw [← hinit]
            exact List.mem_append_right _ List.mem_cons_self
          exact absurd ht (hbefore t hmem)
    subst hys
    have hinit := (List.append_inj' heq rfl).1
    rw [hinit]
    exact ⟨rfl, hbefore⟩
  · intro hsole
    obtain ⟨rfl, hxs⟩ := hsole
    exact ⟨xs, t, rfl, ht, hxs⟩

/-- Drains that tell of no exit give stream events only. -/
theorem sourced_open (h : ∀ d ∈ ds, d.terminal = none) :
    ds.flatMap Drained.sourced =
      (ds.flatMap fun d => d.fromStdout ++ d.fromStderr).map (Prod.mk .stream) := by
  induction ds with
  | nil => rfl
  | cons d ds ih =>
      have hnone := h d List.mem_cons_self
      have hrest := ih fun e he => h e (List.mem_cons_of_mem d he)
      rw [List.flatMap_cons, List.flatMap_cons, List.map_append, hrest]
      unfold Drained.sourced
      rw [hnone, Option.toList_none, List.map_nil, List.append_nil]

/-- The two streams of some drains together. -/
theorem mem_streams {e : ProviderEvent} :
    (e ∈ ds.flatMap fun d => d.fromStdout ++ d.fromStderr) ↔
      e ∈ ds.flatMap Drained.fromStdout ∨ e ∈ ds.flatMap Drained.fromStderr := by
  simp only [List.mem_flatMap, List.mem_append]
  constructor
  · intro h
    obtain ⟨d, hd, he⟩ := h
    exact he.imp (fun he => ⟨d, hd, he⟩) fun he => ⟨d, hd, he⟩
  · intro h
    cases h with
    | inl h =>
        obtain ⟨d, hd, he⟩ := h
        exact ⟨d, hd, .inl he⟩
    | inr h =>
        obtain ⟨d, hd, he⟩ := h
        exact ⟨d, hd, .inr he⟩

theorem streams_nil :
    (ds.flatMap fun d => d.fromStdout ++ d.fromStderr) = [] ↔
      ds.flatMap Drained.fromStdout = [] ∧ ds.flatMap Drained.fromStderr = [] := by
  simp only [List.eq_nil_iff_forall_not_mem, mem_streams, not_or]
  exact forall_and

end Terminals

/-! ## Every run -/

section Runs

variable {k : LineAdapter} {cap : Nat} {ms : List Moment} {c : PlainChild}

/-- A spawn that succeeds starts a run. -/
theorem spawn_starts {a : AdapterState} {argv : List String} (outputCapBytes : Nat) {waited : Bool}
    (hargv : argv ≠ [])
    (hidle : ((a.poll waited).child.any fun child => child.exitCode.isNone) = false) :
    a.spawn false argv outputCapBytes waited (.ok ()) =
      (spawned (max 1 (min outputCapBytes maxOutputCap)), .ok ()) := by
  unfold AdapterState.spawn
  rw [if_neg (by decide), if_neg hargv]
  simp only [hidle]
  rfl

/-- The first drain that sees the exit. -/
theorem exists_first (h : ∃ l ∈ c.looks ms, l.finished = true) :
    ∃ us waited vs, ms = us ++ .drain waited :: vs ∧ (∀ l ∈ c.looks us, l.finished = false) ∧
      ((c.after us).wait waited).finished = true := by
  induction ms generalizing c with
  | nil =>
      obtain ⟨l, hl, _⟩ := h
      exact absurd hl List.not_mem_nil
  | cons m ms ih =>
      obtain ⟨waited, rfl⟩ | hm := drain_or m
      · by_cases hseen : (c.wait waited).finished = true
        · exact ⟨[], waited, ms, rfl, fun l hl => absurd hl List.not_mem_nil, hseen⟩
        · have hlater : ∃ l ∈ (c.wait waited).looks ms, l.finished = true := by
            obtain ⟨l, hl, hfinished⟩ := h
            cases List.mem_cons.mp (show l ∈ c.wait waited :: (c.wait waited).looks ms from hl) with
            | inl hl =>
                rw [hl] at hfinished
                exact absurd hfinished hseen
            | inr hl => exact ⟨l, hl, hfinished⟩
          obtain ⟨us, w, vs, rfl, hus, hfirst⟩ := ih hlater
          refine ⟨.drain waited :: us, w, vs, rfl, fun l hl => ?_, hfirst⟩
          cases List.mem_cons.mp (show l ∈ c.wait waited :: (c.wait waited).looks us from hl) with
          | inl hl =>
              rw [hl]
              simpa using hseen
          | inr hl => exact hus l hl
      · rw [looks_between ms hm] at h
        obtain ⟨us, w, vs, rfl, hus, hfirst⟩ := ih h
        refine ⟨m :: us, w, vs, rfl, ?_, hfirst⟩
        rw [looks_between us hm]
        exact hus

/-- The run around the first drain that sees the exit: the drains before it,
what it returns, and the drains after it. -/
structure CutAtExit (k : LineAdapter) (cap : Nat) (ms : List Moment) (before : List Drained)
    (d : Drained) (later : List Drained) (seen : PlainChild) (looks : List PlainChild) : Prop where
  drains : (spawned cap).drains k ms = before ++ d :: later
  found : ((newChild cap).looks ms).filter PlainChild.finished = seen :: looks
  unended : ∀ e ∈ before, e.terminal = none
  terminal : ∃ t, d.terminal = some t
  untold : ∀ e ∈ later, e.terminal = none
  stdout : before.flatMap Drained.fromStdout ++ d.fromStdout = streamEvents k seen.stdout.buf
  stderr : before.flatMap Drained.fromStderr ++ d.fromStderr = streamEvents k seen.stderr.buf
  lateOut : later.flatMap Drained.fromStdout =
    (piecesFrom seen.stdout.buf (looks.map fun l => l.stdout.buf)).flatMap (streamEvents k)
  lateErr : later.flatMap Drained.fromStderr =
    (piecesFrom seen.stderr.buf (looks.map fun l => l.stderr.buf)).flatMap (streamEvents k)

/-- **Every run that observes the exit** is cut there. -/
theorem cut_at_exit (k : LineAdapter) (h : ObservesAll cap ms) :
    ∃ before d later seen looks, CutAtExit k cap ms before d later seen looks := by
  obtain ⟨⟨us₀, waited₀, hms⟩, hfinished⟩ := h
  have hlook : ∃ l ∈ (newChild cap).looks ms, l.finished = true := by
    refine ⟨(newChild cap).after ms, ?_, hfinished⟩
    rw [hms, looks_append]
    refine List.mem_append_right _ ?_
    have hlast : (newChild cap).after (us₀ ++ [.drain waited₀]) =
        ((newChild cap).after us₀).wait waited₀ := by
      unfold PlainChild.after
      rw [List.foldl_append]
      rfl
    rw [hlast]
    exact List.mem_cons_self
  obtain ⟨us, waited, vs, hcut, hunseen, hseen⟩ := exists_first hlook
  have hstart : Open k (spawned cap) (newChild cap) [] :=
    ⟨rfl, rfl, ⟨[], List.prefix_rfl, rfl, rfl⟩, ⟨[], List.prefix_rfl, rfl, rfl⟩,
      fun d hd => absurd hd List.not_mem_nil⟩
  have hopen := hstart.run us hunseen
  rw [List.nil_append] at hopen
  obtain ⟨hclosed, hterminal, hstdout, hstderr⟩ := hopen.close hseen
  obtain ⟨hlooks, huntold, hlateOut, hlateErr⟩ := hclosed.drains (k := k) vs
  obtain ⟨hout, herr⟩ := wait_streams ((newChild cap).after us) waited
  refine ⟨(spawned cap).drains k us, (((spawned cap).after k us).drain k waited).2,
    (((spawned cap).after k us).drain k waited).1.drains k vs,
    ((newChild cap).after us).wait waited, (((newChild cap).after us).wait waited).looks vs, ?_⟩
  refine ⟨?_, ?_, hopen.unended, hterminal, huntold, ?_, ?_, ?_, ?_⟩
  · rw [hcut, drains_append]
    rfl
  · have hus : ((newChild cap).looks us).filter PlainChild.finished = [] := by
      rw [List.filter_eq_nil_iff]
      intro l hl
      rw [hunseen l hl]
      decide
    rw [hcut, looks_append, List.filter_append, hus, List.nil_append]
    show (((newChild cap).after us).wait waited ::
      (((newChild cap).after us).wait waited).looks vs).filter PlainChild.finished = _
    rw [List.filter_cons_of_pos hseen, List.filter_eq_self.mpr hlooks]
  · rw [hout]
    exact hstdout
  · rw [herr]
    exact hstderr
  · rw [hout]
    exact hlateOut
  · rw [herr]
    exact hlateErr

/-- **The events do not depend on the moments** just when the pumps were in
time for the exit and no line announces that the workflow is over. -/
theorem stream_timing_iff (k : LineAdapter) (cap : Nat) (ms : List Moment)
    (h : ObservesAll cap ms) : TimingFree k cap ms ↔ Punctual k cap ms := by
  obtain ⟨before, d, later, seen, looks, hcut⟩ := cut_at_exit k h
  obtain ⟨t, ht⟩ := hcut.terminal
  -- all events of a stream are those up to the exit and those of the late pieces
  have hout : ((spawned cap).drains k ms).flatMap Drained.fromStdout =
      streamEvents k seen.stdout.buf ++ later.flatMap Drained.fromStdout := by
    rw [hcut.drains, List.flatMap_append, List.flatMap_cons, ← List.append_assoc, hcut.stdout]
  have herr : ((spawned cap).drains k ms).flatMap Drained.fromStderr =
      streamEvents k seen.stderr.buf ++ later.flatMap Drained.fromStderr := by
    rw [hcut.drains, List.flatMap_append, List.flatMap_cons, ← List.append_assoc, hcut.stderr]
  have hsourced : ((spawned cap).drains k ms).flatMap Drained.sourced =
      ((before.flatMap fun d => d.fromStdout ++ d.fromStderr) ++
          (d.fromStdout ++ d.fromStderr)).map (Prod.mk .stream) ++
        (.exit, t) ::
          (later.flatMap fun d => d.fromStdout ++ d.fromStderr).map (Prod.mk .stream) := by
    rw [hcut.drains, List.flatMap_append, List.flatMap_cons, sourced_open hcut.unended,
      sourced_open hcut.untold]
    unfold Drained.sourced
    rw [ht]
    simp
  have hlast := sole_last (T := Terminal) (t := (.exit, t)) (.inl rfl)
    (((before.flatMap fun d => d.fromStdout ++ d.fromStderr) ++
      (d.fromStdout ++ d.fromStderr)).map (Prod.mk .stream))
    ((later.flatMap fun d => d.fromStdout ++ d.fromStderr).map (Prod.mk .stream))
  rw [← hsourced, List.map_eq_nil_iff, streams_nil, hcut.lateOut, hcut.lateErr,
    List.flatMap_eq_nil_iff, List.flatMap_eq_nil_iff] at hlast
  have hquiet : (∀ e ∈ ((before.flatMap fun d => d.fromStdout ++ d.fromStderr) ++
        (d.fromStdout ++ d.fromStderr)).map (Prod.mk Origin.stream), ¬Terminal e) ↔
      ∀ e, e ∈ streamEvents k seen.stdout.buf ∨ e ∈ streamEvents k seen.stderr.buf →
        ¬EndsWorkflow e := by
    rw [← hcut.stdout, ← hcut.stderr]
    simp only [List.mem_map, List.mem_append, mem_streams]
    constructor
    · intro hno e he hends
      refine hno (.stream, e) ⟨e, ?_, rfl⟩ (.inr hends)
      tauto
    · intro hno x hx hends
      obtain ⟨e, he, rfl⟩ := hx
      cases hends with
      | inl hexit => cases hexit
      | inr hends => exact hno e (by tauto) hends
  rw [hquiet] at hlast
  constructor
  · intro hfree
    obtain ⟨⟨hpiecesOut, hpiecesErr⟩, hunannounced⟩ := hlast.mp hfree.last
    have hwholeOut : streamEvents k seen.stdout.buf =
        streamEvents k ((newChild cap).after ms).stdout.buf := by
      rw [← hfree.stdout, hout, hcut.lateOut, List.flatMap_eq_nil_iff.mpr hpiecesOut, List.append_nil]
    have hwholeErr : streamEvents k seen.stderr.buf =
        streamEvents k ((newChild cap).after ms).stderr.buf := by
      rw [← hfree.stderr, herr, hcut.lateErr, List.flatMap_eq_nil_iff.mpr hpiecesErr, List.append_nil]
    refine ⟨⟨seen.stdout.buf, looks.map fun l => l.stdout.buf, ?_, hwholeOut, hpiecesOut⟩,
      ⟨seen.stderr.buf, looks.map fun l => l.stderr.buf, ?_, hwholeErr, hpiecesErr⟩, ?_⟩
    · rw [hcut.found]
      rfl
    · rw [hcut.found]
      rfl
    · rw [← hwholeOut, ← hwholeErr]
      exact hunannounced
  · intro hpunctual
    obtain ⟨firstOut, laterOut, hseenOut, hwholeOut, hpiecesOut⟩ := hpunctual.stdout
    obtain ⟨firstErr, laterErr, hseenErr, hwholeErr, hpiecesErr⟩ := hpunctual.stderr
    rw [hcut.found, List.map_cons] at hseenOut hseenErr
    obtain ⟨rfl, rfl⟩ := List.cons.inj hseenOut
    obtain ⟨rfl, rfl⟩ := List.cons.inj hseenErr
    have hunannounced := hpunctual.unannounced
    rw [← hwholeOut, ← hwholeErr] at hunannounced
    refine ⟨?_, ?_, hlast.mpr ⟨⟨hpiecesOut, hpiecesErr⟩, hunannounced⟩⟩
    · rw [hout, hcut.lateOut, List.flatMap_eq_nil_iff.mpr hpiecesOut, List.append_nil]
      exact hwholeOut
    · rw [herr, hcut.lateErr, List.flatMap_eq_nil_iff.mpr hpiecesErr, List.append_nil]
      exact hwholeErr

/-- The bytes of an ASCII text. -/
def ascii (s : String) : Bytes := s.toList.map fun c => UInt8.ofNat c.toNat

/-- A line in two pieces, then the exit. -/
def promptRun : List Moment :=
  [.stdout (ascii "CODEX_STEP a"), .drain true, .stdout (ascii "b\n"), .ends 0, .drain true]

theorem stream_timing_iff_sample : TimingFree .codex 4096 promptRun ↔
    Punctual .codex 4096 promptRun :=
  stream_timing_iff .codex 4096 promptRun
    ⟨⟨[.stdout (ascii "CODEX_STEP a"), .drain true, .stdout (ascii "b\n"), .ends 0], true, rfl⟩, rfl⟩

/-- The exit is seen before the pump has delivered the end of a line. -/
def lateRun : List Moment :=
  [.stdout (ascii "CLAUDE_STEP a"), .ends 0, .drain true, .stdout (ascii "b\n"), .drain true]

/-- **A late line is cut.**  The drains report the step `a`; the stream says
`ab`. -/
theorem late_line_is_cut :
    ¬ ∀ (k : LineAdapter) (cap : Nat) (ms : List Moment), ObservesAll cap ms →
      TimingFree k cap ms := by
  intro hall
  have hobserves : ObservesAll 4096 lateRun :=
    ⟨⟨[.stdout (ascii "CLAUDE_STEP a"), .ends 0, .drain true, .stdout (ascii "b\n")], true, rfl⟩, rfl⟩
  have hfree := (hall .claude 4096 lateRun hobserves).stdout
  have hdrained : ((spawned 4096).drains .claude lateRun).flatMap Drained.fromStdout =
      [⟨.commandStarted, "a", none⟩] := by decide
  have hparsed : streamEvents .claude ((newChild 4096).after lateRun).stdout.buf =
      [⟨.commandStarted, "ab", none⟩] := by decide
  rw [hdrained, hparsed] at hfree
  exact absurd hfree (by decide)

end Runs

end Calcar.Agent
