import Calcar.Agent.Adapters

/-!
# What a sink has captured

A sink is pushed chunk by chunk and keeps what fits under its cap.  After any chunks it
holds the first bytes of what they make up together, so what is captured does not
depend on how the stream was cut.

## Main results

* `CappedSink.Holds.push` — a chunk goes behind the stream so far.
* `capture_sink` — any chunks, and any reads of the pump.
-/

namespace Calcar.Agent

namespace CappedSink

/-- The sink has captured the stream: its first bytes, and a flag where it is longer. -/
structure Holds (stream : Bytes) (s : CappedSink) : Prop where
  buf : s.buf = stream.take s.cap
  truncated : s.truncated = true ↔ s.cap < stream.length

theorem holds_new (cap : Nat) : Holds [] { cap := cap } where
  buf := by simp
  truncated := by simp

@[simp] theorem push_cap (s : CappedSink) (chunk : Bytes) : (s.push chunk).cap = s.cap := rfl

/-- **One push.** -/
theorem Holds.push {stream : Bytes} {s : CappedSink} (h : s.Holds stream) (chunk : Bytes) :
    (s.push chunk).Holds (stream ++ chunk) := by
  have hroom : s.cap - s.buf.length = s.cap - stream.length := by
    rw [h.buf, List.length_take]
    omega
  have htrunc := h.truncated
  constructor
  · show s.buf ++ chunk.take (min (s.cap - s.buf.length) chunk.length) = _
    rw [hroom, ← List.take_eq_take_min, push_cap, List.take_append, h.buf]
  · show (s.truncated || decide (min (s.cap - s.buf.length) chunk.length < chunk.length)) = true ↔ _
    rw [hroom, push_cap, List.length_append, Bool.or_eq_true, htrunc, decide_eq_true_eq]
    omega

/-- Some pushes. -/
theorem Holds.pushAll {stream : Bytes} {s : CappedSink} (h : s.Holds stream)
    (chunks : List Bytes) : (chunks.foldl CappedSink.push s).Holds (stream ++ chunks.flatten) := by
  induction chunks generalizing stream s with
  | nil => simpa using h
  | cons chunk chunks ih =>
      have hrest := ih (h.push chunk)
      simpa [List.append_assoc] using hrest

theorem pushAll_cap (s : CappedSink) (chunks : List Bytes) :
    (chunks.foldl CappedSink.push s).cap = s.cap := by
  induction chunks generalizing s with
  | nil => rfl
  | cons chunk chunks ih => rw [List.foldl_cons, ih, push_cap]

end CappedSink

/-- The chunks that `pump_stream` pushes: up to the end of the stream, or an error. -/
def delivered : List ReadResult → List Bytes
  | [] => []
  | .ok [] :: _ => []
  | .ok chunk :: reads => chunk :: delivered reads
  | .failed :: _ => []

/-- The pump pushes what it is delivered. -/
theorem pumpStream_eq (reads : List ReadResult) (s : CappedSink) :
    pumpStream reads s = (delivered reads).foldl CappedSink.push s := by
  induction reads generalizing s with
  | nil => rfl
  | cons read reads ih =>
      cases read with
      | failed => rfl
      | ok chunk =>
          cases chunk with
          | nil => rfl
          | cons b chunk => simp [pumpStream, delivered, ih]

/-- **Capture.**  However a stream is cut into chunks, empty ones among them, the sink
holds its first `cap` bytes and is flagged exactly where the stream is longer; and so it
is with the chunks that any reads deliver to the pump. -/
theorem capture_sink (cap : Nat) (stream : Bytes) :
    (∀ chunks : List Bytes, chunks.flatten = stream →
      (chunks.foldl CappedSink.push { cap := cap }).buf = stream.take cap ∧
        ((chunks.foldl CappedSink.push { cap := cap }).truncated = true ↔
          cap < stream.length)) ∧
    ∀ reads : List ReadResult, (delivered reads).flatten = stream →
      (pumpStream reads { cap := cap }).buf = stream.take cap ∧
        ((pumpStream reads { cap := cap }).truncated = true ↔ cap < stream.length) := by
  have hpush : ∀ chunks : List Bytes, chunks.flatten = stream →
      (chunks.foldl CappedSink.push { cap := cap }).buf = stream.take cap ∧
        ((chunks.foldl CappedSink.push { cap := cap }).truncated = true ↔
          cap < stream.length) := by
    intro chunks hstream
    have hholds := (CappedSink.holds_new cap).pushAll chunks
    have hcap := CappedSink.pushAll_cap { cap := cap } chunks
    rw [List.nil_append, hstream] at hholds
    have hbuf := hholds.buf
    have htrunc := hholds.truncated
    rw [hcap] at hbuf htrunc
    exact ⟨hbuf, htrunc⟩
  constructor
  · exact hpush
  · intro reads hstream
    rw [pumpStream_eq]
    exact hpush (delivered reads) hstream

/-- A chunk that ends at the cap, an empty one, and one byte more. -/
theorem capture_sink_sample :
    ([[1, 2], [3, 4], [], [5]].foldl CappedSink.push { cap := 4 }).buf = [1, 2, 3, 4] ∧
      ((pumpStream [.ok [1, 2], .ok [3, 4], .ok []] { cap := 4 }).truncated = true ↔ 4 < 4) :=
  ⟨((capture_sink 4 [1, 2, 3, 4, 5]).1 [[1, 2], [3, 4], [], [5]] rfl).1,
    ((capture_sink 4 [1, 2, 3, 4]).2 [.ok [1, 2], .ok [3, 4], .ok []] rfl).2⟩

end Calcar.Agent
