import Calcar.Agent.Types
import Calcar.Lib.Lines
import Calcar.Text

/-!
# The line adapters

The three adapters of `calcar-adapters` that read marker lines: `claude.rs`,
`codex.rs` and `opencode.rs`.  They differ in the prefix of their lines and in
nothing else here.  Under them is the child process of `plain.rs`, with its two
output buffers.

Rust's `&str` patterns are cut on lists of characters.  Of the child, the
handles, the threads and the input are left out.
-/

namespace Calcar.Agent

open Lib

/-! ## Text -/

/-- A byte that continues a character. -/
def isContinuation (b : UInt8) : Bool := b.toNat / 64 == 2

/-- The second bytes that may follow a first byte of three or four. -/
def secondOf (b c : UInt8) : Bool :=
  let n := c.toNat
  match b.toNat with
  | 0xE0 => 0xA0 ≤ n && n ≤ 0xBF
  | 0xED => 0x80 ≤ n && n ≤ 0x9F
  | 0xF0 => 0x90 ≤ n && n ≤ 0xBF
  | 0xF4 => 0x80 ≤ n && n ≤ 0x8F
  | _ => isContinuation c

/-- The low six bits of a byte. -/
def lowSix (b : UInt8) : Nat := b.toNat % 64

/-- U+FFFD. -/
def replacement : Char := Char.ofNat 0xFFFD

/-- The first character of some bytes and the bytes behind it; a sequence that
breaks off is replaced as far as it was valid. -/
def lossyChar (b : UInt8) (rest : Bytes) : Char × Bytes :=
  if b.toNat < 0x80 then (Char.ofNat b.toNat, rest)
  else if 0xC2 ≤ b.toNat ∧ b.toNat ≤ 0xDF then
    match rest with
    | c :: more =>
        if isContinuation c then (Char.ofNat (b.toNat % 32 * 64 + lowSix c), more)
        else (replacement, rest)
    | [] => (replacement, rest)
  else if 0xE0 ≤ b.toNat ∧ b.toNat ≤ 0xEF then
    match rest with
    | c :: d :: more =>
        if secondOf b c then
          if isContinuation d then
            (Char.ofNat ((b.toNat % 16 * 64 + lowSix c) * 64 + lowSix d), more)
          else (replacement, d :: more)
        else (replacement, rest)
    | [c] => if secondOf b c then (replacement, []) else (replacement, rest)
    | [] => (replacement, rest)
  else if 0xF0 ≤ b.toNat ∧ b.toNat ≤ 0xF4 then
    match rest with
    | c :: d :: e :: more =>
        if secondOf b c then
          if isContinuation d then
            if isContinuation e then
              (Char.ofNat (((b.toNat % 8 * 64 + lowSix c) * 64 + lowSix d) * 64 + lowSix e), more)
            else (replacement, e :: more)
          else (replacement, d :: e :: more)
        else (replacement, rest)
    | [c, d] =>
        if secondOf b c then
          if isContinuation d then (replacement, []) else (replacement, [d])
        else (replacement, rest)
    | [c] => if secondOf b c then (replacement, []) else (replacement, rest)
    | [] => (replacement, rest)
  else (replacement, rest)

/-- The characters of at most so many bytes. -/
def lossyChars : Nat → Bytes → List Char
  | 0, _ => []
  | _ + 1, [] => []
  | n + 1, b :: rest => (lossyChar b rest).1 :: lossyChars n (lossyChar b rest).2

/-- `String::from_utf8_lossy`. -/
def fromUtf8Lossy (bytes : Bytes) : String := String.ofList (lossyChars bytes.length bytes)

/-- `trim_end_matches('\r')`. -/
def trimEndCr (s : String) : String :=
  String.ofList ((s.toList.reverse.dropWhile fun c => c = '\r').reverse)

/-- `strip_prefix`. -/
def stripLead (lead s : String) : Option String :=
  if s.toList.take lead.toList.length = lead.toList then
    some (String.ofList (s.toList.drop lead.toList.length))
  else none

/-- The text up to the first blank, and the text behind it without the blanks
it starts with. -/
def cutAtBlank (s : String) : String × String :=
  let head := s.toList.takeWhile fun c => c ≠ ' '
  let behind := s.toList.drop (head.length + 1)
  (String.ofList head, String.ofList (behind.dropWhile Text.isSpace))

/-- `split_whitespace().next()`. -/
def firstWord (s : String) : Option String :=
  match (s.toList.dropWhile Text.isSpace).takeWhile fun c => !Text.isSpace c with
  | [] => none
  | word => some (String.ofList word)

/-! ## Events -/

/-- `ProviderEvent`. -/
structure ProviderEvent where
  eventType : EventType
  summary : String
  detailPointer : Option String := none
  deriving DecidableEq, Repr

/-- The adapters that read marker lines. -/
inductive LineAdapter where
  | claude
  | codex
  | opencode
  deriving DecidableEq, Repr

/-- `PREFIX` of each adapter. -/
def LineAdapter.lead : LineAdapter → String
  | claude => "CLAUDE_"
  | codex => "CODEX_"
  | opencode => "OPENCODE_"

/-- What `parse_line` makes of a line: the events it pushes, and the session it
sets if it sets one. -/
def readLine (k : LineAdapter) (line : String) : List ProviderEvent × Option String :=
  match stripLead k.lead line with
  | none => ([], none)
  | some rest =>
      let verb := (cutAtBlank rest).1
      let payload := (cutAtBlank rest).2
      if verb = "START" then ([⟨.agentStarted, payload, none⟩], none)
      else if verb = "STEP" then ([⟨.commandStarted, payload, none⟩], none)
      else if verb = "DONE" then ([⟨.commandCompleted, payload, none⟩], none)
      else if verb = "FILE" then ([⟨.fileChanged, payload, firstWord payload⟩], none)
      else if verb = "APPROVAL" then
        let id := (cutAtBlank payload).1
        ([⟨.approvalRequired, (cutAtBlank payload).2, if id = "" then none else some id⟩], none)
      else if verb = "INPUT" then ([⟨.inputRequired, payload, none⟩], none)
      else if verb = "ERROR" then ([⟨.errorOccurred, payload, none⟩], none)
      else if verb = "EXIT" then
        let status := (cutAtBlank payload).1
        let summary := (cutAtBlank payload).2
        if status = "ok" then ([⟨.workflowCompleted, summary, none⟩], none)
        else if status = "fail" then ([⟨.errorOccurred, summary, none⟩], none)
        else ([], none)
      else if verb = "SESSION" then
        let id := Text.trimSpace payload
        ([], if id = "" then none else some id)
      else ([], none)

/-- `parse_line`: the events it pushes, and the session afterwards. -/
def parseLine (k : LineAdapter) (line : String) (session : Option String) :
    List ProviderEvent × Option String :=
  ((readLine k line).1, (readLine k line).2.or session)

/-- The lines of a batch, one after another. -/
def parseLines (k : LineAdapter) :
    List Bytes → Option String → List ProviderEvent × Option String
  | [], session => ([], session)
  | line :: lines, session =>
      let first := parseLine k (trimEndCr (fromUtf8Lossy line)) session
      let others := parseLines k lines first.2
      (first.1 ++ others.1, others.2)

/-- The byte `\n`. -/
def newline : UInt8 := 10

/-- Where the adapter is in one stream. -/
structure StreamState where
  cursor : Nat := 0
  tail : Bytes := []
  deriving DecidableEq, Repr

/-- `consume`: the stream's state, the events it pushes, and the session. -/
def consume (k : LineAdapter) (bytes : Bytes) (s : StreamState) (finished : Bool)
    (session : Option String) : StreamState × List ProviderEvent × Option String :=
  let start := min s.cursor bytes.length
  let tail := s.tail ++ bytes.drop start
  let lines := if finished then Lines.all newline tail else (Lines.split newline tail).1
  let kept := if finished then [] else (Lines.split newline tail).2
  (⟨bytes.length, kept⟩, parseLines k lines session)

/-! ## The child -/

/-- `CappedSink`. -/
structure CappedSink where
  buf : Bytes := []
  cap : Nat
  truncated : Bool := false
  deriving DecidableEq, Repr

/-- `CappedSink::push`. -/
def CappedSink.push (s : CappedSink) (chunk : Bytes) : CappedSink :=
  let keep := min (s.cap - s.buf.length) chunk.length
  { s with
    buf := s.buf ++ chunk.take keep
    truncated := s.truncated || decide (keep < chunk.length) }

/-- What `read` returns; no bytes at the end of the stream. -/
inductive ReadResult where
  | ok (bytes : Bytes)
  | failed
  deriving DecidableEq, Repr

/-- `pump_stream`, on what its reads return. -/
def pumpStream : List ReadResult → CappedSink → CappedSink
  | [], sink => sink
  | .ok [] :: _, sink => sink
  | .ok chunk :: reads, sink => pumpStream reads (sink.push chunk)
  | .failed :: _, sink => sink

/-- `PlainChild`: the two sinks, the code the process has ended with, and the
code `wait` has cached. -/
structure PlainChild where
  stdout : CappedSink
  stderr : CappedSink
  ended : Option UInt32 := none
  exitCode : Option UInt32 := none
  deriving DecidableEq, Repr

/-- `wait` with no time to wait; it may fail. -/
def PlainChild.wait (c : PlainChild) (ok : Bool) : PlainChild :=
  match c.exitCode with
  | some _ => c
  | none => if ok then { c with exitCode := c.ended } else c

/-! ## The adapter -/

/-- `ClaudeAdapter`, `CodexAdapter`, `OpencodeAdapter`. -/
structure AdapterState where
  child : Option PlainChild := none
  stdout : StreamState := {}
  stderr : StreamState := {}
  providerSessionId : Option String := none
  stopRequested : Bool := false
  terminalEmitted : Bool := false
  deriving DecidableEq, Repr

/-- What one drain returns, apart by where it comes from. -/
structure Drained where
  fromStdout : List ProviderEvent := []
  fromStderr : List ProviderEvent := []
  terminal : Option ProviderEvent := none
  deriving DecidableEq, Repr

/-- The events in the order they are pushed. -/
def Drained.events (d : Drained) : List ProviderEvent :=
  d.fromStdout ++ d.fromStderr ++ d.terminal.toList

/-- The event of the exit. -/
def terminalEvent (stopRequested : Bool) (code : UInt32) : ProviderEvent :=
  if stopRequested then ⟨.workflowStopped, "stopped", none⟩
  else if code = 0 then ⟨.workflowCompleted, "exit 0", none⟩
  else ⟨.errorOccurred, "exit " ++ toString code.toNat, none⟩

/-- `drain` of a child that has been polled. -/
def AdapterState.drainChild (k : LineAdapter) (a : AdapterState) (child : PlainChild) :
    AdapterState × Drained :=
  let finished := child.exitCode.isSome
  let out := consume k child.stdout.buf a.stdout finished a.providerSessionId
  let err := consume k child.stderr.buf a.stderr finished out.2.2
  ({ a with
      child := some child
      stdout := out.1
      stderr := err.1
      providerSessionId := err.2.2
      terminalEmitted := a.terminalEmitted || finished },
    { fromStdout := out.2.1
      fromStderr := err.2.1
      terminal :=
        if a.terminalEmitted then none else child.exitCode.map (terminalEvent a.stopRequested) })

/-- `drain`. -/
def AdapterState.drain (k : LineAdapter) (a : AdapterState) (waited : Bool) :
    AdapterState × Drained :=
  match a.child with
  | none => (a, {})
  | some child => a.drainChild k (child.wait waited)

/-- `AdapterError`, as far as it is raised here. -/
inductive AdapterError where
  | spawnFailed (text : String)
  | notRunning
  | unsupported
  | io (text : String)
  deriving DecidableEq, Repr

/-- `stop`; `kill` does not fail. -/
def AdapterState.stop (a : AdapterState) : AdapterState × Except AdapterError Unit :=
  match a.child with
  | none => (a, .error .notRunning)
  | some _ => ({ a with stopRequested := true }, .ok ())

/-- `is_running`, which polls. -/
def AdapterState.poll (a : AdapterState) (waited : Bool) : AdapterState :=
  { a with child := a.child.map fun child => child.wait waited }

/-- `AdapterSnapshot`. -/
structure AdapterSnapshot where
  running : Bool
  exitCode : Option UInt32
  providerSessionId : Option String
  resumePointer : Option String
  deriving DecidableEq, Repr

/-- `snapshot`, which polls. -/
def AdapterState.snapshot (a : AdapterState) (waited : Bool) : AdapterSnapshot :=
  match a.child with
  | none => ⟨false, none, a.providerSessionId, a.providerSessionId⟩
  | some child =>
      let exitCode := (child.wait waited).exitCode
      ⟨exitCode.isNone, exitCode, a.providerSessionId, a.providerSessionId⟩

/-- The ceiling of the output cap. -/
def maxOutputCap : Nat := 64 * 1024 * 1024

/-- `spawn`, with what the operating system makes of it. -/
def AdapterState.spawn (a : AdapterState) (interactive : Bool) (argv : List String)
    (outputCapBytes : Nat) (waited : Bool) (started : Except String Unit) :
    AdapterState × Except AdapterError Unit :=
  if interactive then (a, .error .unsupported)
  else if argv = [] then (a, .error (.spawnFailed "argv is empty"))
  else
    let polled := a.poll waited
    if polled.child.any fun child => child.exitCode.isNone then
      (polled, .error (.spawnFailed "already running"))
    else
      match started with
      | .error text => ({}, .error (.spawnFailed text))
      | .ok () =>
          let cap := max 1 (min outputCapBytes maxOutputCap)
          ({ child := some { stdout := { cap := cap }, stderr := { cap := cap } } }, .ok ())

end Calcar.Agent
