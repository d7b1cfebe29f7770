import Calcar.Agent.Adapters
import Calcar.Agent.CommandLine

/-!
# The generic adapter

`generic.rs` of `calcar-adapters`: any command, over the plain child of the line
adapters.  Its lines carry no meaning and are passed on as they are; the adapter
counts the ones it has passed on, and decodes the whole capture at each drain.

The capture is cloned before the exit is polled.  What the pumps deliver and how
the process ends between the two is not in the clone, so a drain is one step.
-/

namespace Calcar.Agent

open Lib

/-! ## Lines of a text -/

/-- `strip_suffix('\r')`. -/
def stripCr (line : List Char) : List Char :=
  if line.getLast? = some '\r' then line.dropLast else line

/-- `str::lines`: a line that has not ended keeps its carriage return. -/
def textLines (text : String) : List String :=
  (Lines.split '\n' text.toList).1.map (fun line => String.ofList (stripCr line)) ++
    (Lines.closing (Lines.split '\n' text.toList).2).map String.ofList

/-- `ends_with('\n')`. -/
def endsWithNewline (text : String) : Bool := text.toList.getLast? == some '\n'

/-! ## The adapter -/

/-- `GenericAdapter`. -/
structure GenericAdapter where
  child : Option PlainChild := none
  pendingStarted : Option ProviderEvent := none
  emittedLines : Nat := 0
  completed : Bool := false
  deriving DecidableEq, Repr

/-- `PlainChild::spawn`, with what the operating system makes of it. -/
def PlainChild.spawn (argv : List String) (outputCapBytes : Nat) (started : Except PtyError Unit) :
    Except PtyError PlainChild :=
  match Plain.commandLine argv with
  | .error e => .error e
  | .ok _ =>
      let cap := max 1 (min outputCapBytes maxOutputCap)
      match started with
      | .error e => .error e
      | .ok () => .ok { stdout := { cap := cap }, stderr := { cap := cap } }

/-- `map_spawn_error`. -/
def mapSpawnError : PtyError → AdapterError
  | .io text => .io text
  | other => .spawnFailed other.text

/-- The event `spawn` records. -/
def startedEvent (argv : List String) : ProviderEvent :=
  ⟨.commandStarted, "started: " ++ " ".intercalate argv, none⟩

/-- `spawn`. -/
def GenericAdapter.spawn (g : GenericAdapter) (interactive : Bool) (argv : List String)
    (outputCapBytes : Nat) (started : Except PtyError Unit) :
    GenericAdapter × Except AdapterError Unit :=
  if interactive then (g, .error .unsupported)
  else
    match PlainChild.spawn argv outputCapBytes started with
    | .error e => (g, .error (mapSpawnError e))
    | .ok child => (⟨some child, some (startedEvent argv), 0, false⟩, .ok ())

/-- The event of a line. -/
def lineEvent (line : String) : ProviderEvent := ⟨.unspecified, line, none⟩

/-- How many lines of a capture may be passed on. -/
def emitUpTo (exited : Bool) (text : String) (emittedLines : Nat) : Nat :=
  let total := (textLines text).length
  if !exited && !endsWithNewline text && emittedLines < total then total - 1 else total

/-- The events of the exit. -/
def exitEvents (stderr : Bytes) (code : UInt32) : List ProviderEvent :=
  (if stderr = [] then [] else [⟨.errorOccurred, fromUtf8Lossy stderr, none⟩]) ++
    [⟨.commandCompleted, "completed with exit code " ++ toString code.toNat, none⟩]

/-- `drain` of a child that has been polled. -/
def GenericAdapter.drainChild (g : GenericAdapter) (child : PlainChild) :
    GenericAdapter × List ProviderEvent :=
  let text := fromUtf8Lossy child.stdout.buf
  let upTo := emitUpTo child.exitCode.isSome text g.emittedLines
  let start := min g.emittedLines upTo
  ({ g with child := some child, emittedLines := upTo, completed := g.completed || child.exitCode.isSome },
    (((textLines text).take upTo).drop start).map lineEvent ++
      (child.exitCode.map (exitEvents child.stderr.buf)).getD [])

/-- `drain`. -/
def GenericAdapter.drain (g : GenericAdapter) (waited : Bool) :
    GenericAdapter × List ProviderEvent :=
  let taken := { g with pendingStarted := none }
  let started := g.pendingStarted.toList
  match g.completed, g.child with
  | true, _ => (taken, started)
  | false, none => (taken, started)
  | false, some child =>
      ((taken.drainChild (child.wait waited)).1,
        started ++ (taken.drainChild (child.wait waited)).2)

/-- `stop`; `kill` does not fail. -/
def GenericAdapter.stop (g : GenericAdapter) : GenericAdapter × Except AdapterError Unit :=
  (g, .ok ())

/-- `snapshot`, which polls. -/
def GenericAdapter.snapshot (g : GenericAdapter) (waited : Bool) : AdapterSnapshot :=
  match g.child with
  | none => ⟨false, none, none, none⟩
  | some child =>
      let exitCode := (child.wait waited).exitCode
      ⟨exitCode.isNone, exitCode, none, none⟩

/-- What a `snapshot` leaves behind: the child has been polled. -/
def GenericAdapter.poll (g : GenericAdapter) (waited : Bool) : GenericAdapter :=
  { g with child := g.child.map fun child => child.wait waited }

end Calcar.Agent
