import Calcar.Agent.Adapters
import Calcar.Agent.Machine
import Calcar.Lib.Newest

/-!
# What a tail file holds

The text side of `exec.rs`: `tail_bytes`, and what `write_tail` writes of the output of a run.
A slice of a string that does not start at a character is `none`; the code would panic there.
-/

namespace Calcar.Agent

open Lib Utf8

/-- `TAIL_FILE_BYTES`. -/
def tailFileBytes : Nat := 256 * 1024

/-- The loop of `tail_bytes`: on to the next byte that starts a character, or to the end. -/
def nextBoundary : Bytes → Nat → Nat
  | [], start => start
  | b :: rest, start => if continues b then nextBoundary rest (start + 1) else start

/-- `tail_bytes`. -/
def tailBytes (text : List Char) (maxBytes : Nat) : Option (List Char × Bool) :=
  let bytes := asBytes text
  if bytes.length ≤ maxBytes then some (text, false)
  else
    let start := bytes.length - maxBytes
    (fromUtf8 (bytes.drop (nextBoundary (bytes.drop start) start))).map (·, true)

/-- What stands between the two streams. -/
def stderrMark : List Char := "\n--- stderr ---\n".toList

/-- What stands in front of a text that is not whole. -/
def truncatedMark : List Char := "...truncated\n".toList

/-- Both streams of a run as one text. -/
def outputText (outcome : ExecOutcome) : List Char :=
  let stderr := (fromUtf8Lossy outcome.stderr).toList
  (fromUtf8Lossy outcome.stdout).toList ++ if stderr = [] then [] else stderrMark ++ stderr

/-- The body `write_tail` writes, and its flag. -/
def tailBody (outcome : ExecOutcome) : Option (List Char × Bool) :=
  match tailBytes (outputText outcome) tailFileBytes with
  | none => none
  | some (kept, cut) =>
      let fileCut := cut || outcome.truncated
      some ((if fileCut then truncatedMark else []) ++ kept, fileCut)

end Calcar.Agent
