import Calcar.Lib.Budget
import Calcar.Phone.Approvals

/-!
# The buffers of a workflow

`WorkflowBuffers` with every list it holds, and the caps of `caps.dart` and
`models.dart`, which go over texts of any kind.  The buffers hold texts of characters, whose
length in UTF-8 is `utf8ByteSize`.
-/

namespace Calcar.Phone.Workflow

/-- `BufferedActivity`. -/
structure BufferedActivity where
  id : String
  kind : String
  text : String
  atMillis : Int
  seqNo : Int
  deriving DecidableEq, Repr

/-- `BufferedChat`. -/
structure BufferedChat where
  messageId : String
  body : String
  outbound : Bool := false
  sendState : String := "sent"
  seqNo : Int := 0
  deriving DecidableEq, Repr

/-- `BufferedFile`, with texts of some kind. -/
structure BufferedFileOf (T : Type) where
  path : T
  diff : T
  truncated : Bool := false
  deriving DecidableEq, Repr

/-- `BufferedFile`. -/
abbrev BufferedFile := BufferedFileOf String

/-- `WorkflowBuffers`, the lists beside the approvals included. -/
structure Buffers extends WorkflowBuffers where
  activity : List BufferedActivity := []
  chat : List BufferedChat := []
  terminalLines : List String := []
  terminalTotalLines : Nat := 0
  files : List BufferedFile := []
  filesTruncated : Bool := false
  deriving DecidableEq, Repr

/-! ## Caps -/

def kChatCap : Nat := 300
def kActivityCap : Nat := 500
def kTerminalLineCap : Nat := 2000
def kTerminalByteCap : Nat := 256 * 1024
def kDiffFileCap : Nat := 50
def kDiffByteCap : Nat := 200 * 1024

/-- `tailOf`. -/
def tailOf {T : Type} (items : List T) (cap : Nat) : List T :=
  items.drop (items.length - cap)

/-- A kind of texts, as the caps use it: `utf8.encode(text).length`, `headBytes`, and what
`capDiffs` puts behind a text it cuts. -/
class CapText (T : Type) where
  utf8Length : T → Nat
  headBytes : T → Nat → T
  mark : T

section Texts

variable {T : Type} [CapText T]

/-- The loop of `capTerminalTail`, newest line first: what it passes before the
bytes run out. -/
def newestLines (bytes : Nat) : List T → List T
  | [] => []
  | line :: older =>
      let bytes := bytes + CapText.utf8Length line + 1
      if kTerminalByteCap < bytes then [] else line :: newestLines bytes older

/-- `capTerminalTail`. -/
def capTerminalTail (lines : List T) : List T :=
  (newestLines 0 (tailOf lines kTerminalLineCap).reverse).reverse

variable [Append T]

/-- The loop of `capDiffs`. -/
def keepDiffs (bytes : Nat) : List (BufferedFileOf T) → List (BufferedFileOf T)
  | [] => []
  | hunk :: hunks =>
      let size := CapText.utf8Length hunk.diff
      if kDiffByteCap < bytes + size then
        let room := kDiffByteCap - bytes
        [{ path := hunk.path
           diff := if 0 < room then CapText.headBytes hunk.diff room ++ CapText.mark
                   else CapText.mark
           truncated := true }]
      else hunk :: keepDiffs (bytes + size) hunks

/-- `capDiffs`. -/
def capDiffs (hunks : List (BufferedFileOf T)) : List (BufferedFileOf T) :=
  keepDiffs 0 (hunks.take kDiffFileCap)

end Texts

/-- The loop of `headBytes`, on the characters that are left. -/
def headChars (maxBytes bytes : Nat) : List Char → List Char
  | [] => []
  | rune :: runes =>
      if maxBytes < bytes + rune.utf8Size then []
      else rune :: headChars maxBytes (bytes + rune.utf8Size) runes

/-- `headBytes`. -/
def headBytes (text : String) (maxBytes : Nat) : String :=
  String.ofList (headChars maxBytes 0 text.toList)

instance : CapText String where
  utf8Length := String.utf8ByteSize
  headBytes := headBytes
  mark := "...truncated"

/-- `diffsTruncated`. -/
def diffsTruncated (kept : List BufferedFile) (incomingTotal : Nat) : Bool :=
  decide (kept.length < incomingTotal) || kept.any fun hunk => hunk.truncated

/-- `capped`. -/
def Buffers.capped (b : Buffers) : Buffers :=
  { b with
    activity := tailOf b.activity kActivityCap
    chat := tailOf b.chat kChatCap
    terminalLines := capTerminalTail b.terminalLines
    files := capDiffs b.files }

@[simp] theorem Buffers.capped_lastSeqNo (b : Buffers) : b.capped.lastSeqNo = b.lastSeqNo := rfl

@[simp] theorem Buffers.capped_approvals (b : Buffers) : b.capped.approvals = b.approvals := rfl

@[simp] theorem Buffers.capped_files (b : Buffers) : b.capped.files = capDiffs b.files := by
  simp only [Buffers.capped]

@[simp] theorem Buffers.capped_filesTruncated (b : Buffers) :
    b.capped.filesTruncated = b.filesTruncated := by
  simp only [Buffers.capped]

/-! ## The cap of the diffs spends a budget -/

section Diffs

variable {T : Type} [CapText T] [Append T]

/-- The bytes of a file's diff. -/
def diffBytes (hunk : BufferedFileOf T) : Nat := CapText.utf8Length hunk.diff

/-- The file at which the bytes run out, with so many left. -/
def cutHunk (room : Nat) (hunk : BufferedFileOf T) : BufferedFileOf T where
  path := hunk.path
  diff := if 0 < room then CapText.headBytes hunk.diff room ++ CapText.mark else CapText.mark
  truncated := true

/-- **The loop of `capDiffs`** spends the bytes it has. -/
theorem keepDiffs_eq (bytes : Nat) (hunks : List (BufferedFileOf T)) :
    keepDiffs bytes hunks = Lib.spend diffBytes cutHunk kDiffByteCap bytes hunks := by
  induction hunks generalizing bytes with
  | nil => rfl
  | cons hunk hunks ih =>
      rw [keepDiffs, Lib.spend, ih]
      rfl

theorem capDiffs_eq (files : List (BufferedFileOf T)) :
    capDiffs files = Lib.spend diffBytes cutHunk kDiffByteCap 0 (files.take kDiffFileCap) :=
  keepDiffs_eq 0 _

theorem capDiffs_length_le (files : List (BufferedFileOf T)) :
    (capDiffs files).length ≤ min kDiffFileCap files.length := by
  have hspent := Lib.spend_length_le diffBytes cutHunk kDiffByteCap (files.take kDiffFileCap) 0
  rwa [← capDiffs_eq, List.length_take] at hspent

/-- Files within the budget are kept as they are. -/
theorem capDiffs_fits {files : List (BufferedFileOf T)}
    (h : Lib.total diffBytes (files.take kDiffFileCap) ≤ kDiffByteCap) :
    capDiffs files = files.take kDiffFileCap := by
  rw [capDiffs_eq, Lib.spend_fits (by omega)]

/-- Else the one at which the bytes run out is cut, and is the last. -/
theorem capDiffs_cut {files front rest : List (BufferedFileOf T)} {x : BufferedFileOf T}
    (hfiles : files.take kDiffFileCap = front ++ x :: rest)
    (hfit : Lib.total diffBytes front ≤ kDiffByteCap)
    (hover : kDiffByteCap < Lib.total diffBytes front + diffBytes x) :
    capDiffs files = front ++ [cutHunk (kDiffByteCap - Lib.total diffBytes front) x] := by
  rw [capDiffs_eq, hfiles, Lib.spend_cut rest (by omega) (by omega), Nat.zero_add]

/-- **Files over the budget**: the bytes run out at one of them. -/
theorem capDiffs_over {files : List (BufferedFileOf T)}
    (h : kDiffByteCap < Lib.total diffBytes (files.take kDiffFileCap)) :
    ∃ front x rest, files.take kDiffFileCap = front ++ x :: rest ∧
      kDiffByteCap - Lib.total diffBytes front < diffBytes x ∧
      Lib.total diffBytes front ≤ kDiffByteCap ∧
      capDiffs files = front ++ [cutHunk (kDiffByteCap - Lib.total diffBytes front) x] := by
  have hlong : kDiffByteCap < 0 + Lib.total diffBytes (files.take kDiffFileCap) := by omega
  obtain ⟨front, x, rest, hfiles, hfit, hover⟩ := Lib.exists_cut (Nat.zero_le _) hlong
  rw [Nat.zero_add] at hfit hover
  exact ⟨front, x, rest, hfiles, by omega, hfit, capDiffs_cut hfiles hfit hover⟩

end Diffs

end Calcar.Phone.Workflow
