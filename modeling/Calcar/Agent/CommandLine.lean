/-!
# Command lines

The two copies of the quoting that `CreateProcessW` wants: the one of `lib.rs` of
`calcar-pty`, for the console, and the one of its `plain.rs`, for pipes.
Strings are read and written as their characters.
-/

namespace Calcar.Agent

/-- `PtyError`. -/
inductive PtyError where
  | windows (call message : String)
  | io (text : String)
  | invalidConfig (text : String)
  | closed
  deriving DecidableEq, Repr

/-- Its `Display`. -/
def PtyError.text : PtyError → String
  | windows call message => "windows call " ++ call ++ " failed: " ++ message
  | io text => "io error: " ++ text
  | invalidConfig text => "invalid spawn config: " ++ text
  | closed => "pty is closed"

/-- The characters an argument is quoted for. -/
def needsQuotes (arg : List Char) : Bool :=
  arg.any fun c => c == ' ' || c == '\t' || c == '"'

/-! ## `lib.rs` -/

namespace Pty

/-- One turn of the loop: the text pushed so far and the run of backslashes. -/
def quoteChar : List Char × Nat → Char → List Char × Nat
  | (out, backslashes), ch =>
      if ch = '\\' then (out ++ [ch], backslashes + 1)
      else if ch = '"' then (out ++ List.replicate backslashes '\\' ++ ['\\'] ++ ['"'], 0)
      else (out ++ [ch], 0)

/-- `quote_arg`. -/
def quoteArg (arg : String) : String :=
  if arg ≠ "" ∧ ¬needsQuotes arg.toList then arg
  else
    let out := arg.toList.foldl quoteChar (['"'], 0)
    String.ofList (out.1 ++ List.replicate out.2 '\\' ++ ['"'])

/-- `SpawnConfig::command_line`. -/
def commandLine (argv : List String) : Except PtyError String :=
  if argv = [] then .error (.invalidConfig "argv is empty")
  else .ok (" ".intercalate (argv.map quoteArg))

end Pty

/-! ## `plain.rs` -/

namespace Plain

/-- One turn of the loop: the text pushed so far and the run of backslashes. -/
def quoteChar : List Char × Nat → Char → List Char × Nat
  | (out, backslashes), ch =>
      if ch = '\\' then (out ++ [ch], backslashes + 1)
      else if ch = '"' then (out ++ List.replicate backslashes '\\' ++ ['\\'] ++ ['"'], 0)
      else (out ++ [ch], 0)

/-- `quote_arg`. -/
def quoteArg (arg : String) : String :=
  if arg ≠ "" ∧ ¬needsQuotes arg.toList then arg
  else
    let out := arg.toList.foldl quoteChar (['"'], 0)
    String.ofList (out.1 ++ List.replicate out.2 '\\' ++ ['"'])

/-- `command_line`. -/
def commandLine (argv : List String) : Except PtyError String :=
  if argv = [] then .error (.invalidConfig "argv is empty")
  else .ok (" ".intercalate (argv.map quoteArg))

end Plain

end Calcar.Agent
