import Mathlib.Data.List.Sort
import Calcar.Lib.Conc
import Calcar.Store.Pg
import Calcar.Text

/-!
# Migrations of the Postgres schema

`migrate.go`: the embedded files, their Up and Down blocks, and `Migrate`, which any number
of deployments may run at once.  Every call has a connection of its own.  A statement can
fail on the way, and the server can lose a connection at any moment; what the transaction
on it held back is gone then.

The schema is not modelled as such.  What is committed is kept in order, Up blocks by their
text, so that the schema is what they make of an empty database one after the other.
-/

namespace Calcar.Migrate

open Lib

/-! ## The files -/

/-- `upMarker`. -/
def upMarker : List Char := "-- +migrate Up".toList

/-- `downMarker`. -/
def downMarker : List Char := "-- +migrate Down".toList

/-- `migration`. -/
structure Migration where
  version : String
  upSQL : String
  downSQL : String
  deriving DecidableEq, Repr

/-- How a file is refused. -/
inductive LoadError where
  | markers (name : String)
  | emptyBlock (name : String)
  deriving DecidableEq, Repr

/-- The error's text. -/
def LoadError.text : LoadError → String
  | markers name =>
      "postgres: migration " ++ name ++
        " must contain \"-- +migrate Up\" before \"-- +migrate Down\""
  | emptyBlock name => "postgres: migration " ++ name ++ " has empty Up or Down block"

/-- `strings.Index`. -/
def index (pat : List Char) : List Char → Option Nat
  | [] => if pat = [] then some 0 else none
  | c :: cs => if pat.isPrefixOf (c :: cs) then some 0 else (index pat cs).map (· + 1)

/-- `parseMigration`. -/
def parseMigration (name body : String) : Except LoadError Migration :=
  match index upMarker body.toList, index downMarker body.toList with
  | some upIdx, some downIdx =>
      if downIdx < upIdx then .error (.markers name)
      else
        let block := (body.toList.take downIdx).drop (upIdx + upMarker.length)
        let up := Text.trimSpace (String.ofList block)
        let down := Text.trimSpace (String.ofList (body.toList.drop (downIdx + downMarker.length)))
        if up = "" ∨ down = "" then .error (.emptyBlock name)
        else .ok ⟨name, up, down⟩
  | _, _ => .error (.markers name)

/-- An entry of the embedded directory. -/
structure Entry where
  name : String
  isDir : Bool := false
  body : String := ""
  deriving DecidableEq, Repr

/-- Parse one after the other, up to the first that is refused. -/
def parseAll : List Entry → Except LoadError (List Migration)
  | [] => .ok []
  | e :: es =>
      match parseMigration e.name e.body with
      | .error err => .error err
      | .ok m =>
          match parseAll es with
          | .error err => .error err
          | .ok ms => .ok (m :: ms)

/-- `loadMigrations`. -/
def loadMigrations (entries : List Entry) : Except LoadError (List Migration) :=
  parseAll ((entries.filter fun e => !e.isDir && ".sql".toList.isSuffixOf e.name.toList).insertionSort
    fun a b => a.name ≤ b.name)

/-! ## The database -/

/-- What a transaction changes. -/
inductive Change where
  | up (sql : String)
  | insert (version : String)
  deriving DecidableEq, Repr

/-- The row a change adds to `schema_migrations`. -/
def Change.version : Change → Option String
  | up _ => none
  | insert v => some v

/-- The rows that changes add. -/
def versions (changes : List Change) : List String := changes.filterMap Change.version

/-- An open transaction. -/
structure Tx where
  changes : List Change := []
  aborted : Bool := false
  deriving DecidableEq, Repr

/-- What is committed, the oldest first, and what is under way.  A row that was inserted and
is not committed yet locks its key.  `lost` are the connections that are gone. -/
structure World where
  wal : List (List Change) := []
  table : Bool := false
  txs : Nat → Option Tx := fun _ => none
  locks : String → Option Nat := fun _ => none
  lost : Nat → Bool := fun _ => false

namespace World

/-- The rows of `schema_migrations`. -/
def recorded (w : World) : List String := w.wal.flatMap versions

def setTx (w : World) (i : Nat) (tx : Option Tx) : World :=
  { w with txs := fun j => if j = i then tx else w.txs j }

def lock (w : World) (i : Nat) (version : String) : World :=
  { w with locks := fun v => if v = version then some i else w.locks v }

/-- The key is free or the connection's own. -/
def lockable (w : World) (i : Nat) (version : String) : Bool :=
  match w.locks version with
  | none => true
  | some j => j = i

/-- End a transaction and release its keys. -/
def closeTx (w : World) (i : Nat) : World :=
  { w.setTx i none with locks := fun v => if w.locks v = some i then none else w.locks v }

/-- Mark a transaction as failed. -/
def abortTx (w : World) (i : Nat) : World :=
  match w.txs i with
  | some tx => w.setTx i (some { tx with aborted := true })
  | none => w

end World

/-- The statements of `Migrate`. -/
inductive Cmd where
  | connect
  | createTable
  | selectExists (version : String)
  | begin
  | execUp (sql : String)
  | insert (version : String)
  | commit
  | rollback
  | close
  deriving DecidableEq, Repr

/-- What a statement answers; `none` is an error. -/
def Ans : Cmd → Type
  | .selectExists _ => Option Bool
  | _ => Option Unit

/-- The answer of a statement that failed. -/
def failure : (c : Cmd) → Ans c
  | .selectExists _ => none
  | .connect => none
  | .createTable => none
  | .begin => none
  | .execUp _ => none
  | .insert _ => none
  | .commit => none
  | .rollback => none
  | .close => none

namespace Cmd

/-- Carry out a statement; `none` while it has to wait.  An Up block is carried out as one
statement, or refused by a fault: it holds no transaction control and leaves
`schema_migrations` alone, as the embedded files do. -/
def step (i : Nat) : (c : Cmd) → World → Option (World × Ans c)
  | connect, w => some (w, some ())
  | createTable, w => some ({ w with table := true }, some ())
  | selectExists v, w =>
      if w.table then some (w, some (decide (v ∈ w.recorded))) else some (w, none)
  | begin, w => some (w.setTx i (some {}), some ())
  | execUp sql, w =>
      match w.txs i with
      | none => some (w, none)
      | some tx =>
          if tx.aborted then some (w, none)
          else some (w.setTx i (some { tx with changes := tx.changes ++ [.up sql] }), some ())
  | insert v, w =>
      match w.txs i with
      | none => some (w, none)
      | some tx =>
          if tx.aborted then some (w, none)
          else if w.table = false then some (w.abortTx i, none)
          -- the primary key: a row that is being inserted is waited for, one that is
          -- there is in conflict
          else if w.lockable i v = false then none
          else if v ∈ w.recorded ∨ v ∈ versions tx.changes then some (w.abortTx i, none)
          else
            some ((w.setTx i (some { tx with changes := tx.changes ++ [.insert v] })).lock i v,
              some ())
  | commit, w =>
      match w.txs i with
      | none => some (w, none)
      | some tx =>
          if tx.aborted then some (w.closeTx i, none)
          else some ({ w with wal := w.wal ++ [tx.changes] }.closeTx i, some ())
  | rollback, w => some (w.closeTx i, some ())
  | close, w => some ({ w.closeTx i with lost := fun j => j = i || w.lost j }, some ())

/-- What is left when a statement fails on the way. -/
def failed (i : Nat) : Cmd → World → World
  | begin, w => w.closeTx i
  | commit, w => w.closeTx i
  | rollback, w => w
  | close, w => { w.closeTx i with lost := fun j => j = i || w.lost j }
  | _, w => w.abortTx i

/-- A statement with its fault.  On a lost connection every statement fails. -/
def exec : Exec Cmd Ans World Fault := fun i c f w =>
  if w.lost i then some (w, failure c)
  else
    match f with
    | .none => c.step i w
    | .lost => some (c.failed i w, failure c)
    | .unacked =>
        match c.step i w with
        | none => none
        | some (w', _) => some (c.failed i w', failure c)

end Cmd

/-- The server loses a connection. -/
def disconnect (i : Nat) (w : World) : Option World :=
  some { w.closeTx i with lost := fun j => j = i || w.lost j }

/-! ## `Migrate` -/

/-- Where `Migrate` gave up. -/
inductive MigrateError where
  | connect
  | bootstrap
  | load (err : LoadError)
  | check (version : String)
  | begin (version : String)
  | apply (version : String)
  | record (version : String)
  | commit (version : String)
  deriving DecidableEq, Repr

/-- What its error says in front of the cause, or all it says. -/
def MigrateError.text : MigrateError → String
  | connect => "postgres: migrate connect: "
  | bootstrap => "postgres: migrate bootstrap: "
  | load err => err.text
  | check v => "postgres: migrate check " ++ v ++ ": "
  | begin v => "postgres: migrate begin " ++ v ++ ": "
  | apply v => "postgres: migrate apply " ++ v ++ ": "
  | record v => "postgres: migrate record " ++ v ++ ": "
  | commit v => "postgres: migrate commit " ++ v ++ ": "

/-- Programs over the statements, as `Migrate` ends. -/
abbrev Code : Type := Prog Cmd Ans (Except MigrateError Unit)

/-- The transaction of one migration. -/
def applyOne (m : Migration) : Code :=
  .call .begin fun
    | none => .ret (.error (.begin m.version))
    | some () => .call (.execUp m.upSQL) fun
        | none => .call .rollback fun _ => .ret (.error (.apply m.version))
        | some () => .call (.insert m.version) fun
            | none => .call .rollback fun _ => .ret (.error (.record m.version))
            | some () => .call .commit fun
                | none => .ret (.error (.commit m.version))
                | some () => .ret (.ok ())

/-- One turn of the loop. -/
def migrateOne (m : Migration) : Code :=
  .call (.selectExists m.version) fun
    | none => .ret (.error (.check m.version))
    | some true => .ret (.ok ())
    | some false => applyOne m

/-- The loop. -/
def migrateAll : List Migration → Code
  | [] => .ret (.ok ())
  | m :: ms => migrateOne m >>= fun
      | .error err => .ret (.error err)
      | .ok () => migrateAll ms

/-- What `Migrate` does once it is connected. -/
def migrateConnected (entries : List Entry) : Code :=
  .call .createTable fun
    | none => .ret (.error .bootstrap)
    | some () =>
        match loadMigrations entries with
        | .error err => .ret (.error (.load err))
        | .ok ms => migrateAll ms

/-- `Migrate`. -/
def migrate (entries : List Entry) : Code :=
  .call .connect fun
    | none => .ret (.error .connect)
    | some () => migrateConnected entries >>= fun r => .call .close fun _ => .ret r

/-- Builds that are deployed, each with the files embedded in it. -/
def deployments {Build : Type} (files : Build → List Entry) :
    System Build World Fault Nat Cmd Ans (Except MigrateError Unit) where
  code b := migrate (files b)
  exec := Cmd.exec
  env := disconnect

/-- The database before the first deployment. -/
def boot {Build : Type} : Config Build World Cmd Ans (Except MigrateError Unit) := ⟨{}, []⟩

end Calcar.Migrate
