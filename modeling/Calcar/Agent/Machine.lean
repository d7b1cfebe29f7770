import Calcar.Agent.Catalog
import Calcar.Lib.Attempt

/-!
# The agent's machine

What the agent's code asks of the machine it runs on, as commands: the store
(one statement each), the clock, child processes, the tail files, and the
memory of the process itself.  `exec` carries one command out.

The oracle settles what the code does not: whether a statement fails, what
the clock reads, how a child process fares.  A statement that fails changes
nothing.  The machine also keeps the commands it was ever asked to start, each
under the workflow and the input it was started for; nothing reads that list.
-/

namespace Calcar.Agent

open Lib

/-- `ExecOutcome`. -/
structure ExecOutcome where
  exitCode : Nat
  stdout : Bytes
  stderr : Bytes
  truncated : Bool
  deriving DecidableEq, Repr

/-- `ExecError`, with the text of each variant. -/
inductive ExecError where
  | spawn (text : String)
  | timeout
  | join (text : String)
  deriving DecidableEq, Repr

/-- `to_string` of an `ExecError`. -/
def ExecError.text : ExecError → String
  | spawn text => "spawn failed: " ++ text
  | timeout => "command timed out and was killed"
  | join text => "output collection failed: " ++ text

/-- `PendingEntry` of the permission manager. -/
structure PendingEntry where
  workflowId : String
  requestId : String
  deviceId : String
  summary : String
  expiresAtMillis : Int
  resolved : Bool
  deriving DecidableEq, Repr

/-- The commands of the agent. -/
inductive Cmd where
  /-- `Storage::open` and `migrate`. -/
  | openStore
  | sql (s : Sql)
  /-- `now_millis`. -/
  | now
  /-- `to_string` of a storage error. -/
  | describe (e : StorageError)
  /-- `PlainChild::spawn` of the text of one input. -/
  | spawn (w i text : String)
  /-- `wait`: whether the child came to its end. -/
  | wait (timeoutSecs : Nat)
  | join
  | kill
  /-- `write_tail`. -/
  | writeTail (w i : String) (outcome : ExecOutcome)
  | touchWorkflow (w : String)
  | recordApproval (row : ResolvedApproval)
  /-- The registry, as it is read. -/
  | readRegistry
  /-- `persist_registry`: a failure is logged and forgotten. -/
  | saveRegistry
  /-- The insertion into the permission manager's map. -/
  | track (key : String) (entry : PendingEntry)
  /-- The permission manager's map, as it is read under the lock. -/
  | pendingMap
  /-- The flag of one entry of that map. -/
  | markResolved (key : String)
  /-- The process starts: memory is empty, the registry is what was saved. -/
  | restart
  deriving DecidableEq, Repr

/-- What a command is answered. -/
@[reducible] def Cmd.Ans : Cmd → Type
  | openStore => Except StorageError Unit
  | sql s => Except StorageError s.Ret
  | now => Int
  | describe _ => String
  | spawn _ _ _ => Except String Unit
  | wait _ => Except String Bool
  | join => Except String ExecOutcome
  | writeTail _ _ _ => Except String (String × Bool)
  | pendingMap => List (String × PendingEntry)
  | readRegistry => Registry
  | _ => Unit

/-- Programs of the agent. -/
abbrev Code (α : Type) : Type := Prog Cmd Cmd.Ans α

/-- The file, the processes started so far, and the memory of the agent. -/
structure Machine where
  db : Db := {}
  started : List (String × String) := []
  registry : Registry := {}
  saved : Registry := {}
  pending : List (String × PendingEntry) := []
  deriving DecidableEq, Repr

/-- What the machine around the agent does at one command. -/
structure Oracle where
  fault : Bool := false
  clock : Int := 0
  text : String := ""
  spawned : Except String Unit := .ok ()
  waited : Except String Bool := .ok true
  joined : Except String ExecOutcome := .ok ⟨0, [], [], false⟩
  tail : Except String (String × Bool) := .ok ("", false)

/-- `to_string` of a `StorageError`; the database has its own words. -/
def StorageError.text (sqliteText : String) : StorageError → String
  | sqlite => sqliteText
  | invalidState message => "invalid state: " ++ message
  | notFound what => "not found: " ++ what
  | alreadyResolved id => "request already resolved: " ++ id
  | expired id => "request expired: " ++ id

/-- The map with one key set. -/
def setEntry (pending : List (String × PendingEntry)) (key : String) (entry : PendingEntry) :
    List (String × PendingEntry) :=
  pending.filter (fun p => p.1 ≠ key) ++ [(key, entry)]

/-- The entry under a key. -/
def entryOf (pending : List (String × PendingEntry)) (key : String) : Option PendingEntry :=
  (pending.find? fun p => p.1 = key).map Prod.snd

/-- The map with one entry marked as resolved. -/
def markEntry (pending : List (String × PendingEntry)) (key : String) :
    List (String × PendingEntry) :=
  pending.map fun p => if p.1 = key then (p.1, { p.2 with resolved := true }) else p

/-- One command. -/
def Cmd.run : (c : Cmd) → Oracle → Machine → Machine × c.Ans
  | openStore, o, m => (m, if o.fault then .error .sqlite else .ok ())
  | sql s, o, m =>
      if o.fault then (m, .error .sqlite)
      else ({ m with db := (s.step m.db).1 }, (s.step m.db).2)
  | now, o, m => (m, o.clock)
  | describe e, o, m => (m, e.text o.text)
  | spawn w i _, o, m => ({ m with started := m.started ++ [(w, i)] }, o.spawned)
  | wait _, o, m => (m, o.waited)
  | join, o, m => (m, o.joined)
  | kill, _, m => (m, ())
  | writeTail _ _ _, o, m => (m, o.tail)
  | touchWorkflow w, _, m => ({ m with registry := m.registry.touchWorkflow w }, ())
  | recordApproval row, _, m => ({ m with registry := m.registry.recordApproval row }, ())
  | readRegistry, _, m => (m, m.registry)
  | saveRegistry, o, m => (if o.fault then m else { m with saved := m.registry }, ())
  | track key entry, _, m => ({ m with pending := setEntry m.pending key entry }, ())
  | pendingMap, _, m => (m, m.pending)
  | markResolved key, _, m => ({ m with pending := markEntry m.pending key }, ())
  | restart, _, m => ({ m with registry := m.saved, pending := [] }, ())

/-- Nothing fails at this command. -/
def Works (o : Oracle) : Prop := o.fault = false

theorem Works.sql {o : Oracle} (h : Works o) (s : Sql) (m : Machine) :
    (Cmd.sql s).run o m = ({ m with db := (s.step m.db).1 }, (s.step m.db).2) :=
  if_neg (ne_true_of_eq_false h)

theorem Works.openStore {o : Oracle} (h : Works o) (m : Machine) :
    Cmd.openStore.run o m = (m, .ok ()) :=
  congrArg (Prod.mk m) (if_neg (ne_true_of_eq_false h))

theorem Works.saveRegistry {o : Oracle} (h : Works o) (m : Machine) :
    Cmd.saveRegistry.run o m = ({ m with saved := m.registry }, ()) :=
  congrArg (Prod.mk · ()) (if_neg (ne_true_of_eq_false h))

/-- A statement fails, or changes the file and nothing else. -/
theorem Cmd.sql_changes (s : Sql) (o : Oracle) (m : Machine) :
    ((Cmd.sql s).run o m).1 = m ∨ ((Cmd.sql s).run o m).1 = { m with db := (s.step m.db).1 } := by
  rw [Cmd.run]
  by_cases hf : o.fault = true
  · rw [if_pos hf]
    exact .inl rfl
  · rw [if_neg hf]
    exact .inr rfl

/-- Saving the registry fails, or changes what is saved and nothing else. -/
theorem Cmd.saveRegistry_changes (o : Oracle) (m : Machine) :
    (Cmd.saveRegistry.run o m).1 = m ∨
      (Cmd.saveRegistry.run o m).1 = { m with saved := m.registry } := by
  rw [Cmd.run]
  by_cases hf : o.fault = true
  · rw [if_pos hf]
    exact .inl rfl
  · rw [if_neg hf]
    exact .inr rfl

/-- A command works on the file through one statement or not at all. -/
theorem run_db {P : Db → Prop} {c : Cmd} (m : Machine) (o : Oracle) (h : P m.db)
    (hsql : ∀ s, c = .sql s → P (s.step m.db).1) : P (c.run o m).1.db := by
  cases c with
  | sql s =>
      obtain hm | hm := Cmd.sql_changes s o m
      · rw [hm]
        exact h
      · rw [hm]
        exact hsql s rfl
  | saveRegistry =>
      obtain hm | hm := Cmd.saveRegistry_changes o m
      · rw [hm]
        exact h
      · rw [hm]
        exact h
  | _ => exact h

/-- No command of the agent waits for another process. -/
def exec : Exec Cmd Cmd.Ans Machine Oracle := fun _ c o m => some (c.run o m)

/-- The commands one at a time. -/
def sql (s : Sql) : Code (Except StorageError s.Ret) := Prog.perform (Cmd.sql s)
def now : Code Int := Prog.perform Cmd.now
def openStore : Code (Except StorageError Unit) := Prog.perform Cmd.openStore
def describe (e : StorageError) : Code String := Prog.perform (Cmd.describe e)

/-- `?`. -/
def andThen {ε α β : Type} (p : Code (Except ε α)) (f : α → Code (Except ε β)) :
    Code (Except ε β) := do
  match ← p with
  | .error e => return .error e
  | .ok a => f a

end Calcar.Agent
