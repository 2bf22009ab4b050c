import Mathlib.Data.List.Sort
import LivelierBridge.Framework.Run
import LivelierBridge.Framework.Server
import LivelierBridge.Js.Stringify

namespace LivelierBridge.Database

open Framework Js

structure Migration where
  version : Int
  name : JsString
  sql : JsString
  deriving DecidableEq

/-- The versions that `schema_migrations` has, once the table exists, and the migrations whose SQL has
been committed. -/
structure Schema where
  versions : Option (List Int)
  ran : List Migration

inductive SchemaWrite
  | createTable
  | runSql (migration : Migration)
  | insert (version : Int)

namespace Schema

def apply (d : Schema) : SchemaWrite → Schema
  | .createTable => { d with versions := some (d.versions.getD []) }
  | .runSql migration => { d with ran := d.ran ++ [migration] }
  | .insert version => { d with versions := d.versions.map (· ++ [version]) }

/-- A missing table is neither read nor written, and the version is its primary key. -/
def admits (d : Schema) : Statement SchemaWrite → Bool
  | .read => d.versions.isSome
  | .write (.insert version) => d.versions.any fun versions => !versions.contains version
  | .lock | .unlock | .begin | .commit | .rollback | .write .createTable | .write (.runSql _) => true

def recorded (d : Schema) : List Int := d.versions.getD []

end Schema

def pendingMigrations (all : List Migration) (applied : List Int) : List Migration :=
  (all.insertionSort fun a b => a.version ≤ b.version).filter fun m => !applied.contains m.version

inductive MigrationStatement
  | begin
  | sql
  | insert
  | commit

inductive MigrationOutcome
  | returned (count : Nat)
  | threw (message : JsString)

/-- Where a call of `runMigrations` waits for an answer. -/
inductive MigrationPhase
  | notCalled
  | connecting
  | locking
  | creating
  | reading
  | migrating (statement : MigrationStatement) (migration : Migration) (rest : List Migration)
  | rollingBack (migration : Migration) (reason : JsString)
  | unlocking (outcome : MigrationOutcome)
  | finished (outcome : MigrationOutcome)

namespace MigrationPhase

def statement : MigrationPhase → Option (Statement SchemaWrite)
  | .locking => some .lock
  | .creating => some (.write .createTable)
  | .reading => some .read
  | .migrating .begin _ _ => some .begin
  | .migrating .sql migration _ => some (.write (.runSql migration))
  | .migrating .insert migration _ => some (.write (.insert migration.version))
  | .migrating .commit _ _ => some .commit
  | .rollingBack _ _ => some .rollback
  | .unlocking _ => some .unlock
  | .notCalled | .connecting | .finished _ => none

/-- The head of the loop over the pending migrations. -/
def forPending (count : Nat) : List Migration → MigrationPhase
  | [] => .unlocking (.returned count)
  | migration :: rest => .migrating .begin migration rest

end MigrationPhase

/-- `applied` is what the call has read, `committed` the migrations it is through with, and `failed`
the one that threw. -/
structure MigrationCall where
  phase : MigrationPhase
  client : Bool
  applied : Option (List Int)
  pending : List Migration
  committed : List Migration
  failed : Option Migration

namespace MigrationCall

def start : MigrationCall := ⟨.notCalled, false, none, [], [], none⟩

/-- The message of `runMigrations` for a migration that failed. -/
def failureMessage (migration : Migration) (reason : JsString) : JsString :=
  js "migration " ++ intToString 10 migration.version ++ js " (" ++ migration.name ++
    js ") failed: " ++ reason

/-- The statement was executed; `rows` are the versions that a `SELECT` finds. -/
def succeed (migrations : List Migration) (rows : List Int) (c : MigrationCall) : MigrationCall :=
  match c.phase with
  | .locking => { c with phase := .creating }
  | .creating => { c with phase := .reading }
  | .reading =>
    let pending := pendingMigrations migrations rows
    { c with
      applied := some rows
      pending := pending
      phase := .forPending pending.length pending }
  | .migrating .begin migration rest => { c with phase := .migrating .sql migration rest }
  | .migrating .sql migration rest => { c with phase := .migrating .insert migration rest }
  | .migrating .insert migration rest => { c with phase := .migrating .commit migration rest }
  | .migrating .commit migration rest =>
    { c with
      committed := c.committed ++ [migration]
      phase := .forPending c.pending.length rest }
  | .rollingBack migration reason =>
    { c with phase := .unlocking (.threw (failureMessage migration reason)) }
  | .unlocking outcome => { c with phase := .finished outcome, client := false }
  | .notCalled | .connecting | .finished _ => c

/-- The statement was rejected. Nobody hears of a rejected unlock. -/
def fail (reason : JsString) (c : MigrationCall) : MigrationCall :=
  match c.phase with
  | .locking | .creating | .reading | .rollingBack _ _ => { c with phase := .unlocking (.threw reason) }
  | .migrating _ migration _ =>
    { c with phase := .rollingBack migration reason, failed := some migration }
  | .unlocking outcome => { c with phase := .finished outcome, client := false }
  | .notCalled | .connecting | .finished _ => c

end MigrationCall

/-- Processes on one database, each with one call of `runMigrations` on a session of its own; `log`
has the commits in order, with the process that made them. -/
structure MigrationRuns where
  server : Server Schema SchemaWrite
  calls : Nat → MigrationCall
  log : List (Nat × Migration)

inductive MigrationAction
  | runMigrations (p : Nat)
  | connected (p : Nat)
  | connectFailed (p : Nat) (reason : JsString)
  | answered (p : Nat)
  | rejected (p : Nat) (rolledBack : Bool) (reason : JsString)
  | sessionEnds (p : Nat)

namespace MigrationRuns

def init (versions : Option (List Int)) : MigrationRuns :=
  ⟨.start ⟨versions, []⟩, fun _ => .start, []⟩

variable (migrations : List Migration) (s : MigrationRuns)

def withCall (p : Nat) (c : MigrationCall) : MigrationRuns :=
  { s with calls := Function.update s.calls p c }

/-- What a commit of the call adds to the log. -/
def commits (p : Nat) : List (Nat × Migration) :=
  match (s.calls p).phase with
  | .migrating .commit migration _ => [(p, migration)]
  | .migrating .begin _ _ | .migrating .sql _ _ | .migrating .insert _ _ | .notCalled | .connecting
  | .locking | .creating | .reading | .rollingBack _ _ | .unlocking _ | .finished _ => []

/-- The server executes the statement that the call waits for. -/
def answer (p : Nat) (statement : Statement SchemaWrite) : MigrationRuns where
  server := s.server.exec Schema.apply p statement
  calls := Function.update s.calls p ((s.calls p).succeed migrations s.server.data.recorded)
  log := s.log ++ s.commits p

def step : MigrationAction → Option MigrationRuns
  | .runMigrations p =>
    match (s.calls p).phase with
    | .notCalled => some (s.withCall p { s.calls p with phase := .connecting })
    | _ => none
  | .connected p =>
    match (s.calls p).phase with
    | .connecting => some (s.withCall p { s.calls p with phase := .locking, client := true })
    | _ => none
  | .connectFailed p reason =>
    match (s.calls p).phase with
    | .connecting => some (s.withCall p { s.calls p with phase := .finished (.threw reason) })
    | _ => none
  | .answered p =>
    match (s.calls p).phase.statement with
    | some statement =>
      if s.server.accepts p statement && s.server.data.admits statement then
        some (s.answer migrations p statement)
      else none
    | none => none
  | .rejected p rolledBack reason =>
    if (s.calls p).phase.statement.isSome then
      some { s.withCall p ((s.calls p).fail reason) with server := s.server.reject p rolledBack }
    else none
  | .sessionEnds p =>
    if (s.server.sessions p).alive then some { s with server := s.server.endSession p } else none

end MigrationRuns

end LivelierBridge.Database
