import Tabulary.Catalog.Registry
import Tabulary.Execution

/-!
The engine: a data directory with its databases, one of which serves commands that name none.  It is
started and stopped any number of times; between the two it accepts commands.
-/

namespace Tabulary

structure Engine where
  defaultDatabase : String
  /-- Whether starting provides tables with a few rows to try commands on. -/
  seeds : Bool
  started : Bool
  registry : Registry
  /-- The databases that commands were run on, by name and serial number. -/
  dispatchers : List (String × Nat)
deriving Repr

/-- What an engine reports about itself: the rows of each table of each database while it is
started. -/
structure Stats where
  started : Bool
  dataDir : String
  defaultDatabase : String
  databases : Option (List (String × List (String × Nat)))
deriving DecidableEq, Repr

namespace Engine

/-- An engine on a data directory, which is made if it is not there. -/
def make {σ : Type} (dataDir : Path) (defaultDatabase : String) (seeds : Bool) :
    Work σ Engine := do
  Work.ensureDirectory dataDir
  return ⟨defaultDatabase, seeds, false, ⟨dataDir, []⟩, []⟩

def dataDir (e : Engine) : Path := e.registry.dataDir

def onRegistry {α : Type} (x : Work Registry α) : Work Engine α :=
  x.within (fun s => (s.1.registry, s.2)) fun t s => ({ s.1 with registry := t.1 }, t.2)

/-- Work on the registry of a started engine. -/
def whileStarted {α : Type} (x : Work Registry α) : Work Engine α := do
  if (← Work.state).started then onRegistry x else throw .engineStopped

/-- The serial number of the database that commands under a name go to.  The dispatcher kept for the
name serves it again, unless it was made for another database. -/
def dispatcherFor (d : Database) : Work Engine Nat := do
  let e ← Work.state
  match e.dispatchers.lookup d.name with
  | some serial => if serial = d.serial then return serial
  | none => pure ()
  Work.setState { e with dispatchers := Keyed.set d.name d.serial e.dispatchers }
  return d.serial

/-- The database that a command goes to, where another one serves commands that name none. -/
def serving (standard : String) : Option String → String
  | some "" | none => standard
  | some name => name

/-- Runs a command against a database, or against the default one if none is named. -/
def execute (text : String) (database? : Option String) : Work Engine Result := do
  let name := serving (← Work.state).defaultDatabase database?
  match (← whileStarted Work.state).databases.lookup name with
  | none => return .ofError (.noDatabase name)
  | some d =>
    let serial ← dispatcherFor d
    onRegistry (Registry.onOpened name serial (Database.execute text))

/-- Commands that make the tables to try things on. -/
def demoTables : List String :=
  ["CREATE TABLE IF NOT EXISTS users (id int, username string, age int)",
   "CREATE TABLE IF NOT EXISTS orders (id int, user_id int, item string)"]

def demoRows : List String :=
  ["INSERT INTO users VALUES (1, 'John Doe', 25)",
   "INSERT INTO users VALUES (2, 'Jane Smith', 30)",
   "INSERT INTO orders VALUES (101, 1, 'Laptop')"]

/-- Runs a command that must not fail. -/
def seedCommand (text : String) : Work Engine Unit := do
  let r ← execute text none
  if !r.succeeded then throw (.seeding text r.message)

/-- Makes the tables to try things on, and fills them if there are no users. -/
def seedDemo : Work Engine Unit := do
  demoTables.forM seedCommand
  let database := (← Work.state).defaultDatabase
  let users ← whileStarted (Registry.on database (Database.onTables (Tables.get "users")))
  if users.rowCount = 0 then
    demoRows.forM seedCommand
    Work.log .info "demo_data_seeded" [("database", .text database)]

/-- Opens every database below the data directory and makes the default one if it is not there. -/
def start : Work Engine Unit := do
  let e ← Work.state
  if e.started then throw .engineStarted
  Work.setState { e with registry := ⟨e.dataDir, []⟩ }
  onRegistry do
    let _ ← Registry.discover
    if ((← Work.state).databases.lookup e.defaultDatabase).isNone then
      let _ ← Registry.createDatabase e.defaultDatabase
  Work.setState { ← Work.state with started := true }
  if e.seeds then seedDemo
  Work.log .info "engine_started"
    [("data_dir", .text (← Work.pathText e.dataDir)),
      ("databases", .array ((← Work.state).registry.names.map .text))]

def stop : Work Engine Unit := do
  whileStarted Registry.close
  Work.setState { ← Work.state with started := false, dispatchers := [] }
  Work.log .info "engine_stopped" [("data_dir", .text (← Work.pathText (← Work.state).dataDir))]

def createDatabase (name : String) : Work Engine Unit := do
  let _ ← whileStarted (Registry.createDatabase name)

def dropDatabase (name : String) : Work Engine Unit := do
  whileStarted (Registry.dropDatabase name)
  let e ← Work.state
  Work.setState { e with dispatchers := Keyed.erase name e.dispatchers }

def databases : Work Engine (List String) := whileStarted do return (← Work.state).names

def tables (database : String) : Work Engine (List String) :=
  whileStarted do return Keyed.keys (← Registry.get database).tables

def onTable {α : Type} (database table : String) (x : Work Store α) : Work Engine α :=
  whileStarted (Registry.on database (Database.onTable table x))

def rows (database table : String) : Work Engine (List Row) :=
  onTable database table Store.selectAll

def stats : Work Engine Stats := do
  let e ← Work.state
  let databases := if e.started then
      some (e.registry.databases.map fun (name, d) =>
        (name, d.tables.map fun (table, s) => (table, s.rowCount)))
    else none
  return ⟨e.started, ← Work.pathText e.dataDir, e.defaultDatabase, databases⟩

end Engine
end Tabulary
