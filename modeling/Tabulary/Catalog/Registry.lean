import Tabulary.Catalog.Database

/-!
All databases below one data directory.
-/

namespace Tabulary

structure Registry where
  dataDir : Path
  /-- The open databases, in the order in which they were opened. -/
  databases : List (String × Database)
deriving Repr

namespace Registry

def setDatabases (ds : List (String × Database)) : Work Registry Unit := do
  Work.setState { ← Work.state with databases := ds }

def get (name : String) : Work Registry Database := do
  match (← Work.state).databases.lookup name with
  | some d => return d
  | none => throw (.engine (.noDatabase name))

def on {α : Type} (name : String) (x : Work Database α) : Work Registry α := do
  let (result, d) ← Work.beside (← get name) x
  setDatabases (Keyed.set name d (← Work.state).databases)
  Attempt.ofExcept result

/-- Works on the open database of a name, provided that it is the one of a serial number. -/
def onOpened {α : Type} (name : String) (serial : Nat) (x : Work Database α) :
    Work Registry α := do
  if (← get name).serial = serial then on name x else throw (.engine (.noDatabase name))

def names (r : Registry) : List String := Keyed.keys r.databases

/-- Opens the database in a directory, unless one of its name is open; gives its name if it does. -/
def discoverIn (directory : Path) : Work Registry (Option String) := do
  let bytes ← Work.query fun fs => fs.read (directory ++ [Database.manifestName])
  let m ← Attempt.ofExcept (Manifest.ofBytes bytes)
  if ((← Work.state).databases.lookup m.database).isSome then return none
  let d ← Database.openIn m.database directory
  setDatabases (Keyed.set m.database d (← Work.state).databases)
  return some m.database

/-- The directories with a manifest, by name. -/
def candidates (dataDir : Path) (fs : Files) : Except Fault (List Path) :=
  (((fs.names dataDir).map fun n => dataDir ++ [n]).filter fs.isDirectory).filterM fun directory =>
    fs.isThere (directory ++ [Database.manifestName])

/-- Opens every database that has a manifest and is not open; gives the names of those opened. -/
def discover : Work Registry (List String) := do
  let dataDir := (← Work.state).dataDir
  Work.ensureDirectory dataDir
  let opened := (← (← Work.query (candidates dataDir)).mapM discoverIn).filterMap id
  if !opened.isEmpty then
    Work.log .info "databases_discovered" [("databases", .array (opened.map .text))]
  return opened

/-- Creates a database in the directory of its sanitized name; gives the directory. -/
def createDatabase (name : String) : Work Registry Path := do
  let r ← Work.state
  if (r.databases.lookup name).isSome then throw (.engine (.databaseExists name))
  let directoryName := Name.sanitize name
  if !Name.isStorable directoryName then throw (.engine (.schema (.databaseName name)))
  let directory := r.dataDir ++ [directoryName]
  if r.databases.any fun d => d.2.directory = directory then
    throw (.engine (.databaseExists name))
  let d ← Database.openIn name directory
  setDatabases (Keyed.set name d (← Work.state).databases)
  Work.log .info "database_created"
    [("database", .text name), ("path", .text (← Work.pathText directory))]
  return directory

def dropDatabase (name : String) : Work Registry Unit := do
  let d ← get name
  setDatabases (Keyed.erase name (← Work.state).databases)
  let (result, _) ← Work.beside d Database.destroy
  Attempt.ofExcept result
  Work.log .info "database_dropped" [("database", .text name)]

def close : Work Registry Unit := do
  (← Work.state).names.forM fun name => on name Database.close
  setDatabases []

end Registry
end Tabulary
