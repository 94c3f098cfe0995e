import Tabulary.Catalog.Manifest
import Tabulary.Store.Tables

/-!
A database: a directory with a manifest and one file for each table.
-/

namespace Tabulary

structure Database where
  name : String
  directory : Path
  tables : Tables
  /-- Tells the database from all others that were opened, under its name too. -/
  serial : Nat
deriving Repr

namespace Database

def manifestName : String := "catalog.json"

def manifestPath (d : Database) : Path := d.directory ++ [manifestName]

/-- Where the manifest is written before it takes the place of the old one. -/
def draftPath (d : Database) : Path := d.directory ++ [manifestName ++ ".tmp"]

def manifest (d : Database) : Manifest where
  database := d.name
  tables := d.tables.map fun t => .ofSchema t.2.schema

def onTables {α : Type} (x : Work Tables α) : Work Database α :=
  x.within (fun s => (s.1.tables, s.2)) fun t s => ({ s.1 with tables := t.1 }, t.2)

def setTables (tables : Tables) : Work Database Unit := onTables (Work.setState tables)

/-- Writes the manifest beside the old one and then puts it in its place. -/
def saveManifest : Work Database Unit := do
  let d ← Work.state
  Work.change fun fs => fs.write d.draftPath (Text.toBytes d.manifest.render)
  Work.change fun fs => fs.move d.draftPath d.manifestPath

/-- Opens a table that the manifest lists. -/
def loadTable (t : Manifest.Table) : Work Database Unit := do
  let schema ← Attempt.ofExcept (t.toSchema.mapError Fault.engine)
  let d ← Work.state
  let path ← Work.query fun fs => fs.locate d.directory t.file
  let s ← Store.openFile schema path
  setTables (Keyed.set t.name s d.tables)
  Work.log .info "table_opened"
    [("database", .text d.name), ("table", .text t.name), ("rows", .int s.rowCount)]

def loadManifest : Work Database Unit := do
  let d ← Work.state
  let bytes ← Work.query fun fs => fs.read d.manifestPath
  let m ← Attempt.ofExcept (Manifest.ofBytes bytes)
  m.tables.forM loadTable

/-- Opens a database in its directory, with the tables of the manifest that is there or with
none. -/
def openIn {σ : Type} (name : String) (directory : Path) : Work σ Database := do
  Work.ensureDirectory directory
  let d : Database := ⟨name, directory, [], ← Work.takeSerial⟩
  let known ← Work.query fun fs => fs.isThere d.manifestPath
  let (result, d) ← Work.beside d (if known then loadManifest else saveManifest)
  Attempt.ofExcept result
  return d

/-- Creates a table with an empty file; a file left over at its place is discarded. -/
def createTable (schema : Schema) : Work Database Unit := do
  let d ← Work.state
  if (d.tables.lookup schema.name).isSome then throw (.engine (.tableExists schema.name))
  if !Name.isStorable (Name.sanitize schema.name) then
    throw (.engine (.schema (.tableName schema.name)))
  let path := d.directory ++ [Name.tableFile schema.name]
  match d.tables.find? fun t => t.2.path = path with
  | some other => throw (.engine (.schema (.fileCollision schema.name other.2.schema.name)))
  | none => pure ()
  if ← Work.query fun fs => fs.isThere path then
    Work.log .warning "stale_table_file_removed"
      [("database", .text d.name), ("path", .text (← Work.pathText path))]
    Work.change fun fs => fs.remove path
  let s ← Store.openFile schema path
  setTables (Keyed.set schema.name s d.tables)
  tryCatch saveManifest fun e => do
    if e.isFileFailure then
      setTables d.tables
      let (result, _) ← Work.beside s Store.drop
      Attempt.ofExcept result
    throw e
  Work.log .info "table_created"
    [("database", .text d.name), ("table", .text schema.name),
      ("columns", .array (schema.columnNames.map .text))]

def dropTable (name : String) : Work Database Unit := do
  let d ← Work.state
  match d.tables.lookup name with
  | none => throw (.engine (.noTable name))
  | some s =>
    setTables (Keyed.erase name d.tables)
    saveManifest
    let (result, _) ← Work.beside s Store.drop
    Attempt.ofExcept result
    Work.log .info "table_dropped" [("database", .text d.name), ("table", .text name)]

def close : Work Database Unit := onTables (Tables.onEach Store.close)

def destroy : Work Database Unit := do
  onTables (Tables.onEach Store.drop)
  setTables []
  let directory := (← Work.state).directory
  Work.change fun fs => fs.removeTree directory

def describe (d : Database) : String :=
  "Database(name=" ++ Text.quoted d.name ++ ", tables=" ++ toString d.tables.length ++ ")"

end Database
end Tabulary
