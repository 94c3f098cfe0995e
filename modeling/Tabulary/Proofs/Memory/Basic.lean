import Tabulary.Engine
import Tabulary.Proofs.Table.Rows

/-!
The engine seen from outside: databases by name, in each the tables by name in the order of their
creation, and of each table the rows in the order in which they were written.  Nothing here is kept
in files.  What files show of themselves is which names they refuse, and that two names may share a
file.
-/

namespace Tabulary

namespace Memory

structure Table where
  schema : Schema
  rows : Rows
deriving DecidableEq, Repr

/-- The tables of a database. -/
abbrev Tables := List (String × Table)

/-- Where the databases are kept, as a refusal names it. -/
structure Site where
  anchor : String
  directory : Path

/-- The directory of a database. -/
def Site.home (site : Site) (database : String) : Path := site.directory ++ [Name.sanitize database]

/-- Refuses a path below the directory that no file can have. -/
def Site.permit (site : Site) (p : Path) : Except Fault Unit :=
  if Files.hasNul p then .error .nulInPath
  else if p.any fun name => Files.maxName < (Text.toBytes name).length then
    .error (.refused .nameTooLong ((site.directory ++ p).text site.anchor) none)
  else .ok ()

end Memory

/-- Databases by name, in the order in which they were made. -/
abbrev Memory := List (String × Memory.Tables)

namespace Memory

/-! ## Tables of a database -/

namespace Tables

def find (table : String) : Attempt Fault Tables Table := do
  match (← get).lookup table with
  | some t => return t
  | none => throw (.engine (.noTable table))

/-- Replaces the rows of a table, which have been found before. -/
def put (table : String) (t : Table) (rows : Rows) : Attempt Fault Tables Unit :=
  modify (Keyed.set table { t with rows })

/-- A new table of another name, with a file of its own. -/
def createTable (site : Site) (database : String) (schema : Schema) :
    Attempt Fault Tables Unit := do
  let tables ← get
  if (tables.lookup schema.name).isSome then throw (.engine (.tableExists schema.name))
  if !Name.isStorable (Name.sanitize schema.name) then
    throw (.engine (.schema (.tableName schema.name)))
  match tables.find? fun t => Name.sanitize t.1 = Name.sanitize schema.name with
  | some other => throw (.engine (.schema (.fileCollision schema.name other.1)))
  | none => pure ()
  Attempt.ofExcept (site.permit [Name.sanitize database, Name.tableFile schema.name])
  set (tables ++ [(schema.name, (⟨schema, []⟩ : Table))])

def create (site : Site) (database table : String) (columns : List Column) (ifNotExists : Bool) :
    Attempt Fault Tables Result := do
  if ifNotExists && ((← get).lookup table).isSome then
    return .done "OK: Table already exists" 0
  let schema ← Attempt.ofExcept ((Schema.build table columns).mapError Fault.engine)
  createTable site database schema
  return .done s!"OK: Table '{table}' created" 0

def dropTable (table : String) : Attempt Fault Tables Unit := do
  let _ ← find table
  modify (Keyed.erase table)

def drop (table : String) (ifExists : Bool) : Attempt Fault Tables Result := do
  if ifExists && ((← get).lookup table).isNone then return .done "OK: Table does not exist" 0
  dropTable table
  return .done s!"OK: Table '{table}' dropped" 0

def insert (table : String) (literals : List Literal) : Attempt Fault Tables Result := do
  let t ← find table
  if literals.length ≠ t.schema.columns.length then
    throw (.engine (.command (.valueCount t.schema.columns.length table literals.length)))
  let values ← Attempt.ofExcept (Database.convertAll t.schema.columns literals)
  let row ← Attempt.ofExcept ((Row.ofValues values).mapError Fault.engine)
  let rows ← Attempt.ofExcept (t.rows.insert t.schema row >>= row.recorded t.schema)
  put table t rows
  return .done "OK: 1 row inserted" 1

/-- The rows that a condition picks, or all of them. -/
def pick (t : Table) (where? : Option Comparison) : Except Fault Rows :=
  match where? with
  | none => return t.rows
  | some c => do
    let (column, value) ← Database.resolve t.schema c
    return t.rows.filter fun r => r.held column.name = value

def select (table : String) (where? : Option Comparison) : Attempt Fault Tables Result := do
  let t ← find table
  let rows ← Attempt.ofExcept (pick t where?)
  return .query t.schema.columnNames (rows.map (ResultRow.ofRow t.schema false))

/-- The column of each of two tables that a join compares. -/
def joinColumns (left right : Schema) (on : Pairing) : Except CommandError (Column × Column) := do
  let (s, c) ← Database.resolveSide left right on.left
  let (t, d) ← Database.resolveSide left right on.right
  if s.name = left.name ∧ t.name = right.name then return (c, d)
  else if s.name = right.name ∧ t.name = left.name then return (d, c)
  else throw .joinSides

/-- Each row of the left table with each row of the right one that agrees with it, in the order of
the left rows. -/
def pairs (l r : Table) (left right : Column) : List ResultRow :=
  l.rows.flatMap fun x =>
    (r.rows.filter fun y => x.held left.name = y.held right.name).map fun y =>
      (ResultRow.ofRow l.schema true x).append (ResultRow.ofRow r.schema true y)

def join (left right : String) (on : Pairing) : Attempt Fault Tables Result := do
  if right = left then throw (.engine (.command .selfJoin))
  let l ← find left
  let r ← find right
  let (c, d) ← Attempt.ofExcept ((joinColumns l.schema r.schema on).mapError fun e => .engine
    (.command e))
  return .query
    ((l.schema.columnNames.map fun c => l.schema.name ++ "." ++ c) ++
      r.schema.columnNames.map fun c => r.schema.name ++ "." ++ c)
    (pairs l r c d)

def update (table : String) (assignments : List (String × Literal)) (key : Comparison) :
    Attempt Fault Tables Result := do
  let t ← find table
  let (_, id) ← Attempt.ofExcept (Database.resolve t.schema key)
  let changes ← Attempt.ofExcept (Database.changesOf t.schema table assignments)
  let rows ← Attempt.ofExcept
    ((t.rows.updateValues t.schema id changes >>= fun x => x.1.recorded t.schema x).map Prod.snd)
  put table t rows
  return .done "OK: 1 row updated" 1

def delete (table : String) (key : Comparison) : Attempt Fault Tables Result := do
  let t ← find table
  let (_, id) ← Attempt.ofExcept (Database.resolve t.schema key)
  let rows ← Attempt.ofExcept (t.rows.delete id)
  put table t rows
  return .done "OK: 1 row deleted" 1

def run (site : Site) (database : String) : Command → Attempt Fault Tables Result
  | .createTable table columns ifNotExists => create site database table columns ifNotExists
  | .dropTable table ifExists => drop table ifExists
  | .insert table values => insert table values
  | .select table where? => select table where?
  | .join left right on => join left right on
  | .update table assignments key => update table assignments key
  | .delete table key => delete table key

/-- What a failed command comes to: errors of the engine and refusals of the file system are
results. -/
def report : Except Fault Result → Except Fault Result
  | .ok r => .ok r
  | .error (.engine e) => .ok (.ofError e)
  | .error f =>
    if f.isStorageFailure then .ok (.failed "IOError" ("I/O failure: " ++ f.message?.getD ""))
    else .error f

/-- Runs the command that a text asks for. -/
def execute (site : Site) (database text : String) : Attempt Fault Tables Result := do
  let result ← match Command.ofText text with
    | .error e => pure (.error (.engine e))
    | .ok c => (run site database c).outcome
  Attempt.ofExcept (report result)

end Tables

/-! ## Databases -/

def find (database : String) : Attempt Fault Memory Tables := do
  match (← get).lookup database with
  | some tables => return tables
  | none => throw (.engine (.noDatabase database))

/-- Work on the tables of the database that has a name now. -/
def on {α : Type} (database : String) (x : Attempt Fault Tables α) : Attempt Fault Memory α := do
  let (result, tables) := x.run (← find database)
  modify (Keyed.set database tables)
  Attempt.ofExcept result

/-- A new database without tables; gives its directory. -/
def createDatabase (site : Site) (name : String) : Attempt Fault Memory Path := do
  let m : Memory ← get
  if (m.lookup name).isSome then throw (.engine (.databaseExists name))
  if !Name.isStorable (Name.sanitize name) then throw (.engine (.schema (.databaseName name)))
  if m.any fun d => Name.sanitize d.1 = Name.sanitize name then
    throw (.engine (.databaseExists name))
  Attempt.ofExcept (site.permit [Name.sanitize name])
  set (m ++ [(name, ([] : Tables))])
  return site.home name

def dropDatabase (name : String) : Attempt Fault Memory Unit := do
  let _ ← find name
  modify (Keyed.erase name)

/-- Runs a command against a database, or against the one that serves if none is named. -/
def execute (site : Site) (standard text : String) (database? : Option String) :
    Attempt Fault Memory Result := do
  let name := Engine.serving standard database?
  if ((← get : Memory).lookup name).isSome then on name (Tables.execute site name text)
  else return .ofError (.noDatabase name)

/-! ## Starting -/

def seedCommand (site : Site) (standard text : String) : Attempt Fault Memory Unit := do
  let r ← execute site standard text none
  if !r.succeeded then throw (.seeding text r.message)

def seedDemo (site : Site) (standard : String) : Attempt Fault Memory Unit := do
  Engine.demoTables.forM (seedCommand site standard)
  let users ← on standard (Tables.find "users")
  if users.rows.length = 0 then Engine.demoRows.forM (seedCommand site standard)

/-- The database that serves is made if it is not there. -/
def provide (site : Site) (standard : String) : Attempt Fault Memory Unit := do
  if ((← get : Memory).lookup standard).isNone then
    let _ ← createDatabase site standard

/-- What there is once an engine has been started over databases. -/
def reopen (site : Site) (standard : String) (seeds : Bool) : Attempt Fault Memory Unit := do
  provide site standard
  if seeds then seedDemo site standard

/-- What there is once an engine has been started for the first time. -/
def start (site : Site) (standard : String) (seeds : Bool) : Attempt Fault Memory Unit := do
  let _ ← createDatabase site standard
  if seeds then seedDemo site standard

theorem run_reopen_nil (site : Site) (standard : String) (seeds : Bool) :
    (reopen site standard seeds).run [] = (start site standard seeds).run [] := by
  have hprovide : (provide site standard).run [] =
      (do let _ ← createDatabase site standard : Attempt Fault Memory Unit).run [] := rfl
  unfold reopen start
  rw [Attempt.run_bind, hprovide, ← Attempt.run_bind, bind_assoc]
  rfl

end Memory
end Tabulary
