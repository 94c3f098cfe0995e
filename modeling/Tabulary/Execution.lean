import Tabulary.Catalog.Database
import Tabulary.Command.Reader
import Tabulary.Operator.Cursor
import Tabulary.Result.Basic

/-!
Running commands against a database.  What a command names is resolved first, in a fixed order, and
nothing is written before all of it is.
-/

namespace Tabulary
namespace Database

def refuse {α : Type} (e : CommandError) : Work Database α := throw (.engine (.command e))

def schemaOf (table : String) : Work Database Schema := do
  return (← onTables (Tables.get table)).schema

def onTable {α : Type} (table : String) (x : Work Store α) : Work Database α :=
  onTables (Tables.on table x)

/-- A command that adds or removes a table. -/
def define (message : String) (x : Work Database Unit) : Work Database Result := do
  x
  return .done message 0

def create (table : String) (columns : List Column) (ifNotExists : Bool) :
    Work Database Result := do
  if ifNotExists && ((← Work.state).tables.lookup table).isSome then
    return .done "OK: Table already exists" 0
  let schema ← Attempt.ofExcept ((Schema.build table columns).mapError Fault.engine)
  define s!"OK: Table '{table}' created" (createTable schema)

def remove (table : String) (ifExists : Bool) : Work Database Result := do
  if ifExists && ((← Work.state).tables.lookup table).isNone then
    return .done "OK: Table does not exist" 0
  define s!"OK: Table '{table}' dropped" (dropTable table)

/-- The values of a row, each literal converted to the type of the column in its place. -/
def convertAll : List Column → List Literal → Except Fault (List (String × Value))
  | c :: columns, l :: literals => do
    let v ← c.convert (.text l.text)
    return (c.name, v) :: (← convertAll columns literals)
  | _, _ => .ok []

def insert (table : String) (literals : List Literal) : Work Database Result := do
  let schema ← schemaOf table
  if literals.length ≠ schema.columns.length then
    refuse (.valueCount schema.columns.length table literals.length)
  let values ← Attempt.ofExcept (convertAll schema.columns literals)
  let row ← Attempt.ofExcept ((Row.ofValues values).mapError Fault.engine)
  onTable table (Store.insert row)
  return .done "OK: 1 row inserted" 1

/-- The column that a condition is about, and the value it has to hold. -/
def resolve (schema : Schema) (c : Comparison) : Except Fault (Column × Value) := do
  match c.column.table? with
  | some t => if t ≠ schema.name then throw (.engine (.command (.unknownTable t)))
  | none => pure ()
  match schema.column? c.column.name with
  | none => throw (.engine (.command (.unknownColumn c.column.name schema.name)))
  | some column => return (column, ← column.convert (.text c.value.text))

/-- The plan that finds the rows of a table: by key where the condition is on the key. -/
def planOf (schema : Schema) (table : String) (where? : Option Comparison) : Except Fault Plan := do
  match where? with
  | none => return .scan table false
  | some c =>
    let (column, value) ← resolve schema c
    if column.isKey then return .lookup table value
    else return .filter (.scan table false) column.name value

def select (table : String) (where? : Option Comparison) : Work Database Result := do
  let schema ← schemaOf table
  let plan ← Attempt.ofExcept (planOf schema table where?)
  return .query schema.columnNames (← onTables plan.rows)

/-- Which of two tables a reference names a column of. -/
def resolveSide (left right : Schema) (r : ColumnRef) : Except CommandError (Schema × Column) := do
  let candidates ← match r.table? with
    | none => pure [left, right]
    | some t =>
      match [left, right].filter (·.name = t) with
      | [] => throw (.unknownJoinTable t)
      | found => pure found
  match candidates.filterMap fun s => (s.column? r.name).map fun c => (s, c) with
  | [] => throw (.unknownJoinColumn r.print)
  | [side] => return side
  | _ => throw (.ambiguousJoinColumn r.print)

/-- The plan of a join.  Its condition has to name one column of each table. -/
def joinPlan (left right : Schema) (on : Pairing) : Except CommandError Plan := do
  let (s, c) ← resolveSide left right on.left
  let (t, d) ← resolveSide left right on.right
  let plan (l r : Column) : Plan :=
    .join (.scan left.name true) (.scan right.name true) (left.name ++ "." ++ l.name)
      (right.name ++ "." ++ r.name)
  if s.name = left.name ∧ t.name = right.name then return plan c d
  else if s.name = right.name ∧ t.name = left.name then return plan d c
  else throw .joinSides

def join (left right : String) (on : Pairing) : Work Database Result := do
  if right = left then refuse .selfJoin
  let l ← schemaOf left
  let r ← schemaOf right
  let plan ← Attempt.ofExcept ((joinPlan l r on).mapError fun e => .engine (.command e))
  let columns := (l.columnNames.map fun c => l.name ++ "." ++ c) ++
    r.columnNames.map fun c => r.name ++ "." ++ c
  return .query columns (← onTables plan.rows)

/-- The values that assignments give to columns other than the key. -/
def changesOf (schema : Schema) (table : String) (assignments : List (String × Literal)) :
    Except Fault (List (String × Value)) :=
  assignments.mapM fun (name, l) => do
    if name = Value.keyColumn then throw (.engine (.command .keyAssignment))
    match schema.column? name with
    | none => throw (.engine (.command (.unknownColumn name table)))
    | some c => return (name, ← c.convert (.text l.text))

def update (table : String) (assignments : List (String × Literal)) (key : Comparison) :
    Work Database Result := do
  let schema ← schemaOf table
  let (_, id) ← Attempt.ofExcept (resolve schema key)
  let changes ← Attempt.ofExcept (changesOf schema table assignments)
  let _ ← onTable table (Store.updateValues id changes)
  return .done "OK: 1 row updated" 1

def delete (table : String) (key : Comparison) : Work Database Result := do
  let schema ← schemaOf table
  let (_, id) ← Attempt.ofExcept (resolve schema key)
  onTable table (Store.delete id)
  return .done "OK: 1 row deleted" 1

def run : Command → Work Database Result
  | .createTable table columns ifNotExists => create table columns ifNotExists
  | .dropTable table ifExists => remove table ifExists
  | .insert table values => insert table values
  | .select table where? => select table where?
  | .join left right on => join left right on
  | .update table assignments key => update table assignments key
  | .delete table key => delete table key

/-- Runs the command that a text asks for; tells its kind as far as it is known. -/
def runText (text : String) : Work Database (String × Except Fault Result) := do
  match Command.ofText text with
  | .error e => return ("unknown", .error (.engine e))
  | .ok c => return (c.kind, ← (run c).outcome)

/-- The result that an outcome comes to.  Engine errors and failures of storage are results; any
other failure stays one. -/
def report (kind : String) : Except Fault Result → Work Database Result
  | .ok r => pure r
  | .error (.engine e) => do
    Work.log .warning "command_failed"
      [("command_type", .text kind), ("kind", .text e.kind), ("error", .text e.message)]
    return .ofError e
  | .error f => do
    if f.isStorageFailure then
      Work.log .error "command_io_failure" [("command_type", .text kind)]
      return .failed "IOError" ("I/O failure: " ++ f.message?.getD "")
    else throw f

/-- The kind of the command that a text asks for, with the result that it comes to. -/
def runReported (text : String) : Work Database (String × Result) := do
  let (kind, r) ← runText text
  return (kind, ← report kind r)

/-- Work whose events carry the name of the database. -/
def inContext {α : Type} (x : Work Database α) : Work Database (Except Fault α) := do
  let name := (← Work.state).name
  let before := (← Work.world).database
  Work.changeWorld fun w => { w with database := some name }
  let result ← x.outcome
  Work.changeWorld fun w => { w with database := before }
  return result

def addSpan (s : Span) : Work Database Unit :=
  Work.changeWorld fun w => { w with spans := s :: w.spans }

/-- Runs the command that a text asks for and records how it went. -/
def execute (text : String) : Work Database Result := do
  let span := Span.command (← Work.state).name text
  match ← inContext (runReported text) with
  | .error f =>
    addSpan (span.abort f.label (f.message?.getD ""))
    throw f
  | .ok (kind, r) =>
    addSpan (span.finish kind r.errorKind)
    Work.count (.commands kind r.succeeded)
    Work.count (.latencies kind)
    return r

end Database
end Tabulary
