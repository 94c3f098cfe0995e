import Tabulary.Json.Check
import Tabulary.Json.Printer
import Tabulary.Json.Reader
import Tabulary.Name
import Tabulary.Schema.Basic
import Tabulary.Text.Utf8

/-!
The manifest of a database: the definitions of its tables in the order of their creation, and the
files that hold their rows.
-/

namespace Tabulary

structure Manifest.Column where
  name : String
  type : ColumnType
  unique : Bool
deriving DecidableEq, Repr

structure Manifest.Table where
  name : String
  file : String
  columns : List Manifest.Column
deriving DecidableEq, Repr

structure Manifest where
  database : String
  tables : List Manifest.Table
deriving DecidableEq, Repr

namespace Manifest

namespace Table

def ofSchema (s : Schema) : Table where
  name := s.name
  file := Name.tableFile s.name
  columns := s.columns.map fun c => ⟨c.name, c.type, c.isUnique⟩

def toSchema (t : Table) : Except EngineError Schema :=
  Schema.build t.name (t.columns.map fun c => ⟨c.name, c.type, false, c.unique⟩)

end Table

def Column.toJson (c : Column) : Json :=
  .object [("name", .text c.name), ("type", .text c.type.name), ("unique", .bool c.unique)]

def Table.toJson (t : Table) : Json :=
  .object [("name", .text t.name), ("file", .text t.file),
    ("columns", .array (t.columns.map Column.toJson))]

def toJson (m : Manifest) : Json :=
  .object [("database", .text m.database), ("tables", .array (m.tables.map Table.toJson))]

def render (m : Manifest) : String := m.toJson.pretty 0

def checkType (location : String) : Json → Checked ColumnType
  | .text s => match ColumnType.ofName? s with
    | some t => .ok t
    | none => Checked.fail location "enum"
  | _ => Checked.fail location "enum"

def checkColumn (location : String) : Json → Checked Column :=
  Json.checkObject (fun v =>
    (Checked.both (Json.required "name" Json.checkText location v)
      (Checked.both (Json.required "type" checkType location v)
        (Json.optional "unique" false Json.checkBool location v))).map
      fun (name, type, unique) => ⟨name, type, unique⟩) location

def checkTable (location : String) : Json → Checked Table :=
  Json.checkObject (fun v =>
    (Checked.both (Json.required "name" Json.checkText location v)
      (Checked.both (Json.required "file" Json.checkText location v)
        (Json.required "columns" (Json.checkArray checkColumn) location v))).map
      fun (name, file, columns) => ⟨name, file, columns⟩) location

def check : Json → Checked Manifest :=
  Json.checkObject (fun v =>
    (Checked.both (Json.required "database" Json.checkText "" v)
      (Json.optional "tables" [] (Json.checkArray checkTable) "" v)).map
      fun (database, tables) => ⟨database, tables⟩) ""

def ofBytes (bytes : List UInt8) : Except Fault Manifest :=
  match Text.ofBytes? bytes with
  | none => .error .notUtf8
  | some s => match Json.read? s with
    | none => .error (.invalid [⟨"", "json_invalid"⟩])
    | some v => (check v).result

end Manifest
end Tabulary
