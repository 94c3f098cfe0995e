import Tabulary.Keyed
import Tabulary.Row
import Tabulary.Schema.Basic

/-!
Rows of results: values under column names.
-/

namespace Tabulary

structure ResultRow where
  columns : List String
  values : List Value
deriving DecidableEq, Repr

namespace ResultRow

/-- A stored row in schema order, its columns named with the table's name before a point if
`qualify`. -/
def ofRow (s : Schema) (qualify : Bool) (r : Row) : ResultRow where
  columns := if qualify then s.columnNames.map fun n => s.name ++ "." ++ n else s.columnNames
  values := s.columnNames.map fun n => (r.value? n).getD .null

def get (r : ResultRow) (column : String) : Except Fault Value :=
  match r.columns.findIdx? (· = column) with
  | none => .error (.noResultColumn column)
  | some i => match r.values[i]? with
    | some v => .ok v
    | none => .error .noPosition

/-- The value under a column, or a given one where there is no such column. -/
def getOr (r : ResultRow) (column : String) (default : Value) : Except Fault Value :=
  match r.get column with
  | .error (.noResultColumn _) => .ok default
  | other => other

/-- The value at a position; negative positions count from the end. -/
def at? (r : ResultRow) (i : Int) : Except Fault Value :=
  let n : Int := r.values.length
  let j := if i < 0 then i + n else i
  if j < 0 then .error .noPosition
  else match r.values[j.toNat]? with
    | some v => .ok v
    | none => .error .noPosition

/-- The values by column; of several columns of one name the first gives the place and the last the
value. -/
def fields (r : ResultRow) : List (String × Value) :=
  (r.columns.zip r.values).foldl (fun fs f => Keyed.set f.1 f.2 fs) []

def toJson (r : ResultRow) : Json := .object (r.fields.map fun f => (f.1, f.2.toJson))

def describe (r : ResultRow) : String :=
  "ResultRow(" ++ ", ".intercalate ((r.columns.zip r.values).map fun f => f.1 ++ "=" ++
    f.2.shown) ++ ")"

def append (l r : ResultRow) : ResultRow := ⟨l.columns ++ r.columns, l.values ++ r.values⟩

end ResultRow
end Tabulary
