import Tabulary.Schema.Column

/-!
Commands: what a statement asks of the tables of a database.
-/

namespace Tabulary

/-- A literal as it was written, without its quotes. -/
structure Literal where
  text : String
  quoted : Bool
deriving DecidableEq, Repr

structure ColumnRef where
  table? : Option String
  name : String
deriving DecidableEq, Repr

/-- The condition that a column equals a literal. -/
structure Comparison where
  column : ColumnRef
  value : Literal
deriving DecidableEq, Repr

/-- The condition that two columns are equal, in the order written. -/
structure Pairing where
  left : ColumnRef
  right : ColumnRef
deriving DecidableEq, Repr

inductive Command where
  | createTable (table : String) (columns : List Column) (ifNotExists : Bool)
  | dropTable (table : String) (ifExists : Bool)
  | insert (table : String) (values : List Literal)
  | select (table : String) (where? : Option Comparison)
  | join (left right : String) (on : Pairing)
  | update (table : String) (assignments : List (String × Literal)) (key : Comparison)
  | delete (table : String) (key : Comparison)
deriving DecidableEq, Repr

namespace Literal

def print (l : Literal) : String := if l.quoted then s!"'{l.text}'" else l.text

end Literal

namespace ColumnRef

def print (r : ColumnRef) : String :=
  match r.table? with
  | some t => s!"{t}.{r.name}"
  | none => r.name

end ColumnRef

namespace Comparison

def print (c : Comparison) : String := s!"{c.column.print} = {c.value.print}"

end Comparison

namespace Pairing

def print (p : Pairing) : String := s!"{p.left.print} = {p.right.print}"

end Pairing

namespace Command

def kind : Command → String
  | createTable _ _ _ => "create_table"
  | dropTable _ _ => "drop_table"
  | insert _ _ => "insert"
  | select _ _ | join _ _ _ => "select"
  | update _ _ _ => "update"
  | delete _ _ => "delete"

def print : Command → String
  | createTable table columns _ =>
    let shown := ", ".intercalate (columns.map fun c => c.name ++ " " ++ c.type.name)
    s!"CreateTable({table}, [{shown}])"
  | dropTable table _ => s!"DropTable({table})"
  | insert table values => s!"Insert({table}, values={values.length})"
  | select table none => s!"Select({table})"
  | select table (some c) => s!"Select({table} WHERE {c.print})"
  | join left right on => s!"Select({left} JOIN {right} ON {on.print})"
  | update table assignments key =>
    let shown := ", ".intercalate (assignments.map fun (c, l) => c ++ "=" ++ l.print)
    s!"Update({table}, SET {shown} WHERE {key.print})"
  | delete table key => s!"Delete({table} WHERE {key.print})"

end Command
end Tabulary
