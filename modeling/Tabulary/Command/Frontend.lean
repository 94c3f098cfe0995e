import Tabulary.Command.Reader
import Tabulary.Sql.Frontend

/-!
From a text to a command by way of any library that reads SQL.  Only the parts of a tree that are
named here are looked at.
-/

namespace Tabulary

open Sql

namespace Sql.Frontend

open Command

variable (F : Frontend)

def columnRef (n : F.Node) : ColumnRef where
  table? := if F.text n "table" = "" then none else some (F.text n "table")
  name := F.name n

def literal (n : F.Node) : Narrowed Literal :=
  match F.kind n with
  | .literal => .ok ⟨F.text n "this", F.has n "is_string"⟩
  | .neg =>
    match F.only? .literal (F.child? n "this") with
    | some m =>
      if F.has m "is_string" then refuse (.notLiteral (F.printIn n))
      else .ok ⟨"-" ++ F.text m "this", false⟩
    | none => refuse (.notLiteral (F.printIn n))
  | .null => refuse .nullValue
  | .column =>
    if F.text n "table" = "" then .ok ⟨F.name n, false⟩ else refuse (.notLiteral (F.printIn n))
  | _ => refuse (.notLiteral (F.printIn n))

def comparison (n? : Option F.Node) : Narrowed Comparison :=
  match F.only? .equals n? with
  | some n =>
    if F.kind (F.left n) = .column then
      return ⟨F.columnRef (F.left n), ← F.literal (F.right n)⟩
    else if F.kind (F.right n) = .column then
      return ⟨F.columnRef (F.right n), ← F.literal (F.left n)⟩
    else refuse .conditionWithoutColumn
  | none => refuse .condition

def keyComparison (verb : String) (n? : Option F.Node) : Narrowed Comparison := do
  let c ← F.comparison n?
  if c.column.name = Value.keyColumn then return c else refuse (.conditionOnKey verb)

/-- Whether the rules of a column mark its values as unique. -/
def uniqueness (column : String) : List F.Node → Narrowed Bool
  | [] => .ok false
  | n :: rest =>
    match (F.child? n "kind").map F.kind with
    | some .unique => do
      let _ ← uniqueness column rest
      return true
    | some .primaryKey =>
      if column = Value.keyColumn then uniqueness column rest else .error (.schema .secondKey)
    | _ => refuse (.columnConstraint column (F.printIn n))

def column (n : F.Node) : Narrowed Column :=
  if F.kind n = .columnDef then do
    let type ← orRefuse (F.child? n "kind") (.columnWithoutType (F.name n))
    let isUnique ← F.uniqueness (F.name n) (F.children n "constraints")
    return ⟨F.name n, ← columnType (F.name n) (F.print type),
      F.name n = Value.keyColumn, isUnique⟩
  else refuse (.tableElement (F.printIn n))

def createOf (n : F.Node) : Narrowed Command :=
  if shownKind (F.text n "kind") = "TABLE" then do
    let schema ← orRefuse (F.only? .schema (F.child? n "this")) .createUsage
    let table ← orRefuse (F.only? .table (F.child? schema "this")) .createUsage
    if (F.children schema "expressions").isEmpty then refuse .noColumns
    else
      return .createTable (F.name table) (← (F.children schema "expressions").mapM F.column)
        (F.has n "exists")
  else refuse (.createKind (shownKind (F.text n "kind")))

def dropOf (n : F.Node) : Narrowed Command :=
  if shownKind (F.text n "kind") = "TABLE" then do
    let table ← orRefuse (F.table? (F.child? n "this")) (.noTableName "DROP TABLE")
    return .dropTable table (F.has n "exists")
  else refuse (.dropKind (shownKind (F.text n "kind")))

/-- The values of a row, which is a tuple or one value by itself. -/
def items (row : F.Node) : List F.Node :=
  if F.kind row = .tuple then F.children row "expressions" else [row]

def insertOf (n : F.Node) : Narrowed Command :=
  if (F.only? .schema (F.child? n "this")).isSome then refuse .insertColumns
  else do
    let table ← orRefuse (F.table? (F.child? n "this")) (.noTableName "INSERT")
    let values ← orRefuse (F.only? .values (F.child? n "expression")) .insertSource
    match F.children values "expressions" with
    | [row] => return .insert table (← (F.items row).mapM F.literal)
    | _ => refuse .insertRows

/-- The clauses that a query must not have, by the names under which they stand. -/
def foreignParts : List String := ["group", "having", "order", "limit", "offset", "distinct"]

/-- The words before the `JOIN` of a node. -/
def joinWords (n : F.Node) : String := shownJoin (F.text n "side" ++ " " ++ F.text n "kind")

def joinOf (left : String) (n : F.Node) : Narrowed Command :=
  if F.joinWords n = "" ∨ F.joinWords n = "INNER" then do
    let right ← orRefuse (F.table? (F.child? n "this")) .joinShape
    let on ← orRefuse (F.child? n "on") .noJoinCondition
    if F.kind on = .equals ∧ F.kind (F.left on) = .column ∧ F.kind (F.right on) = .column then
      return .join left right ⟨F.columnRef (F.left on), F.columnRef (F.right on)⟩
    else refuse .joinCondition
  else refuse (.joinKind (F.joinWords n))

/-- A query for all columns of a table, with a condition or joined to another. -/
def selection (table : String) : List F.Node → Option F.Node → Narrowed Command
  | [], none => .ok (.select table none)
  | [], some condition => do
    return .select table (some (← F.comparison (F.child? condition "this")))
  | _ :: _ :: _, _ => refuse .joinCount
  | [_], some _ => refuse .joinWithWhere
  | [j], none => F.joinOf table j

def selectOf (n : F.Node) : Narrowed Command :=
  if (F.children n "expressions").map F.kind = [.star] then
    match foreignParts.find? (F.has n) with
    | some part => refuse (.clause (Text.capitals part))
    | none => do
      let source ← orRefuse (F.first? n .from) .noFrom
      let table ← orRefuse (F.table? (F.child? source "this")) .fromShape
      F.selection table (F.children n "joins") (F.child? n "where")
  else refuse .projection

/-- An assignment: the column by its own name, whatever stands before it, and a value. -/
def assignment (n : F.Node) : Narrowed (String × Literal) :=
  if F.kind n = .equals ∧ F.kind (F.left n) = .column then
    return (F.name (F.left n), ← F.literal (F.right n))
  else refuse .assignment

/-- The assignments by column: the first of a column gives its place, the last its value. -/
def assignmentsOf (found : List F.Node) : Narrowed (List (String × Literal)) :=
  found.foldlM (fun done n => do
    let (column, value) ← F.assignment n
    return Keyed.set column value done) []

def updateOf (n : F.Node) : Narrowed Command := do
  let table ← orRefuse (F.table? (F.child? n "this")) (.noTableName "UPDATE")
  let assignments ← F.assignmentsOf (F.children n "expressions")
  if assignments.isEmpty then refuse .noAssignments
  else
    let condition ← orRefuse (F.child? n "where") .updateWithoutWhere
    return .update table assignments (← F.keyComparison "UPDATE" (F.child? condition "this"))

def deleteOf (n : F.Node) : Narrowed Command := do
  let table ← orRefuse (F.table? (F.child? n "this")) (.noTableName "DELETE")
  let condition ← orRefuse (F.child? n "where") .deleteWithoutWhere
  return .delete table (← F.keyComparison "DELETE" (F.child? condition "this"))

def ofNode (n : F.Node) : Narrowed Command :=
  match F.kind n with
  | .create => F.createOf n
  | .drop => F.dropOf n
  | .insert => F.insertOf n
  | .select => F.selectOf n
  | .update => F.updateOf n
  | .delete => F.deleteOf n
  | _ => refuse (.statementType (F.typeName n))

/-- The command of a text with one statement. -/
def ofNodes (found : List (Option F.Node)) : Narrowed Command :=
  match found.filterMap id with
  | [] => refuse .empty
  | [n] => F.ofNode n
  | _ => refuse .manyStatements

def ofText (text : String) : Except EngineError Command :=
  let s := Text.trim text
  if s = "" then refuse .empty
  else if leadingWord s ∉ knownWords then refuse (.unknownCommand (leadingWord s))
  else do F.ofNodes (← orRefuse (F.read s) .unparsable)

end Sql.Frontend
end Tabulary
