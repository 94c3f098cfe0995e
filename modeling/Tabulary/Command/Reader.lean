import Tabulary.Command.Basic
import Tabulary.Keyed
import Tabulary.Sql.Grammar.Statement

/-!
From a text to a command.  The text is read as a statement of the full language, and the statement
is then narrowed to the forms that the engine runs; whatever else it asks for is refused by name, as
far as it is looked at.
-/

namespace Tabulary

open Sql

namespace Sql

/-- The part of a name that stands last before the column's own. -/
def qualifier? (names : List Name) : Option String :=
  match names.getLast? with
  | some n => if n.text = "" then none else some n.text
  | none => none

def Expr.columnRef? : Expr → Option ColumnRef
  | .column c => some ⟨qualifier? c.qualifiers, c.name.text⟩
  | .allOf t => some ⟨qualifier? (t.qualifiers ++ [t.name]), "*"⟩
  | _ => none

def Source.table? : Source → Option String
  | .table t _ _ => if t.name.text = "" then none else some t.name.text
  | _ => none

mutual

/-- The first source that a query names, in itself or in a query inside it. -/
def Query.firstSource? : Query → Option Source
  | .mk _ (some s) _ _ _ => some s
  | .mk projections none joins where? _ =>
    match firstSourceAmong? projections with
    | some s => some s
    | none => match firstSourceOfJoins? joins with
      | some s => some s
      | none => match where? with
        | some e => e.firstSource?
        | none => none
  | .combined _ l r =>
    match l.firstSource? with
    | some s => some s
    | none => r.firstSource?

def Expr.firstSource? : Expr → Option Source
  | .subquery q | .exists q => q.firstSource?
  | .dot e _ | .neg e | .bitNot e | .not e | .paren e | .alias e _ | .cast e _ => e.firstSource?
  | .binary _ l r =>
    match l.firstSource? with
    | some s => some s
    | none => r.firstSource?
  | .between e low high =>
    match e.firstSource? with
    | some s => some s
    | none => match low.firstSource? with
      | some s => some s
      | none => high.firstSource?
  | .inside e items =>
    match e.firstSource? with
    | some s => some s
    | none => firstSourceAmong? items
  | .insideQuery e q =>
    match e.firstSource? with
    | some s => some s
    | none => q.firstSource?
  | .tuple items | .call _ items | .concat items => firstSourceAmong? items
  | _ => none

def firstSourceAmong? : List Expr → Option Source
  | [] => none
  | e :: rest =>
    match e.firstSource? with
    | some s => some s
    | none => firstSourceAmong? rest

def Source.innerSource? : Source → Option Source
  | .table _ _ joins => firstSourceOfJoins? joins
  | .query q _ => q.firstSource?
  | .other _ => none

def firstSourceOfJoins? : List Join → Option Source
  | [] => none
  | .mk _ source on? :: rest =>
    match source.innerSource? with
    | some s => some s
    | none =>
      let inCondition := match on? with
        | some e => e.firstSource?
        | none => none
      match inCondition with
      | some s => some s
      | none => firstSourceOfJoins? rest

end

end Sql

namespace Command

abbrev Narrowed (α : Type) := Except EngineError α

def refuse {α : Type} (e : CommandError) : Narrowed α := .error (.command e)

def orRefuse {α : Type} (a? : Option α) (e : CommandError) : Narrowed α :=
  match a? with
  | some a => .ok a
  | none => refuse e

/-- A literal: a number with or without a minus sign, a string, or a bare word. -/
def literal : Expr → Narrowed Literal
  | .number s => .ok ⟨s, false⟩
  | .text s => .ok ⟨s, true⟩
  | .neg (.number s) => .ok ⟨"-" ++ s, false⟩
  | .null => refuse .nullValue
  | e =>
    match e.columnRef? with
    | some ⟨none, name⟩ => .ok ⟨name, false⟩
    | _ => refuse (.notLiteral e.print)

/-- A condition of a column and a literal, in either order. -/
def comparison : Expr → Narrowed Comparison
  | .binary .eq l r =>
    match l.columnRef?, r.columnRef? with
    | some c, _ => return ⟨c, ← literal r⟩
    | none, some c => return ⟨c, ← literal l⟩
    | none, none => refuse .conditionWithoutColumn
  | _ => refuse .condition

def keyComparison (verb : String) (e : Expr) : Narrowed Comparison := do
  let c ← comparison e
  if c.column.name = Value.keyColumn then return c else refuse (.conditionOnKey verb)

/-- The type of a column, by the word before its arguments. -/
def columnType (column shown : String) : Narrowed ColumnType :=
  let word := Text.trim (String.ofList (shown.toList.takeWhile (· ≠ '(')))
  match ColumnType.ofWord? word with
  | some t => .ok t
  | none => .error (.schema (.unsupportedType shown column))

/-- Whether the rules of a column mark its values as unique. -/
def uniqueness (column : String) : List ColumnRule → Narrowed Bool
  | [] => .ok false
  | .unique :: rest => do
    let _ ← uniqueness column rest
    return true
  | .primaryKey :: rest =>
    if column = Value.keyColumn then uniqueness column rest else .error (.schema .secondKey)
  | .other text :: _ => refuse (.columnConstraint column text)

def column : Element → Narrowed Column
  | .other text => refuse (.tableElement text)
  | .column name type? rules => do
    let shown ← orRefuse type? (.columnWithoutType name)
    let isUnique ← uniqueness name rules
    return ⟨name, ← columnType name shown, name = Value.keyColumn, isUnique⟩

/-- What a definition defines, as it is shown. -/
def shownKind (kind : String) : String := if kind = "" then "?" else Text.capitals kind

/-- The words before `JOIN`, as they are shown. -/
def shownJoin (words : String) : String := Text.capitals (Text.trim words)

def createOf (t : QualifiedName) (ifNotExists : Bool) (elements? : Option (List Element)) :
    Narrowed Command := do
  let elements ← orRefuse elements? .createUsage
  if elements.isEmpty then refuse .noColumns
  return .createTable t.name.text (← elements.mapM column) ifNotExists

def insertOf (target : Target) (rows? : Option (List (List Expr))) : Narrowed Command := do
  let table ← match target with
    | .columns _ => refuse .insertColumns
    | .table t => if t.name.text = "" then refuse (.noTableName "INSERT") else pure t.name.text
    | .other => refuse (.noTableName "INSERT")
  match ← orRefuse rows? .insertSource with
  | [row] => return .insert table (← row.mapM literal)
  | _ => refuse .insertRows

/-- Clauses that a query must not have, in the order they are looked for. -/
def foreignClauses : List (Clause × String) :=
  [(.group, "GROUP"), (.having, "HAVING"), (.order, "ORDER"), (.limit, "LIMIT"),
   (.offset, "OFFSET"), (.distinct, "DISTINCT")]

def joinOf (left : String) : Join → Narrowed Command
  | .mk words source on? => do
    let kind := shownJoin words
    if kind ≠ "" ∧ kind ≠ "INNER" then refuse (.joinKind kind)
    let right ← orRefuse source.table? .joinShape
    match ← orRefuse on? .noJoinCondition with
    | .binary .eq l r =>
      match l.columnRef?, r.columnRef? with
      | some l, some r => return .join left right ⟨l, r⟩
      | _, _ => refuse .joinCondition
    | _ => refuse .joinCondition

def selectOf (q : Query) : Narrowed Command :=
  match q with
  | .mk [.star] _ joins where? clauses => do
    match foreignClauses.find? fun (c, _) => clauses.any (·.1 = c) with
    | some (_, name) => refuse (.clause name)
    | none =>
      let source ← orRefuse q.firstSource? .noFrom
      let table ← orRefuse source.table? .fromShape
      match joins, where? with
      | [], none => return .select table none
      | [], some e => return .select table (some (← comparison e))
      | _ :: _ :: _, _ => refuse .joinCount
      | [_], some _ => refuse .joinWithWhere
      | [j], none => joinOf table j
  | _ => refuse .projection

/-- The assignments by column: the first of a column gives its place, the last its value. -/
def assignmentsOf (found : List Expr) : Narrowed (List (String × Literal)) :=
  found.foldlM (fun done e =>
    match e with
    | .binary .eq l r =>
      match l.columnRef? with
      | some c => return Keyed.set c.name (← literal r) done
      | none => refuse .assignment
    | _ => refuse .assignment) []

def updateOf (source : Source) (found : List Expr) (where? : Option Expr) : Narrowed Command := do
  let table ← orRefuse source.table? (.noTableName "UPDATE")
  let assignments ← assignmentsOf found
  if assignments.isEmpty then refuse .noAssignments
  let condition ← orRefuse where? .updateWithoutWhere
  return .update table assignments (← keyComparison "UPDATE" condition)

def deleteOf (source? : Option Source) (where? : Option Expr) : Narrowed Command := do
  let table ← orRefuse (source?.bind Source.table?) (.noTableName "DELETE")
  let condition ← orRefuse where? .deleteWithoutWhere
  return .delete table (← keyComparison "DELETE" condition)

def ofStatement : Statement → Narrowed Command
  | .createTable t ifNotExists elements? => createOf t ifNotExists elements?
  | .create kind =>
    if shownKind kind ≠ "TABLE" then refuse (.createKind (shownKind kind))
    else refuse .createUsage
  | .drop kind ifExists t =>
    if shownKind kind ≠ "TABLE" then refuse (.dropKind (shownKind kind))
    else if t.name.text = "" then refuse (.noTableName "DROP TABLE")
    else .ok (.dropTable t.name.text ifExists)
  | .insert target rows? => insertOf target rows?
  | .select q => selectOf q
  | .update source found where? => updateOf source found where?
  | .delete source? where? => deleteOf source? where?
  | .other type => refuse (.statementType type)

/-- The word that tells what a text asks for: its leading letters in capitals, or else all up to the
first blank. -/
def leadingWord (s : String) : String :=
  match s.toList.takeWhile Char.isAlpha with
  | [] => Text.firstWord s
  | letters => Text.capitals (String.ofList letters)

def knownWords : List String := ["CREATE", "DROP", "INSERT", "SELECT", "UPDATE", "DELETE"]

def ofText (text : String) : Except EngineError Command := do
  let s := Text.trim text
  if s.isEmpty then refuse .empty
  let word := leadingWord s
  if !knownWords.contains word then refuse (.unknownCommand word)
  match ← orRefuse (Statement.read? s) .unparsable with
  | [] => refuse .empty
  | [statement] => ofStatement statement
  | _ => refuse .manyStatements

end Command
end Tabulary
