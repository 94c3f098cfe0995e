import Tabulary.Sql.Grammar.Definition
import Tabulary.Sql.Lexer

/-!
Statements, and the reading of a text as statements.
-/

namespace Tabulary
namespace Sql
namespace Grammar

open Sql.Parser

/-- Where rows are inserted: a table, or columns of it. -/
def target (g : Grammar) : Parser Target := do
  if let some _ ← rows g then return .other
  if let some _ ← g.query then return .other
  let t ← need tableName
  if let some _ ← elements g then return .columns t
  if ← sees (·.isWord "AS") then
    let _ ← tableAlias g []
  return .table t

/-- What is done about a row whose key is taken. -/
def onDuplicate (g : Grammar) : Parser Unit := do
  if ← words ["ON", "DUPLICATE", "KEY"] then
    if !(← word "UPDATE") then failure
    let _ ← word "SET"
    let _ ← csv (equalities g)

/-- What is to be shown of the rows that are changed. -/
def returning (g : Grammar) : Parser Bool := do
  if !(← word "RETURNING") then return false
  let shown ← csv (item g)
  guard !shown.isEmpty
  if ← word "INTO" then
    let _ ← tableName.part
  return true

def insert (g : Grammar) : Parser Statement := do
  let _ ← word "IGNORE"
  let _ ← word "INTO"
  let _ ← word "TABLE"
  let target ← target g
  let shown ← returning g
  let _ ← words ["DEFAULT", "VALUES"]
  let rows? ← rows g
  if rows?.isNone then
    let _ ← innerQuery g
  onDuplicate g
  if !shown then
    let _ ← returning g
  return .insert target rows?

/-- A part of a change to rows.  Of several of a kind the last one counts. -/
inductive UpdatePart where
  | set (assignments : List Expr)
  | condition (e : Expr)
  | ignored

def updatePart (g : Grammar) : Parser (Option UpdatePart) := do
  if ← word "SET" then return some (.set (← csv (equalities g)))
  if let some e ← where? g then return some (.condition e)
  if let some _ ← from? g then
    let _ ← many (join g)
    return some .ignored
  if let some _ ← order g then return some .ignored
  if let some _ ← limit g then return some .ignored
  if ← returning g then return some .ignored
  pure none

def update (g : Grammar) : Parser Statement := do
  let source ← sourceExcept g ["SET"]
  let joins ← many (join g)
  let parts ← many (updatePart g)
  let assignments := parts.filterMap fun
    | .set es => some es
    | _ => none
  let conditions := parts.filterMap fun
    | .condition e => some e
    | _ => none
  return .update (withJoins source joins) (assignments.getLast?.getD []) conditions.getLast?

def delete (g : Grammar) : Parser Statement := do
  let source (_ : Unit) : Parser Source := do
    let s ← sourceExcept g []
    return withJoins s (← many (join g))
  if !(← sees (·.isWord "FROM")) then
    let _ ← csv (some <$> sourceExcept g [])
  let shown ← returning g
  let source? ← if ← word "FROM" then some <$> source () else pure none
  if ← word "USING" then
    let _ ← csv (some <$> source ())
  let where? ← where? g
  if !shown then
    let _ ← returning g
  let _ ← order g
  let _ ← limit g
  return .delete source? where?

/-- Words that begin a statement of which nothing more is known. -/
def commandWords : List String :=
  ["SHOW", "CALL", "EXPLAIN", "OPTIMIZE", "PREPARE", "VACUUM", "EXECUTE", "RENAME", "ANALYZE",
   "GRANT", "REVOKE", "ALTER", "SET", "USE", "DESCRIBE", "DESC", "BEGIN", "START", "COMMIT",
   "ROLLBACK", "KILL", "LOAD", "REPLACE", "TRUNCATE"]

def queryStatement : Query → Statement
  | .combined operation _ _ =>
    .other (match operation.toList with
      | 'E' :: _ => "Except"
      | 'I' :: _ => "Intersect"
      | _ => "Union")
  | q => .select q

def statement (g : Grammar) : Parser Statement := do
  match ← oneOfWords [("CREATE", create g), ("DROP", drop), ("INSERT", insert g),
    ("UPDATE", update g), ("DELETE", delete g)] with
  | some p => p
  | none =>
    if ← sees fun t => commandWords.any t.isWord then
      skipAll
      return .other "Command"
    match ← item g with
    | some e => return .other e.typeName
    | none => return queryStatement (← need (combinedQuery g))

end Grammar

namespace Statement

def ofTokens? (ts : List Token) : Option Statement := do
  let (s, rest) ← Grammar.statement (Grammar.ofDepth (ts.length + 1)) ts
  guard rest.isEmpty
  return s

/-- The statements of a text.  Empty ones are left out; a semicolon with a comment is one by
itself. -/
def read? (s : String) : Option (List Statement) := do
  let found ← (splitStatements (← tokens? s)).mapM fun
    | none => some [.other "Semicolon"]
    | some [] => some []
    | some ts => (ofTokens? ts).map ([·])
  return found.flatten

end Statement
end Sql
end Tabulary
