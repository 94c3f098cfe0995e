import Tabulary.Sql.Grammar.Expression

/-!
Queries and what they read from.
-/

namespace Tabulary
namespace Sql
namespace Grammar

open Sql.Parser

def tableAlias (g : Grammar) (excluded : List String) : Parser (Option Name) := do
  if ← limitFollows g then return none
  let alias? ← if ← word "AS" then anyName else do
    match ← nameExcept (keywords ++ afterTable ++ excluded) with
    | some n => pure (some n)
    | none => textName
  let _ ← attempt do
    let columns ← wrapped (csv name)
    return if columns.isEmpty then none else some columns
  return alias?

def tableName : Parser (Option QualifiedName) := do
  match ← part with
  | none => pure none
  | some first =>
    let more ← many do
      if ← symbol "." then return some (← need part) else pure none
    return some (more.foldl (fun q n => ⟨q.qualifiers ++ [q.name], n⟩) ⟨[], first⟩)
where
  part : Parser (Option Name) := do
    match ← name with
    | some n => return some n
    | none => textName

def row (g : Grammar) : Parser (Option (List Expr)) := do
  if ← symbol "(" then
    let values ← csv do
      if ← word "DEFAULT" then return some (.verbatim "DEFAULT") else item g
    expectSymbol ")"
    return some values
  else return (← item g).map ([·])

def rows (g : Grammar) : Parser (Option (List (List Expr))) := do
  if !(← spelled "VALUES") then return none
  let found ← csv (row g)
  guard !found.isEmpty
  if (← tableAlias g []).isNone then
    let _ ← tableAlias g []
  return some found

def printRows (found : List (List Expr)) : String :=
  "VALUES " ++ ", ".intercalate (found.map fun r => parens (r.map Expr.print))

/-- Which indexes of a table are to be used, or not. -/
def indexHint : Parser (Option Unit) := do
  match ← oneOfWords [("USE", ()), ("FORCE", ()), ("IGNORE", ())] with
  | none => pure none
  | some _ =>
    let _ ← oneOfWords [("INDEX", ()), ("KEY", ())]
    if ← word "FOR" then
      let _ ← need anyName
    let _ ← wrapped (csv anyName)
    return some ()

/-- What a clause reads from: a table, a query, or another form that has rows. -/
def sourceExcept (g : Grammar) (excluded : List String) : Parser Source := do
  if let some found ← rows g then return .other (printRows found)
  if let some q ← g.query then return .query q (← tableAlias g excluded)
  if ← symbol "(" then
    let inner ← g.source
    let _ ← g.joins
    expectSymbol ")"
    let alias? ← tableAlias g excluded
    return .other ("(" ++ inner.print ++ ")" ++ printAlias alias?)
  if let some e ← call g then
    return .other (e.print ++ printAlias (← tableAlias g excluded))
  let t ← need tableName
  let _ ← symbol "*"
  let alias? ← tableAlias g excluded
  let _ ← many indexHint
  return .table t alias? []

def from? (g : Grammar) : Parser (Option Source) := do
  if ← word "FROM" then return some (← sourceExcept g []) else pure none

/-- Words that tell the kind of a join. -/
def joinKinds : List String := ["INNER", "OUTER", "CROSS", "SEMI", "ANTI", "STRAIGHT_JOIN"]

/-- The words before `JOIN`, those that show in its kind apart from those that do not. -/
def joinWords : Parser (Option (Bool × String)) := attempt do
  let method? ← oneOfWords [("NATURAL", ()), ("ASOF", ())]
  let side? ← oneOfWords [("LEFT", "LEFT"), ("RIGHT", "RIGHT"), ("FULL", "FULL")]
  let kind? ← oneOfWords (joinKinds.map fun w => (w, w))
  if !(← word "JOIN") && kind? ≠ some "STRAIGHT_JOIN" then return none
  return some (method?.isSome || kind? = some "CROSS",
    " ".intercalate (side?.toList ++ kind?.toList))

def usingColumns : Parser Unit := do
  match ← attempt (return some (← wrapped (csv name))) with
  | some _ => pure ()
  | none =>
    let _ ← csv name

/-- The condition of a join: what follows `ON`, nothing after `USING`, and `none` if neither
does. -/
def joinCondition (g : Grammar) : Parser (Option (Option Expr)) := do
  if ← word "ON" then return some (← condition g)
  else if ← word "USING" then
    usingColumns
    return some none
  else pure none

/-- A table keeps the joins that stand between it and its condition. -/
def withJoins : Source → List Join → Source
  | .table t a own, joins => .table t a (own ++ joins)
  | s, _ => s

/-- One join.  After a comma the source may be missing, and the comma is passed over. -/
def join (g : Grammar) : Parser (Option Join) := do
  if ← symbol "," then
    let source? ← attempt (return some (← sourceExcept g []))
    return source?.map fun s => .mk "" s none
  match ← joinWords with
  | none => pure none
  | some (closed, kind) =>
    let source ← sourceExcept g []
    match ← joinCondition g with
    | some on? => return some (.mk kind source on?)
    | none =>
      if closed then return some (.mk kind source none)
      let nested? ← attempt do
        let inner ← g.joins
        if inner.isEmpty then return none
        return (← joinCondition g).map fun on? => (inner, on?)
      match nested? with
      | some (inner, on?) => return some (.mk kind (withJoins source inner) on?)
      | none => return some (.mk kind source none)

def orderItem (g : Grammar) : Parser (Option String) := do
  match ← condition g with
  | none => pure none
  | some e =>
    match ← oneOfWords [("ASC", " ASC"), ("DESC", " DESC")] with
    | some direction => return some (e.print ++ direction)
    | none => return some e.print

def order (g : Grammar) : Parser (Option String) := do
  if !(← word "ORDER BY") then return none
  let items ← csv (orderItem g)
  guard !items.isEmpty
  return some ("ORDER BY " ++ ", ".intercalate items)

def where? (g : Grammar) : Parser (Option Expr) := do
  if ← word "WHERE" then return some (← need (condition g)) else pure none

/-- What can follow the sources of a query. -/
inductive Modifier where
  | condition (e : Expr)
  | clauses (found : List (Clause × String))

def locking : Parser Bool := do
  let exclusive ← words ["FOR", "UPDATE"]
  let shared ← words ["FOR", "SHARE"]
  if exclusive || shared then
    let _ ← words ["NOWAIT"]
    let _ ← words ["SKIP", "LOCKED"]
    return true
  else words ["LOCK", "IN", "SHARE", "MODE"]

def modifier (g : Grammar) : Parser (Option Modifier) := do
  if let some e ← where? g then return some (.condition e)
  if ← word "GROUP BY" then
    let keys ← csv (condition g)
    return some (.clauses [(.group, "GROUP BY " ++ ", ".intercalate (keys.map Expr.print))])
  if ← word "HAVING" then
    return some (.clauses [(.having, "HAVING " ++ (← need (condition g)).print)])
  if ← word "QUALIFY" then
    return some (.clauses [(.qualify, "QUALIFY " ++ (← need (condition g)).print)])
  if let some s ← order g then return some (.clauses [(.order, s)])
  if let some (count, skipped?) ← limit g then
    return some (.clauses ((.limit, "LIMIT " ++ count.print) ::
      skipped?.toList.map fun e => (.offset, "OFFSET " ++ e.print)))
  if let some e ← offset g then return some (.clauses [(.offset, "OFFSET " ++ e.print)])
  if ← locking then return some (.clauses [])
  pure none

/-- The condition and the clauses of a query, each of which may occur once. -/
def collect (found : List Modifier) : Option (Option Expr × List (Clause × String)) :=
  let conditions := found.filterMap fun
    | .condition e => some e
    | .clauses _ => none
  let clauses := found.flatMap fun
    | .condition _ => []
    | .clauses cs => cs
  if conditions.length ≤ 1 ∧ (clauses.map Prod.fst).Nodup then some (conditions.head?, clauses)
  else none

/-- A word before the projections, if something comes after it. -/
def distinct : Parser Bool := fun ts =>
  match ts with
  | t :: next :: rest =>
    if next.isSymbol "." then some (false, ts)
    else if t.isWord "DISTINCT" then some (true, next :: rest)
    else if t.isWord "ALL" then some (false, next :: rest)
    else some (false, ts)
  | _ => some (false, ts)

def select (g : Grammar) : Parser (Option Query) := do
  if !(← word "SELECT") then return none
  let distinct ← distinct
  let projections ← csv (item g)
  if ← word "INTO" then
    let _ ← word "TABLE"
    let _ ← need tableName
  let source? ← from? g
  let joins ← many (join g)
  let found ← many (modifier g)
  match collect found with
  | none => failure
  | some (where?, clauses) =>
    let clauses := if distinct then (Clause.distinct, "DISTINCT") :: clauses else clauses
    return some (.mk projections source? joins where? clauses)

/-- Queries with set operations between them. -/
def combinedQuery (g : Grammar) : Parser (Option Query) := do
  match ← select g with
  | none => pure none
  | some first =>
    let more ← many do
      match ← oneOfWords [("UNION", "UNION"), ("EXCEPT", "EXCEPT"),
        ("INTERSECT", "INTERSECT")] with
      | none => pure none
      | some operation =>
        let all ← word "ALL"
        let _ ← word "DISTINCT"
        let r ← need do
          if ← symbol "(" then
            let q ← need g.query
            expectSymbol ")"
            return some q
          else select g
        return some (if all then operation ++ " ALL" else operation, r)
    return some (more.foldl (fun l (operation, r) => .combined operation l r) first)

def nesting (g : Grammar) : Grammar where
  expr := condition g
  equality := equalities g
  unary := signed g
  query := combinedQuery g
  source := sourceExcept g []
  joins := many (join g)

/-- The grammar with room for some depth of nesting. -/
def ofDepth : Nat → Grammar
  | 0 => shut
  | n + 1 => nesting (ofDepth n)

end Grammar
end Sql
end Tabulary
