/-!
Syntax trees of statements.  Parts that no later stage looks into are kept as the text they print
as.
-/

namespace Tabulary
namespace Sql

/-- A name, and whether it was written between back quotes. -/
structure Name where
  text : String
  quoted : Bool
deriving DecidableEq, Repr

structure QualifiedName where
  qualifiers : List Name
  name : Name
deriving DecidableEq, Repr

inductive Operator where
  | or | xor | and
  | eq | neq | sameAs
  | lt | le | gt | ge
  | bitAnd | bitOr | bitXor | shiftLeft | shiftRight
  | add | sub | mod | mul | div | intDiv
  | like | regexp | isValue
deriving DecidableEq, Repr

/-- Clauses of a query that matter only by being there. -/
inductive Clause where
  | group | having | qualify | order | limit | offset | distinct
deriving DecidableEq, Repr

mutual

inductive Expr where
  | number (text : String)
  | text (s : String)
  | marked (marker : Char) (text : String)
  | null
  | bool (b : Bool)
  | star
  | column (c : QualifiedName)
  | allOf (table : QualifiedName)
  /-- A name after an expression that is no column. -/
  | dot (e : Expr) (name : Name)
  | neg (e : Expr)
  | bitNot (e : Expr)
  | not (e : Expr)
  | binary (op : Operator) (l r : Expr)
  | between (e low high : Expr)
  | inside (e : Expr) (items : List Expr)
  | insideQuery (e : Expr) (q : Query)
  | paren (e : Expr)
  | tuple (items : List Expr)
  | subquery (q : Query)
  | exists (q : Query)
  | call (name : Name) (args : List Expr)
  | concat (items : List Expr)
  | alias (e : Expr) (name : Name)
  | cast (e : Expr) (type : String)
  /-- A form that stands for itself. -/
  | verbatim (text : String)

/-- What a query reads from. -/
inductive Source where
  /-- A table, with joins of its own. -/
  | table (t : QualifiedName) (alias? : Option Name) (joins : List Join)
  | query (q : Query) (alias? : Option Name)
  | other (text : String)

/-- A joined source, the words before `JOIN`, and the condition. -/
inductive Join where
  | mk (kind : String) (source : Source) (on? : Option Expr)

inductive Query where
  | mk (projections : List Expr) (source? : Option Source) (joins : List Join)
      (where? : Option Expr) (clauses : List (Clause × String))
  /-- Two queries with a set operation between them. -/
  | combined (operation : String) (l r : Query)

end

inductive ColumnRule where
  | unique
  | primaryKey
  | other (text : String)
deriving DecidableEq, Repr

inductive Element where
  | column (name : String) (type? : Option String) (rules : List ColumnRule)
  | other (text : String)
deriving DecidableEq, Repr

inductive Target where
  | table (t : QualifiedName)
  | columns (t : QualifiedName)
  | other
deriving DecidableEq, Repr

inductive Statement where
  | createTable (t : QualifiedName) (ifNotExists : Bool) (elements? : Option (List Element))
  | create (kind : String)
  | drop (kind : String) (ifExists : Bool) (t : QualifiedName)
  /-- Without rows, the values come from elsewhere. -/
  | insert (target : Target) (rows? : Option (List (List Expr)))
  | select (q : Query)
  | update (source : Source) (assignments : List Expr) (where? : Option Expr)
  | delete (source? : Option Source) (where? : Option Expr)
  /-- Any other statement, by the name of its type. -/
  | other (type : String)

end Sql
end Tabulary
