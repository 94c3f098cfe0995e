import Tabulary.Command.Frontend

/-!
The reader of statements seen as a library that reads SQL.
-/

namespace Tabulary
namespace Sql

/-- A node in the tree of a statement. -/
inductive Part where
  | statement (s : Statement)
  | schema (t : QualifiedName) (elements : List Element)
  | table (t : QualifiedName)
  | element (e : Element)
  | type (shown : String)
  | constraint (r : ColumnRule)
  | rule (r : ColumnRule)
  | rows (found : List (List Expr))
  | row (items : List Expr)
  | clause (e : Expr)
  | expr (e : Expr)
  | sources (s : Source)
  | source (s : Source)
  | join (j : Join)
  /-- A node of no kind that is told apart. -/
  | plain

namespace Part

def kind : Part → NodeKind
  | statement (.createTable _ _ _) | statement (.create _) => .create
  | statement (.drop _ _ _) => .drop
  | statement (.insert _ _) => .insert
  | statement (.select _) => .select
  | statement (.update _ _ _) => .update
  | statement (.delete _ _) => .delete
  | schema _ _ => .schema
  | table _ | source (.table _ _ _) => .table
  | element (.column _ _ _) => .columnDef
  | rule .unique => .unique
  | rule .primaryKey => .primaryKey
  | rows _ => .values
  | row _ => .tuple
  | expr .star => .star
  | expr (.binary .eq _ _) => .equals
  | expr (.column _) | expr (.allOf _) => .column
  | expr (.number _) | expr (.text _) => .literal
  | expr (.neg _) => .neg
  | expr .null => .null
  | sources _ => .from
  | _ => .other

def typeName : Part → String
  | statement (.other className) => className
  | _ => ""

/-- The part under a name, if it is a node. -/
def child? : Part → String → Option Part
  | statement (.createTable t _ (some elements)), "this" => some (schema t elements)
  | statement (.createTable t _ none), "this" | statement (.drop _ _ t), "this" => some (table t)
  | schema t _, "this" => some (table t)
  | element (.column _ type? _), "kind" => type?.map type
  | constraint r, "kind" => some (rule r)
  | statement (.insert (.columns t) _), "this" => some (schema t [])
  | statement (.insert (.table t) _), "this" => some (table t)
  | statement (.insert _ rows?), "expression" => rows?.map rows
  | statement (.select (.mk _ _ _ where? _)), "where" => where?.map clause
  | statement (.update s _ _), "this" => some (source s)
  | statement (.update _ _ where?), "where" => where?.map clause
  | statement (.delete source? _), "this" => source?.map source
  | statement (.delete _ where?), "where" => where?.map clause
  | clause e, "this" => some (expr e)
  | sources s, "this" => some (source s)
  | join (.mk _ s _), "this" => some (source s)
  | join (.mk _ _ on?), "on" => on?.map expr
  | expr (.neg e), "this" => some (expr e)
  | _, _ => none

/-- The parts under a name. -/
def children : Part → String → List Part
  | schema _ elements, "expressions" => elements.map element
  | element (.column _ _ rules), "constraints" => rules.map constraint
  | rows found, "expressions" => found.map row
  | row items, "expressions" => items.map expr
  | statement (.select (.mk projections _ _ _ _)), "expressions" => projections.map expr
  | statement (.select (.mk _ _ joins _ _)), "joins" => joins.map join
  | statement (.update _ found _), "expressions" => found.map expr
  | _, _ => []

def text : Part → String → String
  | statement (.createTable _ _ _), "kind" => "TABLE"
  | statement (.create kind), "kind" | statement (.drop kind _ _), "kind" => kind
  | join (.mk words _ _), "kind" => words
  | expr (.number s), "this" | expr (.text s), "this" => s
  | expr (.column c), "table" => (qualifier? c.qualifiers).getD ""
  | expr (.allOf t), "table" => (qualifier? (t.qualifiers ++ [t.name])).getD ""
  | _, _ => ""

/-- The names under which the clauses of a query stand. -/
def clauseNames : List (String × Clause) :=
  [("group", .group), ("having", .having), ("qualify", .qualify), ("order", .order),
    ("limit", .limit), ("offset", .offset), ("distinct", .distinct)]

def has : Part → String → Bool
  | statement (.createTable _ conditional _), "exists"
  | statement (.drop _ conditional _), "exists" => conditional
  | statement (.select (.mk _ _ _ _ clauses)), part =>
    (clauseNames.lookup part).any fun c => clauses.any (·.1 = c)
  | expr (.text _), "is_string" => true
  | _, _ => false

def name : Part → String
  | table t | source (.table t _ _) => t.name.text
  | element (.column name _ _) => name
  | expr (.column c) => c.name.text
  | expr (.allOf _) => "*"
  | _ => ""

def left : Part → Part
  | expr (.binary _ l _) => expr l
  | p => p

def right : Part → Part
  | expr (.binary _ _ r) => expr r
  | p => p

def first? : Part → NodeKind → Option Part
  | statement (.select q), .from => q.firstSource?.map sources
  | _, _ => none

def print : Part → String
  | type shown => shown
  | element (.other text) | constraint (.other text) => text
  | expr e => e.print
  | _ => ""

end Part

/-- The reader of statements, as any other library. -/
abbrev Frontend.own : Frontend where
  Node := Part
  read text := (Statement.read? text).map fun found => found.map fun s => some (.statement s)
  kind := Part.kind
  typeName := Part.typeName
  child? := Part.child?
  children := Part.children
  text := Part.text
  has := Part.has
  name := Part.name
  left := Part.left
  right := Part.right
  first? := Part.first?
  print := Part.print
  printIn := Part.print

end Sql
end Tabulary
