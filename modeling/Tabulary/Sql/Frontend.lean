import Tabulary.Text.Upper

/-!
What is asked of a library that reads SQL: trees for the statements of a text, and what can be seen
of a node.  How a text is read is up to the library.
-/

namespace Tabulary
namespace Sql

/-- The kinds of nodes that are told apart. -/
inductive NodeKind where
  | create | drop | insert | select | update | delete
  | schema | table | columnDef | unique | primaryKey
  | values | tuple | star | equals | column | literal | neg | null | from
  | other
deriving DecidableEq, Repr

/-- A reader of SQL.  A node has parts under names: nodes, lists of nodes and texts. -/
structure Frontend where
  Node : Type
  /-- The statements of a text, some of which may be empty; `none` where it cannot be read. -/
  read : String → Option (List (Option Node))
  kind : Node → NodeKind
  /-- The name of the class of a node. -/
  typeName : Node → String
  child? : Node → String → Option Node
  children : Node → String → List Node
  /-- The text under a name, empty if there is none. -/
  text : Node → String → String
  /-- Whether there is anything under a name that counts as true. -/
  has : Node → String → Bool
  /-- What a node is called: a table or a column by its own name. -/
  name : Node → String
  left : Node → Node
  right : Node → Node
  /-- The first node of a kind in a tree. -/
  first? : Node → NodeKind → Option Node
  print : Node → String
  /-- The text of a node in the language that is read. -/
  printIn : Node → String

namespace Frontend

variable (F : Frontend)

/-- A node that is there and of a kind. -/
def only? (k : NodeKind) (n? : Option F.Node) : Option F.Node := n?.filter (F.kind · = k)

/-- The name of a node that is a table with a name. -/
def table? (n? : Option F.Node) : Option String :=
  ((F.only? .table n?).map F.name).filter (· ≠ "")

end Frontend
end Sql
end Tabulary
