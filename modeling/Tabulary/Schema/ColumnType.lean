import Tabulary.Text.Upper

/-!
The two types a column can have.
-/

namespace Tabulary

inductive ColumnType where
  | integer
  | text
deriving DecidableEq, Repr, Inhabited

namespace ColumnType

def name : ColumnType → String
  | integer => "int"
  | text => "string"

def ofName? (s : String) : Option ColumnType :=
  if s = "int" then some integer else if s = "string" then some text else none

@[simp] theorem ofName?_name (t : ColumnType) : ofName? t.name = some t := by
  cases t <;> rfl

/-- The type that a word of a command stands for, in any case. -/
def ofWord? (word : String) : Option ColumnType :=
  let w := Text.capitals word
  if w = "INT" ∨ w = "INTEGER" ∨ w = "BIGINT" then some integer
  else if w = "STRING" ∨ w = "TEXT" ∨ w = "VARCHAR" then some text
  else none

end ColumnType
end Tabulary
