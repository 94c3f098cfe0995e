import Tabulary.Sql.Parser
import Tabulary.Sql.Tree

/-!
Which tokens can be names, and of what.
-/

namespace Tabulary
namespace Sql

/-- Words that are never bare names. -/
def keywords : List String :=
  ["SELECT", "FROM", "WHERE", "HAVING", "ORDER BY", "BY", "GROUP BY", "JOIN", "INNER", "CROSS",
   "OUTER", "STRAIGHT_JOIN", "ON", "USING", "AS", "AND", "OR", "XOR", "NOT", "IN", "LIKE", "RLIKE",
   "REGEXP", "BETWEEN", "INTO", "VALUES", "INSERT", "CREATE", "DROP", "ALTER", "UNION", "EXCEPT",
   "INTERSECT", "DISTINCT", "WITH", "NULL", "PRIMARY KEY", "KEY", "FOREIGN KEY", "FOR", "FETCH",
   "RETURNING", "LATERAL", "WHEN", "THEN", "ELSE", "QUALIFY", "GRANT"]

/-- Words that can be names elsewhere, but after a table begin something else. -/
def afterTable : List String :=
  ["LEFT", "RIGHT", "FULL", "NATURAL", "SEMI", "ANTI", "ASOF", "LOCK", "WINDOW", "FORCE", "IGNORE",
   "USE"]

namespace Parser

/-- A name: back-quoted, or a bare word outside the given ones. -/
def nameExcept (excluded : List String) : Parser (Option Name) :=
  acceptMap fun
    | .name s => some ⟨s, true⟩
    | .word w => if excluded.contains (Text.capitals w) then none else some ⟨w, false⟩
    | _ => none

def name : Parser (Option Name) := nameExcept keywords

/-- A string in place of a name. -/
def textName : Parser (Option Name) :=
  acceptMap fun
    | .text s => some ⟨s, true⟩
    | _ => none

/-- A name where nothing else is possible: any token but `SELECT` and the symbols of one
character. -/
def anyName : Parser (Option Name) :=
  acceptMap fun
    | .name s | .text s => some ⟨s, true⟩
    | .number s | .marked _ s => some ⟨s, false⟩
    | .word w => if Text.capitals w = "SELECT" then none else some ⟨w, false⟩
    | .symbol s => if s.length > 1 then some ⟨s, false⟩ else none

end Parser
end Sql
end Tabulary
