import Tabulary.Sql.Grammar.Words
import Tabulary.Sql.Printer

/-!
The parts of the grammar that occur inside one another.  Each part is written over a grammar for
what is nested in it, so that a grammar for any depth of nesting arises by putting them on top of
one another.
-/

namespace Tabulary
namespace Sql

structure Grammar where
  /-- A condition or a value, without an alias. -/
  expr : Parser (Option Expr)
  /-- Operands of comparisons with `=` between them. -/
  equality : Parser (Option Expr)
  /-- An operand with signs before it. -/
  unary : Parser (Option Expr)
  query : Parser (Option Query)
  source : Parser Source
  joins : Parser (List Join)

/-- The grammar in which nothing can be nested. -/
def Grammar.shut : Grammar := ⟨failure, failure, failure, failure, failure, failure⟩

end Sql
end Tabulary
