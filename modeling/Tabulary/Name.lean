import Tabulary.Text.Blank

/-!
Names of tables and databases as names of files and directories.
-/

namespace Tabulary
namespace Name

/-- The characters without the pairs of dots, taken from the left. -/
def dropDotPairs : List Char → List Char
  | '.' :: '.' :: rest => dropDotPairs rest
  | c :: rest => c :: dropDotPairs rest
  | [] => []

/-- The name without pairs of dots, then without slashes, then without backslashes. -/
def sanitize (name : String) : String :=
  String.ofList (((dropDotPairs name.toList).filter (· ≠ '/')).filter (· ≠ '\\'))

/-- Whether a sanitized name can stand for a file: it holds more than dots and has no blank at an
end. -/
def isStorable (name : String) : Bool :=
  name != "" && name.toList.any (· ≠ '.') && name == Text.trim name

def tableFile (table : String) : String := sanitize table ++ ".tbl"

end Name
end Tabulary
