import Tabulary.Text.Upper

/-!
Tokens of commands.
-/

namespace Tabulary
namespace Sql

inductive Token where
  /-- A bare word, keyword or not.  Two words that form one keyword, such as `GROUP BY`, are one
  token. -/
  | word (text : String)
  | name (text : String)
  /-- A string, its delimiters and escapes resolved. -/
  | text (s : String)
  | number (text : String)
  /-- A string with a marker before it: `x` hexadecimal, `b` binary, `N` national. -/
  | marked (marker : Char) (text : String)
  | symbol (text : String)
deriving DecidableEq, Repr

namespace Token

/-- Whether the token is a bare word that reads as `w` in capitals. -/
def isWord (w : String) : Token → Bool
  | word t => Text.capitals t == w
  | _ => false

/-- Whether the token reads as `w` in capitals, as a bare word or between back quotes. -/
def isSpelled (w : String) : Token → Bool
  | word t | name t => Text.capitals t == w
  | _ => false

def isSymbol (s : String) : Token → Bool
  | symbol t => t == s
  | _ => false

end Token
end Sql
end Tabulary
