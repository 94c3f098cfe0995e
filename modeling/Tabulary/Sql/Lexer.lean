import Tabulary.Sql.Token
import Tabulary.Text.Blank
import Tabulary.Text.Digit
import Tabulary.Text.Initial

/-!
From the text of a command to its tokens.  Blanks and comments separate tokens.  Strings stand
between single or double quotes; a doubled delimiter is one, and a backslash begins an escape.  A
number may be followed by letters, which makes it a word.
-/

namespace Tabulary
namespace Sql
namespace Lexer

abbrev Reader (α : Type) := List Char → Option (α × List Char)

def isSingle (c : Char) : Bool :=
  "()[]\x7b\x7d&^:,-.+%/\\?~=><|!;#*@'\x60\x22".toList.contains c

def isWordChar (c : Char) : Bool := !Text.isBlank c && !isSingle c

/-- The line breaks in a text; a carriage return with a line feed is one. -/
def breaks : List Char → Nat
  | [] => 0
  | '\r' :: '\n' :: rest => breaks rest + 1
  | c :: rest => if c = '\n' ∨ c = '\r' then breaks rest + 1 else breaks rest

def escaped (c : Char) : List Char :=
  match c with
  | 'a' => ['\x07']
  | 'b' => ['\x08']
  | 'f' => ['\x0c']
  | 'n' => ['\n']
  | 'r' => ['\r']
  | 't' => ['\t']
  | 'v' => ['\x0b']
  | '0' | 'Z' | '%' | '_' => ['\\', c]
  | c => [c]

def string (delimiter : Char) : Reader (List Char)
  | [] => none
  | [c] => if c = delimiter then some ([], []) else none
  | c :: d :: rest =>
    if c = '\\' then (string delimiter rest).map fun (s, r) => (escaped d ++ s, r)
    else if c = delimiter then
      if d = delimiter then (string delimiter rest).map fun (s, r) => (delimiter :: s, r)
      else some ([], d :: rest)
    else (string delimiter (d :: rest)).map fun (s, r) => (c :: s, r)

/-- The content of a back-quoted name, in which a backslash is an ordinary character. -/
def quotedName : Reader (List Char)
  | [] => none
  | [c] => if c = '\x60' then some ([], []) else none
  | c :: d :: rest =>
    if c = '\x60' then
      if d = '\x60' then (quotedName rest).map fun (s, r) => ('\x60' :: s, r)
      else some ([], d :: rest)
    else (quotedName (d :: rest)).map fun (s, r) => (c :: s, r)

/-- The text after the end of a block comment. -/
def blockRest : List Char → Option (List Char)
  | '*' :: '/' :: rest => some rest
  | _ :: rest => blockRest rest
  | [] => none

def span (p : Char → Bool) (cs : List Char) : List Char × List Char :=
  (cs.takeWhile p, cs.dropWhile p)

/-- The rest of a number after its first digit: digits, one point, and an exponent with an optional
sign that a digit must follow.  The state says whether a point, and whether an exponent letter and
its sign, have been read. -/
def numberRest (point : Bool) (exponent sign : Bool) : List Char → List Char × List Char
  | [] => ([], [])
  | c :: rest =>
    if Text.isFigure c then (numberRest point exponent sign rest).map (c :: ·) id
    else if c = '.' ∧ !point then (numberRest true exponent sign rest).map (c :: ·) id
    else if (c = '-' ∨ c = '+') ∧ exponent ∧ !sign then
      if rest.head?.any Text.isFigure then (numberRest point exponent true rest).map (c :: ·) id
      else ([], c :: rest)
    else if (c = 'e' ∨ c = 'E') ∧ !exponent then
      (numberRest point true sign rest).map (c :: ·) id
    else ([], c :: rest)

/-- Whether a text consists of a prefix and one or more digits of a base. -/
def isBased (base : Nat) : List Char → Bool
  | _ :: _ :: digits => !digits.isEmpty && digits.all fun c =>
    let n := c.toNat
    let v := if 0x30 ≤ n && n ≤ 0x39 then n - 0x30
      else if 0x41 ≤ n && n ≤ 0x46 then n - 0x37
      else if 0x61 ≤ n && n ≤ 0x66 then n - 0x57 else 16
    v < base
  | _ => false

/-- A number, or the word that begins with it. -/
def number (first : Char) (cs : List Char) : Token × List Char :=
  let based (marker : Char) (base : Nat) : Token × List Char :=
    let (w, rest) := span isWordChar (first :: cs)
    if isBased base w then (.marked marker (String.ofList (w.drop 2)), rest)
    else (.name (String.ofList w), rest)
  match first, cs with
  | '0', 'x' :: _ | '0', 'X' :: _ => based 'x' 16
  | '0', 'b' :: _ | '0', 'B' :: _ => based 'b' 2
  | _, _ =>
    let (digits, rest) := numberRest false false false cs
    if rest.head?.any Text.isInitial then
      let (more, rest) := span isWordChar rest
      (.word (String.ofList (first :: digits ++ more)), rest)
    else (.number (String.ofList (first :: digits)), rest)

/-- Pairs of words that form one keyword. -/
def pairs : List (String × String) :=
  [("GROUP", "BY"), ("ORDER", "BY"), ("PRIMARY", "KEY"), ("FOREIGN", "KEY"),
    ("DOUBLE", "PRECISION"), ("CHARACTER", "VARYING"), ("CHARACTER", "SET"), ("CHAR", "VARYING"),
    ("PARTITION", "BY")]

/-- A word, together with the next one if blanks alone part them and they form one keyword. -/
def word (cs : List Char) : Token × List Char :=
  let (w, rest) := span isWordChar cs
  let first := String.ofList w
  let (gap, after) := span Text.isBlank rest
  let (v, rest') := span isWordChar after
  let second := Text.capitals (String.ofList v)
  if !gap.isEmpty && pairs.contains (Text.capitals first, second) then
    (.word (Text.capitals first ++ " " ++ second), rest')
  else (.word first, rest)

/-- The symbols of more than one character, longer ones first. -/
def compound : List String :=
  ["<=>", "->>", "<>", "!=", "<=", ">=", "==", "||", "&&", ":=", "<<", ">>", "->", "::"]

/-- A symbol: the longest that the text begins with. -/
def symbol (c : Char) (rest : List Char) : Token × List Char :=
  match compound.find? fun s => s.toList.isPrefixOf (c :: rest) with
  | some s => (.symbol s, (c :: rest).drop s.length)
  | none => (.symbol (String.singleton c), rest)

/-- The token at the front of a text that begins with neither a blank nor a comment. -/
def token : Reader Token
  | [] => none
  | c :: rest =>
    if Text.isFigure c then some (number c rest)
    else if c = '\x60' then (quotedName rest).map fun (s, r) => (.name (String.ofList s), r)
    else if c = '\x27' ∨ c = '\x22' then
      (string c rest).map fun (s, r) => (.text (String.ofList s), r)
    else if isSingle c then some (symbol c rest)
    else
      let marked (marker : Char) (s : List Char) (r : List Char) : Token × List Char :=
        (.marked marker (String.ofList s), r)
      match c, rest with
      | 'x', '\x27' :: r | 'X', '\x27' :: r => (string '\x27' r).map fun (s, r) => marked 'x' s r
      | 'b', '\x27' :: r | 'B', '\x27' :: r => (string '\x27' r).map fun (s, r) => marked 'b' s r
      | 'n', '\x27' :: r | 'N', '\x27' :: r => (string '\x27' r).map fun (s, r) => marked 'N' s r
      | 'n', '\x22' :: r | 'N', '\x22' :: r => (string '\x22' r).map fun (s, r) => marked 'N' s r
      | _, _ => some (word (c :: rest))

/-- A comment at the front of a text: what follows it, or nothing where it does not end. -/
def comment? : List Char → Option (Option (List Char))
  | '-' :: '-' :: rest => some (some (rest.dropWhile fun c => c ≠ '\n' && c ≠ '\r'))
  | '#' :: rest => some (some (rest.dropWhile fun c => c ≠ '\n' && c ≠ '\r'))
  | '/' :: '*' :: rest => some (blockRest rest)
  | _ => none

/-- A token, and whether a comment belongs to it.  A comment belongs to the token before it if that
ends on the line where the comment begins, and to the token after it otherwise. -/
structure Lexeme where
  token : Token
  commented : Bool
deriving DecidableEq, Repr

/-- Marks the last of some tokens, given in reverse, as commented. -/
def attach : List Lexeme → List Lexeme
  | [] => []
  | l :: rest => { l with commented := true } :: rest

/-- Reads tokens to the end of the text.  `found` holds those read so far in reverse, `mark` the
text after the last of them, and `pending` tells whether a comment waits for the next. -/
def run : Nat → List Lexeme → Option (List Char) → Bool → List Char → Option (List Lexeme)
  | 0, _, _, _, _ => none
  | _ + 1, found, _, pending, [] => some (if pending then attach found else found).reverse
  | n + 1, found, mark, pending, c :: rest =>
    if Text.isBlank c then run n found mark pending rest
    else match comment? (c :: rest) with
      | some none => none
      | some (some after) =>
        if mark.map breaks = some (breaks (c :: rest)) then
          run n (attach found) (some after) false after
        else run n found mark true after
      | none => do
        let (t, after) ← token (c :: rest)
        run n (⟨t, pending⟩ :: found) (some after) false after

end Lexer

/-- The tokens of a text, unless a string, a quoted name or a comment in it does not end. -/
def tokens? (s : String) : Option (List Lexer.Lexeme) :=
  Lexer.run (s.toList.length + 1) [] none false s.toList

/-- Splits tokens at semicolons.  A semicolon with a comment makes a statement of its own, given as
`none`. -/
def splitStatements (ls : List Lexer.Lexeme) : List (Option (List Token)) :=
  match ls with
  | [] => [some []]
  | l :: rest =>
    if l.token = .symbol ";" then
      if l.commented then some [] :: none :: splitStatements rest
      else some [] :: splitStatements rest
    else match splitStatements rest with
      | some ts :: more => some (l.token :: ts) :: more
      | more => some [l.token] :: more

end Sql
end Tabulary
