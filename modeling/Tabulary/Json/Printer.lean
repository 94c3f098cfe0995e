import Tabulary.Json.Basic
import Tabulary.Text.Decimal
import Tabulary.Text.Hex

/-!
Writing JSON, on one line or indented.  Only the double quote, the backslash and the control
characters are escaped; every other character stands for itself.
-/

namespace Tabulary
namespace Json

/-- How one character is written inside a string. -/
def escapeChar (c : Char) : List Char :=
  if c = '\x22' then ['\\', '\x22']
  else if c = '\\' then ['\\', '\\']
  else if c = '\n' then ['\\', 'n']
  else if c = '\r' then ['\\', 'r']
  else if c = '\t' then ['\\', 't']
  else if c = '\x08' then ['\\', 'b']
  else if c = '\x0c' then ['\\', 'f']
  else if c.toNat < 0x20 then '\\' :: 'u' :: Text.hexFixed 4 c.toNat
  else [c]

def quote (s : String) : String :=
  String.ofList ('\x22' :: s.toList.flatMap escapeChar ++ ['\x22'])

mutual

def render : Json → String
  | null => "null"
  | bool b => if b then "true" else "false"
  | int n => Text.decimal n
  | decimal m e => Text.decimal m ++ "e" ++ Text.decimal e
  | notANumber => "NaN"
  | text s => quote s
  | array items => "[" ++ ", ".intercalate (renderItems items) ++ "]"
  | object fields => "\x7b" ++ ", ".intercalate (renderFields fields) ++ "\x7d"

def renderItems : List Json → List String
  | [] => []
  | v :: rest => render v :: renderItems rest

def renderFields : List (String × Json) → List String
  | [] => []
  | (name, v) :: rest => (quote name ++ ": " ++ render v) :: renderFields rest

end

/-- Lines between two brackets, `depth` levels deep; nothing between them leaves the brackets
closed. -/
def bracket (openWith closeWith : String) (depth : Nat) : List String → String
  | [] => openWith ++ closeWith
  | lines =>
    let margin := String.ofList (List.replicate (2 * depth) ' ')
    openWith ++ "\n" ++ ",\n".intercalate (lines.map fun l => margin ++ "  " ++ l) ++ "\n" ++
      margin ++ closeWith

mutual

/-- A value with one item or field a line, two blanks deeper at each level. -/
def pretty (depth : Nat) : Json → String
  | array items => bracket "[" "]" depth (prettyItems (depth + 1) items)
  | object fields => bracket "\x7b" "\x7d" depth (prettyFields (depth + 1) fields)
  | null => "null"
  | bool b => if b then "true" else "false"
  | int n => Text.decimal n
  | decimal m e => Text.decimal m ++ "e" ++ Text.decimal e
  | notANumber => "NaN"
  | text s => quote s

def prettyItems (depth : Nat) : List Json → List String
  | [] => []
  | v :: rest => pretty depth v :: prettyItems depth rest

def prettyFields (depth : Nat) : List (String × Json) → List String
  | [] => []
  | (name, v) :: rest => (quote name ++ ": " ++ pretty depth v) :: prettyFields depth rest

end

end Json
end Tabulary
