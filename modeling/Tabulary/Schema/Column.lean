import Tabulary.Error.Fault

/-!
Column definitions, and the conversion of a literal to a column's type.
-/

namespace Tabulary

structure Column where
  name : String
  type : ColumnType
  isKey : Bool
  isUnique : Bool
deriving DecidableEq, Repr, Inhabited

namespace Column

/-- Whether the values in use are indexed: the key has an index of its own kind. -/
def hasUniqueIndex (c : Column) : Bool := c.isUnique && !c.isKey

/-- Whether a value can be stored in the column as it is. -/
def accepts (c : Column) : Value → Bool
  | .int n => c.type == .integer && Value.inRange n
  | .text _ => c.type == .text
  | .bool _ | .null => false

/-- The integer that a text denotes, within the stored range. -/
def integerOfText (c : Column) (s : String) : Except Fault Value :=
  match Text.Numeral.read? (Text.trim s).toList with
  | none => .error (.engine (.typeMismatch c.name (.text s) .integer))
  | some m =>
    if m.digits.length ≤ Text.maxDigits then
      if Value.inRange m.value then .ok (.int m.value)
      else .error (.engine (.typeMismatch c.name (.text s) .integer))
    else .error (.digitLimit m.digits.length)

/-- A text column keeps the plain text of any literal but a truth value; an integer column takes
integers and decimal texts within the stored range.  An integer is written out where its text is
kept, and where it is refused, since the refusal shows it. -/
def convert (c : Column) (literal : Value) : Except Fault Value :=
  match c.type, literal with
  | t, .bool b => .error (.engine (.typeMismatch c.name (.bool b) t))
  | .text, .int n => if Text.writable n then .ok (.text (Text.decimal n)) else .error .unwritten
  | .text, v => .ok (.text v.plain)
  | .integer, .int n =>
    if Value.inRange n then .ok (.int n)
    else .error (.raised (.typeMismatch c.name (.int n) .integer))
  | .integer, .text s => c.integerOfText s
  | .integer, .null => .error (.engine (.typeMismatch c.name .null .integer))

end Column
end Tabulary
