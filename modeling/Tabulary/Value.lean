import Tabulary.Json.Printer
import Tabulary.Text.Quoted

/-!
Values.  A stored value is an integer or a text; the truth values and `null` occur only in rows that
a caller supplies, and validation keeps them out of storage.
-/

namespace Tabulary

inductive Value where
  | int (n : Int)
  | text (s : String)
  | bool (b : Bool)
  | null
deriving DecidableEq, Repr, Inhabited

namespace Value

def keyColumn : String := "id"

/-- The bounds of the integers that storage can hold: those of 64 bits with a sign. -/
def minInt : Int := -0x8000000000000000

def maxInt : Int := 0x7FFFFFFFFFFFFFFF

def inRange (n : Int) : Bool := minInt ≤ n && n ≤ maxInt

/-- Equality that never crosses types: the integer 1 and the text `1` differ, and so do 1 and
`true`. -/
def typedEq (a b : Value) : Bool := decide (a = b)

/-- The integer that a value stands for as a key: a truth value counts as 0 or 1. -/
def key? : Value → Option Int
  | int n => some n
  | bool b => some (if b then 1 else 0)
  | text _ => none
  | null => none

/-- Equality in which truth values count as the integers 0 and 1. -/
def looseEq (a b : Value) : Bool :=
  match a.key?, b.key? with
  | some m, some n => m == n
  | none, none => decide (a = b)
  | _, _ => false

/-- The bare text of a value. -/
def plain : Value → String
  | int n => Text.decimal n
  | text s => s
  | bool b => if b then "True" else "False"
  | null => "None"

def shown : Value → String
  | text s => Text.quoted s
  | v => v.plain

/-- Whether a message can show the value: an integer may be too long to be written. -/
def writable : Value → Bool
  | int n => Text.writable n
  | text _ | bool _ | null => true

def toJson : Value → Json
  | int n => .int n
  | text s => .text s
  | bool b => .bool b
  | null => .null

end Value
end Tabulary
