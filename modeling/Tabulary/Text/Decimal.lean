import Tabulary.Text.Blank
import Tabulary.Text.Digit

/-!
Decimal text of integers.  Written: the plain digits after an optional minus.  Read: an optional
sign and one or more decimal digits of any script, blanks around them set aside.
-/

namespace Tabulary
namespace Text

def decimal (n : Int) : String := toString n

/-- Most digits that an integer may have where it is read from a text, or written as one. -/
def maxDigits : Nat := 4300

/-- Whether an integer has no more digits than are written. -/
def writable (n : Int) : Bool := (Nat.toDigits 10 n.natAbs).length ≤ maxDigits

def ofDigits (ds : List Nat) : Nat := ds.foldl (fun n d => 10 * n + d) 0

/-- A sign and the values of the digits after it. -/
structure Numeral where
  negative : Bool
  digits : List Nat
deriving DecidableEq, Repr

namespace Numeral

def value (m : Numeral) : Int :=
  if m.negative then -(ofDigits m.digits : Int) else (ofDigits m.digits : Int)

/-- Reads one or more digits and nothing else. -/
def digits? : List Char → Option (List Nat)
  | [] => none
  | c :: cs => (c :: cs).mapM digitValue?

def read? : List Char → Option Numeral
  | '-' :: cs => (digits? cs).map fun ds => ⟨true, ds⟩
  | '+' :: cs => (digits? cs).map fun ds => ⟨false, ds⟩
  | cs => (digits? cs).map fun ds => ⟨false, ds⟩

end Numeral
end Text
end Tabulary
