/-!
JSON values.  An object keeps its fields in the order written, repeated names included.
-/

namespace Tabulary

inductive Json where
  | null
  | bool (b : Bool)
  | int (n : Int)
  /-- A number written with a point or an exponent: `mantissa * 10 ^ exponent`. -/
  | decimal (mantissa exponent : Int)
  /-- One of the words `NaN`, `Infinity` and `-Infinity`. -/
  | notANumber
  | text (s : String)
  | array (items : List Json)
  | object (fields : List (String × Json))
deriving Repr, Inhabited

namespace Json

/-- The value of a field of an object; of several fields of one name the last counts. -/
def field? (name : String) : Json → Option Json
  | object fields => (fields.reverse.find? fun f => f.1 == name).map (·.2)
  | _ => none

end Json
end Tabulary
