import Tabulary.Error.Fault

/-!
Rows: a key and a value for each named column.
-/

namespace Tabulary

structure Row where
  id : Value
  values : List (String × Value)
  /-- Only rows read from storage can be deleted ones. -/
  deleted : Bool := false
deriving DecidableEq, Repr

namespace Row

def value? (r : Row) (column : String) : Option Value := r.values.lookup column

/-- The row of these values, keyed by the one of `id`. -/
def ofValues (values : List (String × Value)) : Except EngineError Row :=
  match values.lookup Value.keyColumn with
  | some id => .ok { id, values }
  | none => .error (.schema .rowWithoutKey)

def get (r : Row) (column : String) : Except Fault Value :=
  match r.value? column with
  | some v => .ok v
  | none => .error (.noColumn column)

end Row

/-- The fields with the changes written over them; fields of new names follow at the end. -/
def overwrite (fields changes : List (String × Value)) : List (String × Value) :=
  changes.foldl (fun fs c =>
    if fs.any (·.1 == c.1) then fs.map fun f => if f.1 == c.1 then c else f else fs ++ [c]) fields

end Tabulary
