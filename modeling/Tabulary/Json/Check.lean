import Tabulary.Error.Fault
import Tabulary.Json.Basic
import Tabulary.Text.Order

/-!
Checking that data has an expected shape.  A check does not stop at the first rule that is broken:
it reports each with the place where it is.
-/

namespace Tabulary

/-- A checked value, or every rule that the data breaks. -/
abbrev Checked (α : Type) := Except (List Complaint) α

namespace Checked

variable {α β : Type}

def fail (location rule : String) : Checked α := .error [⟨location, rule⟩]

/-- Two checks side by side; the complaints of both are reported. -/
def both (x : Checked α) (y : Checked β) : Checked (α × β) :=
  match x, y with
  | .ok a, .ok b => .ok (a, b)
  | .ok _, .error e => .error e
  | .error d, .ok _ => .error d
  | .error d, .error e => .error (d ++ e)

def all : List (Checked α) → Checked (List α)
  | [] => .ok []
  | x :: rest => (both x (all rest)).map fun (a, as) => a :: as

/-- The value, or a fault with the complaints in order. -/
def result (x : Checked α) : Except Fault α :=
  x.mapError fun cs => .invalid (cs.mergeSort fun a b =>
    Text.inOrder [a.location, a.rule] [b.location, b.rule])

end Checked

namespace Json

variable {α : Type}

def within (location part : String) : String :=
  if location = "" then part else location ++ "." ++ part

def checkText (location : String) : Json → Checked String
  | text s => .ok s
  | _ => Checked.fail location "string_type"

def checkArray (item : String → Json → Checked α) (location : String) :
    Json → Checked (List α)
  | array items => Checked.all (items.mapIdx fun i v => item (within location (toString i)) v)
  | _ => Checked.fail location "list_type"

/-- A check of an object's fields, which applies to objects only. -/
def checkObject (fields : Json → Checked α) (location : String) (v : Json) : Checked α :=
  match v with
  | object _ => fields v
  | _ => Checked.fail location "model_type"

def required (name : String) (check : String → Json → Checked α)
    (location : String) (v : Json) : Checked α :=
  match v.field? name with
  | some part => check (within location name) part
  | none => Checked.fail (within location name) "missing"

def optional (name : String) (default : α) (check : String → Json → Checked α)
    (location : String) (v : Json) : Checked α :=
  match v.field? name with
  | some part => check (within location name) part
  | none => .ok default

/-- The truth value that a word stands for, in any case. -/
def truthOfWord? (s : String) : Option Bool :=
  let word := String.ofList (s.toList.map Char.toLower)
  if word ∈ ["1", "on", "t", "true", "y", "yes"] then some true
  else if word ∈ ["0", "off", "f", "false", "n", "no"] then some false
  else none

def truthOfInt? (n : Int) : Option Bool :=
  if n = 0 then some false else if n = 1 then some true else none

/-- The integer that the floating-point number nearest to `mantissa * 10 ^ exponent` equals, or the
rule that it breaks: it has to be finite, whole, and of less than 64 bits. -/
def integral (mantissa exponent : Int) : Except String Int :=
  let digits : Int := (Nat.toDigits 10 mantissa.natAbs).length
  if mantissa = 0 ∨ digits + exponent < -400 then .ok 0
  else if 400 < digits + exponent then .error "finite_number"
  else
    let size := Float.ofScientific mantissa.natAbs (exponent < 0) exponent.natAbs
    if size.isInf then .error "finite_number"
    else if size != size.floor then .error "int_from_float"
    else if 9223372036854775808.0 ≤ size then .error "int_parsing_size"
    else
      let whole : Int := size.toUInt64.toNat
      .ok (if mantissa < 0 then -whole else whole)

def checkBool (location : String) (v : Json) : Checked Bool :=
  let parsed (b : Option Bool) : Checked Bool :=
    match b with
    | some b => .ok b
    | none => Checked.fail location "bool_parsing"
  match v with
  | bool b => .ok b
  | text s => parsed (truthOfWord? s)
  | int n =>
    if Value.inRange n then parsed (truthOfInt? n) else Checked.fail location "bool_type"
  | decimal mantissa exponent =>
    match integral mantissa exponent with
    | .ok n => parsed (truthOfInt? n)
    | .error _ => Checked.fail location "bool_type"
  | _ => Checked.fail location "bool_type"

end Json
end Tabulary
