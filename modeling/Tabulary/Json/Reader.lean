import Tabulary.Json.Basic
import Tabulary.Text.Decimal
import Tabulary.Text.Hex

/-!
Reading JSON.  The grammar is the standard one, with the words `NaN`, `Infinity` and `-Infinity` as
numbers besides.  Nesting deeper than a given bound is refused, and so are a control character or
half a surrogate pair inside a string, and an integer of more than 4300 digits.
-/

namespace Tabulary
namespace Json

/-- A reader takes a value off the front of a text and leaves the rest. -/
abbrev Reader (α : Type) := List Char → Option (α × List Char)

namespace Reader

def skipBlanks (cs : List Char) : List Char :=
  cs.dropWhile fun c => c = ' ' || c = '\n' || c = '\r' || c = '\t'

def word (w : List Char) (cs : List Char) : Option (List Char) :=
  if w.isPrefixOf cs then some (cs.drop w.length) else none

def hex4 : Reader Nat
  | a :: b :: c :: d :: rest => do
    let ds ← [a, b, c, d].mapM Text.hexValue?
    return (ds.foldl (fun n x => 16 * n + x) 0, rest)
  | _ => none

/-- The character of an escape, after its backslash. -/
def escaped : Reader Char
  | '\x22' :: r => some ('\x22', r)
  | '\\' :: r => some ('\\', r)
  | '/' :: r => some ('/', r)
  | 'b' :: r => some ('\x08', r)
  | 'f' :: r => some ('\x0c', r)
  | 'n' :: r => some ('\n', r)
  | 'r' :: r => some ('\r', r)
  | 't' :: r => some ('\t', r)
  | 'u' :: r => do
    let (high, r) ← hex4 r
    if high < 0xD800 ∨ 0xDFFF < high then
      return (Char.ofNat high, r)
    else if high < 0xDC00 then
      match r with
      | '\\' :: 'u' :: r =>
        let (low, r) ← hex4 r
        if 0xDC00 ≤ low ∧ low ≤ 0xDFFF then
          return (Char.ofNat (0x10000 + (high - 0xD800) * 0x400 + (low - 0xDC00)), r)
        else none
      | _ => none
    else none
  | _ => none

/-- The characters up to the closing quote; each step of the bound reads one. -/
def stringBody : Nat → Reader (List Char)
  | 0, _ => none
  | _ + 1, [] => none
  | n + 1, '\\' :: r => do
    let (c, r) ← escaped r
    let (cs, r) ← stringBody n r
    return (c :: cs, r)
  | n + 1, c :: r =>
    if c = '\x22' then some ([], r)
    else if c.toNat < 0x20 then none
    else do
      let (cs, r) ← stringBody n r
      return (c :: cs, r)

/-- A string, after its opening quote. -/
def stringRest : Reader String := fun cs =>
  (stringBody (cs.length + 1) cs).map fun (s, r) => (String.ofList s, r)

def isAsciiDigit (c : Char) : Bool := 0x30 ≤ c.toNat && c.toNat ≤ 0x39

/-- The longest run of plain digits, as values. -/
def digits (cs : List Char) : List Nat × List Char :=
  ((cs.takeWhile isAsciiDigit).map fun c => c.toNat - 0x30, cs.dropWhile isAsciiDigit)

/-- The digits after a point; the text is unchanged where there is no point. -/
def fraction : Reader (List Nat)
  | '.' :: r => match digits r with
    | ([], _) => none
    | (ds, r) => some (ds, r)
  | cs => some ([], cs)

def exponent : Reader (Option Int)
  | c :: r =>
    if c = 'e' ∨ c = 'E' then
      let (negative, r) := match r with
        | '-' :: r => (true, r)
        | '+' :: r => (false, r)
        | r => (false, r)
      match digits r with
      | ([], _) => none
      | (ds, r) => some (some (Text.Numeral.value ⟨negative, ds⟩), r)
    else some (none, c :: r)
  | [] => some (none, [])

/-- A number after its sign: no leading zeros, then an optional fraction and exponent. -/
def magnitude (negative : Bool) : Reader Json := fun cs =>
  let (whole, r) := digits cs
  if whole.isEmpty || (whole.head? == some 0 && whole.length != 1) then none
  else do
    let (places, r) ← fraction r
    let (power, r) ← exponent r
    if places.isEmpty && power.isNone then
      if whole.length ≤ 4300 then return (int (Text.Numeral.value ⟨negative, whole⟩), r)
        else none
    else
      return (Json.decimal (Text.Numeral.value ⟨negative, whole ++ places⟩)
        (power.getD 0 - places.length), r)

def scalar : Reader Json
  | '\x22' :: r => (stringRest r).map fun (s, r) => (text s, r)
  | 'n' :: r => (word ['u', 'l', 'l'] r).map fun r => (null, r)
  | 't' :: r => (word ['r', 'u', 'e'] r).map fun r => (bool true, r)
  | 'f' :: r => (word ['a', 'l', 's', 'e'] r).map fun r => (bool false, r)
  | 'N' :: r => (word ['a', 'N'] r).map fun r => (notANumber, r)
  | 'I' :: r => (word "nfinity".toList r).map fun r => (notANumber, r)
  | '-' :: 'I' :: r => (word "nfinity".toList r).map fun r => (notANumber, r)
  | '-' :: r => magnitude true r
  | cs => magnitude false cs

/-- Items after the opening bracket, the first one at hand; each step of the bound reads one. -/
def items (item : Reader Json) : Nat → Reader (List Json)
  | 0, _ => none
  | n + 1, cs => do
    let (v, r) ← item (skipBlanks cs)
    match skipBlanks r with
    | ']' :: r => return ([v], r)
    | ',' :: r =>
      let (vs, r) ← items item n r
      return (v :: vs, r)
    | _ => none

/-- Fields after the opening brace, the first one at hand; each step of the bound reads one. -/
def fields (item : Reader Json) : Nat → Reader (List (String × Json))
  | 0, _ => none
  | n + 1, cs => do
    match skipBlanks cs with
    | '\x22' :: r =>
      let (name, r) ← stringRest r
      match skipBlanks r with
      | ':' :: r =>
        let (v, r) ← item (skipBlanks r)
        match skipBlanks r with
        | '\x7d' :: r => return ([(name, v)], r)
        | ',' :: r =>
          let (vs, r) ← fields item n r
          return ((name, v) :: vs, r)
        | _ => none
      | _ => none
    | _ => none

/-- A value nested at most `depth` levels deep. -/
def value (depth : Nat) : Reader Json := fun cs =>
  match cs with
  | '[' :: r =>
    match skipBlanks r, depth with
    | ']' :: r, _ => some (array [], r)
    | _, 0 => none
    | r, depth + 1 => (items (value depth) (r.length + 1) r).map fun (vs, r) => (array vs, r)
  | '\x7b' :: r =>
    match skipBlanks r, depth with
    | '\x7d' :: r, _ => some (object [], r)
    | _, 0 => none
    | r, depth + 1 => (fields (value depth) (r.length + 1) r).map fun (vs, r) => (object vs, r)
  | cs => scalar cs

end Reader

/-- The deepest nesting that is read. -/
def maxDepth : Nat := 200

def read? (s : String) : Option Json := do
  let (v, r) ← Reader.value maxDepth (Reader.skipBlanks s.toList)
  if (Reader.skipBlanks r).isEmpty then some v else none

end Json
end Tabulary
