import Tabulary.Text.Hex
import Tabulary.Text.Utf8

/-!
Percent encoding, in which a percent sign and two hexadecimal digits stand for a byte of UTF-8 text.
-/

namespace Tabulary
namespace Text

/-- The bytes that an encoded text stands for.  A percent sign without two digits stands for
itself. -/
def percentBytes : List Char → List UInt8
  | '%' :: h :: l :: rest =>
    match hexValue? h, hexValue? l with
    | some a, some b => UInt8.ofNat (16 * a + b) :: percentBytes rest
    | _, _ => 0x25 :: percentBytes (h :: l :: rest)
  | c :: rest => toBytes (String.singleton c) ++ percentBytes rest
  | [] => []

/-- The character that some bytes begin with, and the bytes after it. -/
def firstChar? (bytes : List UInt8) : Option (Char × List UInt8) :=
  [1, 2, 3, 4].findSome? fun n =>
    match (ofBytes? (bytes.take n)).map String.toList with
    | some [c] => some (c, bytes.drop n)
    | _ => none

/-- A text of bytes in which the replacement character stands for each byte that is part of none.
The first argument bounds the length. -/
def ofBytesAnyway : Nat → List UInt8 → List Char
  | 0, _ => []
  | _ + 1, [] => []
  | n + 1, b :: rest =>
    match firstChar? (b :: rest) with
    | some (c, rest) => c :: ofBytesAnyway n rest
    | none => '\uFFFD' :: ofBytesAnyway n rest

def percentDecoded (s : String) : String :=
  let bytes := percentBytes s.toList
  String.ofList (ofBytesAnyway bytes.length bytes)

end Text
end Tabulary
