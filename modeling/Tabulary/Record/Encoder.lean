import Tabulary.Record.Word
import Tabulary.Row
import Tabulary.Schema.Basic
import Tabulary.Text.Utf8

/-!
The bytes of a row.  A record is a flag byte (0 live, 1 deleted), the key as a 64-bit integer and
the other columns in schema order: an integer as a 64-bit word, a text as a 32-bit count of bytes
and its UTF-8 bytes.
-/

namespace Tabulary
namespace Record

def flagByte (deleted : Bool) : UInt8 := if deleted then 1 else 0

/-- An integer or truth value of 64 bits. -/
def encodeInt (v : Value) : Except Fault (List UInt8) :=
  match v.key? with
  | some n => if Value.inRange n then .ok (intBytes n) else .error .notInteger
  | none => .error .notInteger

def encodeText : Value → Except Fault (List UInt8)
  | .text s =>
    let bytes := Text.toBytes s
    if bytes.length < capacity 4 then .ok (bigEndian 4 bytes.length ++ bytes)
    else .error .notInteger
  | _ => .error .notText

def encodeValue (t : ColumnType) (v : Value) : Except Fault (List UInt8) :=
  match t with
  | .integer => encodeInt v
  | .text => encodeText v

def encodeColumns (r : Row) : List Column → Except Fault (List UInt8)
  | [] => .ok []
  | c :: rest => do
    let v ← r.get c.name
    let bytes ← encodeValue c.type v
    let more ← encodeColumns r rest
    return bytes ++ more

def encode (s : Schema) (r : Row) (deleted : Bool) : Except Fault (List UInt8) := do
  let key ← encodeInt r.id
  let columns ← encodeColumns r s.dataColumns
  return flagByte deleted :: (key ++ columns)

end Record
end Tabulary
