import Tabulary.Table.Index
import Tabulary.Record.Encoder

/-!
The rules of a table: which rows it takes, and what each change writes and where.  A change is
worked out in full, every check included, before its first byte is written.
-/

namespace Tabulary

structure Patch where
  offset : Nat
  bytes : List UInt8
deriving DecidableEq, Repr

namespace Patch

/-- Writes over the bytes that are there; a gap before the position fills with zeros. -/
def apply (p : Patch) (file : List UInt8) : List UInt8 :=
  file.take p.offset ++ List.replicate (p.offset - file.length) 0 ++ p.bytes ++
    file.drop (p.offset + p.bytes.length)

def applyAll (ps : List Patch) (file : List UInt8) : List UInt8 :=
  ps.foldl (fun f p => p.apply f) file

end Patch

structure Table where
  schema : Schema
  index : Index
deriving DecidableEq, Repr

/-- A change to a table: the table after it and what it writes. -/
structure Change where
  table : Table
  patches : List Patch
  /-- Where the row's record was, and where its new record is. -/
  oldOffset : Nat
  newOffset : Nat

namespace Table

def empty (s : Schema) : Table := ⟨s, Index.empty s⟩

def rowCount (t : Table) : Nat := t.index.offsets.length

/-- Whether two lists hold the same names. -/
def sameNames (xs ys : List String) : Bool := xs.all ys.contains && ys.all xs.contains

/-- A row fits a schema when it has exactly its columns, each with a value that the column takes,
and its key is the value of `id`. -/
def checkRow (s : Schema) (r : Row) : Except Fault Unit := do
  let given := r.values.map (·.1)
  if !sameNames given s.columnNames then
    throw
      (.engine (.schema (.rowColumns (given.mergeSort fun a b => a ≤ b) s.name s.columnNames)))
  let id ← r.get s.key.name
  if !id.looseEq r.id then
    throw (.raised (.schema (.rowKeyDiffers r.id)))
  s.columns.forM fun c => do
    let v ← r.get c.name
    if c.accepts v then pure () else throw (.raised (.typeMismatch c.name v c.type))

/-- Whether a row held this value in a column before. -/
def holds (previous : Option Row) (column : String) (v : Value) : Bool :=
  match previous with
  | some r => r.value? column == some v
  | none => false

/-- No value of a unique column may be in use, except by the row that is replaced. -/
def checkUnique (t : Table) (r : Row) (previous : Option Row) : Except Fault Unit :=
  t.schema.uniqueColumns.forM fun c => do
    let v ← r.get c.name
    if !holds previous c.name v && (t.index.usedIn c.name).contains v then
      throw (.raised (.valueTaken c.name v))

/-- A new row that fits the schema goes to the end of the file. -/
def add (t : Table) (r : Row) : Except Fault Change := do
  if (t.index.offset? r.id).isSome then throw (.raised (.duplicateKey r.id))
  t.checkUnique r none
  let bytes ← Record.encode t.schema r false
  let place := t.index.stop
  let index := { t.index.enter r place with stop := place + bytes.length }
  return ⟨{ t with index }, [⟨place, bytes⟩], place, place⟩

/-- The offset of a row that was read from storage. -/
def offsetOf (t : Table) (r : Row) : Except Fault Nat :=
  match t.index.offset? r.id with
  | some offset => .ok offset
  | none => .error (.noOffset r.id)

def flag (offset : Nat) (deleted : Bool) : Patch := ⟨offset, [Record.flagByte deleted]⟩

/-- Marks the record of a stored row as deleted. -/
def delete (t : Table) (existing : Row) : Except Fault Change := do
  let offset ← t.offsetOf existing
  return ⟨{ t with index := t.index.leave existing }, [flag offset true], offset, offset⟩

/-- Marks the record of a stored row as deleted and appends the record that replaces it. -/
def replace (t : Table) (existing r : Row) : Except Fault Change := do
  let old ← t.offsetOf existing
  t.checkUnique r (some existing)
  let bytes ← Record.encode t.schema r false
  let place := t.index.stop
  let index := { (t.index.leave existing).enter r place with stop := place + bytes.length }
  return ⟨{ t with index }, [flag old true, ⟨place, bytes⟩], old, place⟩

/-- The stored row with some of its values changed. -/
def merge (t : Table) (existing : Row) (changes : List (String × Value)) : Except Fault Row := do
  let r ← (Row.ofValues (overwrite existing.values changes)).mapError Fault.engine
  checkRow t.schema r
  if r.id.looseEq existing.id then return r
  else throw (.raised (.schema (.keyChange existing.id)))

end Table
end Tabulary
