import Tabulary.Schema.Column

/-!
Table schemas.  Every table has one integer column `id`; it comes first and is the key.  A schema
carries the proof that its columns obey these rules, so every schema is a valid one.
-/

namespace Tabulary
namespace Schema

/-- The first name that occurs a second time. -/
def repeated? : List String → List String → Option String
  | _, [] => none
  | seen, n :: rest => if n ∈ seen then some n else repeated? (n :: seen) rest

/-- The first rule that a table of these columns breaks. -/
def defect? (name : String) (columns : List Column) : Option SchemaError :=
  if name = "" then some .emptyTableName
  else match repeated? [] (columns.map (·.name)) with
    | some column => some (.duplicateColumn column name)
    | none => match columns with
      | [] => some (.missingKey name)
      | key :: data =>
        if key.name ≠ Value.keyColumn then some (.missingKey name)
        else if key.type ≠ .integer ∨ key.isKey = false then some (.malformedKey name)
        else if data.any (·.isKey) then some .secondKey
        else none

end Schema

structure Schema where
  name : String
  columns : List Column
  sound : Schema.defect? name columns = none
deriving DecidableEq, Repr

namespace Schema

def ofColumns (name : String) (columns : List Column) : Except EngineError Schema :=
  match h : defect? name columns with
  | none => .ok ⟨name, columns, h⟩
  | some e => .error (.schema e)

/-- A schema of columns in any order: `id` moves to the front, becomes the key and loses its
uniqueness mark, which as the key it does not need. -/
def build (name : String) (columns : List Column) : Except EngineError Schema :=
  match columns.filter (·.name = Value.keyColumn) with
  | [key] =>
    if key.type = .integer then
      ofColumns name ({ key with isKey := true, isUnique := false } ::
        columns.filter (·.name ≠ Value.keyColumn))
    else .error (.schema (.notOneKey name))
  | _ => .error (.schema (.notOneKey name))

/-- The columns stored after the key, in the order of a record. -/
def dataColumns (s : Schema) : List Column := s.columns.tail

/-- The columns whose values in use are indexed. -/
def uniqueColumns (s : Schema) : List Column := s.columns.filter (·.hasUniqueIndex)

def columnNames (s : Schema) : List String := s.columns.map (·.name)

def column? (s : Schema) (name : String) : Option Column := s.columns.find? (·.name = name)

theorem columns_ne_nil (s : Schema) : s.columns ≠ [] := by
  intro h
  have := s.sound
  rw [h] at this
  simp only [defect?] at this
  split at this
  · cases this
  · simp [repeated?] at this

def key (s : Schema) : Column := s.columns.head s.columns_ne_nil

@[simp] theorem key_cons_dataColumns (s : Schema) : s.key :: s.dataColumns = s.columns :=
  List.cons_head_tail s.columns_ne_nil

end Schema
end Tabulary
