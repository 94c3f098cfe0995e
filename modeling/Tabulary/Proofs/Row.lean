import Tabulary.Keyed
import Tabulary.Proofs.Schema
import Tabulary.Record.Encoder

/-!
Rows that fit a schema, and the row that storage gives back for one: its values in the order of the
columns.
-/

namespace Tabulary

namespace Value

/-- A text whose bytes a count of 32 bits can hold; any other value is short. -/
def Short : Value → Prop
  | .text s => (Text.toBytes s).length < Record.capacity 4
  | _ => True

instance (v : Value) : Decidable v.Short := by
  cases v <;> (unfold Short; infer_instance)

theorem looseEq_refl (v : Value) : v.looseEq v = true := by
  cases v <;> simp [looseEq, key?]

/-- Loosely equal to a value that counts as an integer is to count as that integer. -/
theorem looseEq_iff_key? {a : Value} {n : Int} (ha : a.key? = some n) (b : Value) :
    a.looseEq b = true ↔ b.key? = some n := by
  unfold looseEq
  rw [ha]
  cases hb : b.key? with
  | none => exact ⟨fun h => (Bool.false_ne_true h).elim, fun h => nomatch h⟩
  | some m =>
    show (n == m) = true ↔ some m = some n
    rw [beq_iff_eq, Option.some.injEq, eq_comm]

end Value

namespace Column

theorem accepts_integer_iff {c : Column} (ht : c.type = .integer) (v : Value) :
    c.accepts v = true ↔ ∃ n, v = .int n ∧ Value.inRange n = true := by
  cases v <;> simp [accepts, ht]

theorem accepts_text_iff {c : Column} (ht : c.type = .text) (v : Value) :
    c.accepts v = true ↔ ∃ s, v = .text s := by
  cases v <;> simp [accepts, ht]

theorem not_accepts_null (c : Column) : c.accepts .null = false := rfl

end Column

namespace Row

/-- The value in a column, `null` where the row has none. -/
def held (r : Row) (column : String) : Value := (r.value? column).getD .null

/-- A row holds values of the right types for exactly the columns of a schema, and its key is the
value of `id`. -/
structure Fits (s : Schema) (r : Row) : Prop where
  columns : ∀ name, name ∈ Keyed.keys r.values ↔ name ∈ s.columnNames
  key : (r.held Value.keyColumn).looseEq r.id = true
  accepted : ∀ c ∈ s.columns, c.accepts (r.held c.name) = true

instance (s : Schema) (r : Row) : Decidable (r.Fits s) :=
  decidable_of_iff
    (((∀ name ∈ Keyed.keys r.values, name ∈ s.columnNames) ∧
        ∀ name ∈ s.columnNames, name ∈ Keyed.keys r.values) ∧
      (r.held Value.keyColumn).looseEq r.id = true ∧
      ∀ c ∈ s.columns, c.accepts (r.held c.name) = true)
    ⟨fun ⟨hc, hk, ha⟩ => ⟨fun name => ⟨hc.1 name, hc.2 name⟩, hk, ha⟩,
      fun h => ⟨⟨fun name => (h.columns name).mp, fun name => (h.columns name).mpr⟩, h.key,
        h.accepted⟩⟩

/-- Two rows have one key and the same value in every column, in whatever order. -/
structure Same (x y : Row) : Prop where
  id : x.id.looseEq y.id = true
  value : ∀ column, x.value? column = y.value? column

/-- All texts of the row are short. -/
def Short (r : Row) : Prop := ∀ f ∈ r.values, f.2.Short

instance (r : Row) : Decidable r.Short :=
  inferInstanceAs (Decidable (∀ f ∈ r.values, f.2.Short))

/-- The row as storage gives it back: keyed by the value of `id`, with its values in the order of
the columns. -/
def stored (s : Schema) (r : Row) (deleted : Bool) : Row where
  id := r.held Value.keyColumn
  values := s.columnNames.map fun name => (name, r.held name)
  deleted := deleted

theorem value?_eq_some_held {r : Row} {c : Column} (h : c.accepts (r.held c.name) = true) :
    r.value? c.name = some (r.held c.name) := by
  unfold held at h ⊢
  cases hv : r.value? c.name with
  | none =>
    rw [hv, Option.getD_none, Column.not_accepts_null] at h
    cases h
  | some v => rfl

theorem get_eq_ok_held {r : Row} {c : Column} (h : c.accepts (r.held c.name) = true) :
    r.get c.name = .ok (r.held c.name) := by
  rw [get, value?_eq_some_held h]

theorem value?_eq_none {r : Row} {column : String} (h : column ∉ Keyed.keys r.values) :
    r.value? column = none := Keyed.lookup_eq_none column r.values h

theorem held_short {r : Row} (h : r.Short) (column : String) : (r.held column).Short := by
  unfold held
  cases hv : r.value? column with
  | none => exact trivial
  | some v =>
    obtain ⟨xs, ys, heq, -⟩ := List.lookup_eq_some_iff.mp hv
    exact h (column, v) (by rw [heq]; simp)

section stored

variable (s : Schema) (r : Row) (deleted : Bool)

@[simp] theorem deleted_stored : (r.stored s deleted).deleted = deleted := rfl

@[simp] theorem id_stored : (r.stored s deleted).id = r.held Value.keyColumn := rfl

@[simp] theorem keys_stored : Keyed.keys (r.stored s deleted).values = s.columnNames := by
  rw [Keyed.keys, stored, List.map_map]
  exact List.map_id _

theorem value?_stored {column : String} (h : column ∈ s.columnNames) :
    (r.stored s deleted).value? column = some (r.held column) :=
  Keyed.lookup_map_of_mem r.held h

theorem held_stored {column : String} (h : column ∈ s.columnNames) :
    (r.stored s deleted).held column = r.held column := by
  rw [held, value?_stored s r deleted h, Option.getD_some]

theorem keyColumn_mem : Value.keyColumn ∈ s.columnNames := by
  rw [← s.key_name]
  exact List.mem_map_of_mem s.key_mem

theorem stored_stored (again : Bool) :
    (r.stored s deleted).stored s again = r.stored s again := by
  simp only [stored, Row.mk.injEq, and_true]
  refine ⟨held_stored s r deleted (keyColumn_mem s), List.map_congr_left fun name hn => ?_⟩
  exact congrArg (Prod.mk name) (held_stored s r deleted hn)

end stored

namespace Fits

variable {s : Schema} {r : Row}

theorem key_eq_int (h : r.Fits s) :
    ∃ n, r.held Value.keyColumn = .int n ∧ Value.inRange n = true := by
  have hk := h.accepted s.key s.key_mem
  rw [s.key_name] at hk
  exact (Column.accepts_integer_iff s.key_type _).mp hk

/-- The key as an integer, also where the caller gave it as a truth value. -/
theorem id_key? (h : r.Fits s) : ∃ n, r.held Value.keyColumn = .int n ∧ r.id.key? = some n := by
  obtain ⟨n, hn, -⟩ := h.key_eq_int
  have hkey := h.key
  rw [hn] at hkey
  exact ⟨n, hn, (Value.looseEq_iff_key? rfl r.id).mp hkey⟩

/-- Nothing is lost in storage but the order of the values. -/
theorem value?_stored_eq (h : r.Fits s) (deleted : Bool) (column : String) :
    (r.stored s deleted).value? column = r.value? column := by
  by_cases hc : column ∈ s.columnNames
  · obtain ⟨c, hmem, rfl⟩ := List.mem_map.mp hc
    rw [value?_stored s r deleted hc, value?_eq_some_held (h.accepted c hmem)]
  · rw [value?_eq_none (fun hk => hc ((h.columns column).mp hk)), value?_eq_none]
    rwa [keys_stored]

theorem stored_same (h : r.Fits s) (deleted : Bool) : (r.stored s deleted).Same r where
  id := h.key
  value := h.value?_stored_eq deleted

theorem stored (h : r.Fits s) (deleted : Bool) : (r.stored s deleted).Fits s where
  columns name := by rw [keys_stored]
  key := by
    rw [held_stored s r deleted (keyColumn_mem s)]
    exact Value.looseEq_refl _
  accepted c hc := by
    rw [held_stored s r deleted (List.mem_map_of_mem hc)]
    exact h.accepted c hc

end Fits

theorem Short.stored {s : Schema} {r : Row} (h : r.Short) (deleted : Bool) :
    (r.stored s deleted).Short := by
  intro f hf
  obtain ⟨name, -, rfl⟩ := List.mem_map.mp hf
  exact held_short h name

end Row

/-! ## A sample -/

namespace Sample

/-- A schema of every kind of column. -/
def people : Schema where
  name := "people"
  columns := [⟨"id", .integer, true, false⟩, ⟨"name", .text, false, true⟩,
    ⟨"age", .integer, false, false⟩]
  sound := by decide

def person (id : Int) (name : String) (age : Int) : Row where
  id := .int id
  values := [("id", .int id), ("name", .text name), ("age", .int age)]

end Sample
end Tabulary
