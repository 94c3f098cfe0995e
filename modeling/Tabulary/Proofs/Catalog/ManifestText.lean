import Tabulary.Catalog.Manifest
import Tabulary.Proofs.Json.RoundTrip

/-!
The text of a manifest.  What is read from the bytes that a manifest is written as is the manifest
(`ofBytes_render`).
-/

namespace Tabulary

namespace Checked

variable {α β : Type}

theorem all_mapIdx {f : α → β} {g : Nat → β → Checked α} (h : ∀ i a, g i (f a) = .ok a)
    (as : List α) : all ((as.map f).mapIdx g) = .ok as := by
  induction as generalizing g with
  | nil => rfl
  | cons a as ih =>
    rw [List.map_cons, List.mapIdx_cons, all, h, ih fun i a => h (i + 1) a]
    rfl

end Checked

namespace Manifest

/-- A list is checked item by item. -/
theorem checkArray_map {α : Type} {item : String → Json → Checked α} {f : α → Json}
    (h : ∀ location a, item location (f a) = .ok a) (location : String) (as : List α) :
    Json.checkArray item location (.array (as.map f)) = .ok as :=
  Checked.all_mapIdx (fun i a => h (Json.within location (toString i)) a) as

theorem checkColumn_toJson (location : String) (c : Column) :
    checkColumn location c.toJson = .ok c := by
  have htype : checkType (Json.within location "type") (.text c.type.name) = .ok c.type := by
    rw [checkType, ColumnType.ofName?_name]
  have hfields : checkColumn location c.toJson =
      (Checked.both (.ok c.name) (Checked.both
        (checkType (Json.within location "type") (.text c.type.name)) (.ok c.unique))).map
        fun x => ⟨x.1, x.2.1, x.2.2⟩ := rfl
  rw [hfields, htype]
  rfl

theorem checkTable_toJson (location : String) (t : Table) :
    checkTable location t.toJson = .ok t := by
  have hcolumns := checkArray_map checkColumn_toJson (Json.within location "columns") t.columns
  have hfields : checkTable location t.toJson =
      (Checked.both (.ok t.name) (Checked.both (.ok t.file) (Json.checkArray checkColumn
        (Json.within location "columns") (.array (t.columns.map Column.toJson))))).map
        fun x => ⟨x.1, x.2.1, x.2.2⟩ := rfl
  rw [hfields, hcolumns]
  rfl

/-- A manifest passes its own check. -/
theorem check_toJson (m : Manifest) : check m.toJson = .ok m := by
  have htables := checkArray_map checkTable_toJson (Json.within "" "tables") m.tables
  have hfields : check m.toJson =
      (Checked.both (.ok m.database) (Json.checkArray checkTable (Json.within "" "tables")
        (.array (m.tables.map Table.toJson)))).map fun x => ⟨x.1, x.2⟩ := rfl
  rw [hfields, htables]
  rfl

/-- A manifest is an object of a list of objects of lists of objects. -/
theorem nests_toJson (m : Manifest) : Json.Nests Json.maxDepth m.toJson := by
  have hcolumn (c : Column) : Json.Nests 196 c.toJson := by simp [Column.toJson, Json.Nests]
  have htable (t : Table) : Json.Nests 198 t.toJson := by simp [Table.toJson, Json.Nests, hcolumn]
  simp [toJson, Json.maxDepth, Json.Nests, htable]

/-- A manifest that was written is read as it was. -/
theorem ofBytes_render (m : Manifest) : ofBytes (Text.toBytes m.render) = .ok m := by
  rw [ofBytes, Text.ofBytes?_toBytes]
  dsimp only
  rw [render, Json.read?_pretty m.nests_toJson]
  dsimp only
  rw [check_toJson]
  rfl

end Manifest
end Tabulary
