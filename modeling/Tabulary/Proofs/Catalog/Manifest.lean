import Tabulary.Catalog.Manifest
import Tabulary.Proofs.Schema

/-!
What the manifest keeps of a schema.  A schema that was built from columns is the one that its entry
in the manifest gives back.
-/

namespace Tabulary

namespace Schema

variable {name : String} {columns : List Column} {s : Schema}

theorem ofColumns_eq_ok (h : ofColumns name columns = .ok s) :
    s.name = name ∧ s.columns = columns := by
  unfold ofColumns at h
  split at h
  · cases h
    exact ⟨rfl, rfl⟩
  · cases h

theorem ofColumns_self (s : Schema) : ofColumns s.name s.columns = .ok s := by
  unfold ofColumns
  split
  · rfl
  · rename_i e hdefect
    rw [s.sound] at hdefect
    cases hdefect

theorem key_eq_of_columns {c : Column} {data : List Column} (h : s.columns = c :: data) :
    s.key = c ∧ s.dataColumns = data := by
  have hcons := s.key_cons_dataColumns
  rw [h] at hcons
  exact List.cons.inj hcons

/-- A built schema has the name that was asked for, and its key has no uniqueness mark. -/
theorem build_eq_ok (h : build name columns = .ok s) :
    s.name = name ∧ s.key.isUnique = false := by
  unfold build at h
  split at h
  · split at h
    · obtain ⟨hname, hcolumns⟩ := ofColumns_eq_ok h
      refine ⟨hname, ?_⟩
      rw [(key_eq_of_columns hcolumns).1]
    · cases h
  · cases h

theorem name_ne_of_data {c : Column} (h : c ∈ s.dataColumns) : c.name ≠ Value.keyColumn := by
  have hnodup := s.nodup_columnNames
  rw [columnNames, ← s.key_cons_dataColumns, List.map_cons] at hnodup
  intro heq
  rw [← s.key_name] at heq
  exact (List.nodup_cons.mp hnodup).1 (heq ▸ List.mem_map_of_mem h)

theorem isKey_of_data {c : Column} (h : c ∈ s.dataColumns) : c.isKey = false := by
  have hsound := s.sound
  rw [← s.key_cons_dataColumns] at hsound
  exact not_isKey_of_defect? hsound h

/-- A schema is what building gives from its own columns, whatever they say about keys. -/
theorem build_self (hk : s.key.isUnique = false) :
    build s.name (s.columns.map fun c => ⟨c.name, c.type, false, c.isUnique⟩) = .ok s := by
  have hdata : s.dataColumns.map (fun c => (⟨c.name, c.type, false, c.isUnique⟩ : Column)) =
      s.dataColumns := by
    rw [List.map_congr_left (g := id), List.map_id]
    intro c hc
    rw [← isKey_of_data hc]
    rfl
  have hother : ∀ c ∈ s.dataColumns, c.name ≠ Value.keyColumn :=
    fun c hc => name_ne_of_data hc
  rw [← s.key_cons_dataColumns, List.map_cons, hdata]
  have hkey : (⟨s.key.name, s.key.type, false, s.key.isUnique⟩ :: s.dataColumns).filter
      (fun c : Column => c.name = Value.keyColumn) =
      [⟨s.key.name, s.key.type, false, s.key.isUnique⟩] := by
    rw [List.filter_cons, if_pos (decide_eq_true s.key_name)]
    refine congrArg _ (List.filter_eq_nil_iff.mpr fun c hc => ?_)
    exact mt of_decide_eq_true (hother c hc)
  have hrest : (⟨s.key.name, s.key.type, false, s.key.isUnique⟩ :: s.dataColumns).filter
      (fun c : Column => c.name ≠ Value.keyColumn) = s.dataColumns := by
    rw [List.filter_cons, if_neg (by simp)]
    exact List.filter_eq_self.mpr fun c hc => decide_eq_true (hother c hc)
  have hback : ({ name := s.key.name, type := s.key.type, isKey := true, isUnique := false } ::
      s.dataColumns : List Column) = s.columns := by
    rw [← s.key_rules.2.2, ← hk]
    exact s.key_cons_dataColumns
  unfold build
  rw [hkey, hrest]
  dsimp only
  rw [if_pos s.key_type, hback]
  exact ofColumns_self s

end Schema

namespace Manifest.Table

/-- The manifest gives a built schema back. -/
theorem toSchema_ofSchema {name : String} {columns : List Tabulary.Column} {s : Schema}
    (h : Schema.build name columns = .ok s) : (ofSchema s).toSchema = .ok s := by
  have hself := Schema.build_self (Schema.build_eq_ok h).2
  unfold toSchema ofSchema
  rw [List.map_map]
  exact hself

end Manifest.Table
end Tabulary
