import Tabulary.Schema.Basic

/-!
What a schema's proof of soundness says about its columns: their names are distinct, and the key
is the integer column `id`, the only one that is a key.
-/

namespace Tabulary
namespace Schema

theorem nodup_of_repeated? {seen names : List String} (h : repeated? seen names = none) :
    names.Nodup ∧ ∀ n ∈ names, n ∉ seen := by
  induction names generalizing seen with
  | nil => exact ⟨List.nodup_nil, fun n hn => absurd hn List.not_mem_nil⟩
  | cons n rest ih =>
    simp only [repeated?] at h
    split at h
    · cases h
    · rename_i hn
      obtain ⟨hrest, hseen⟩ := ih h
      refine ⟨List.nodup_cons.mpr ⟨fun hmem => ?_, hrest⟩, fun m hm => ?_⟩
      · exact hseen n hmem List.mem_cons_self
      · rcases List.mem_cons.mp hm with rfl | hm
        · exact hn
        · exact fun hs => hseen m hm (List.mem_cons_of_mem n hs)

/-- The rules that a sound list of columns obeys. -/
theorem rules_of_defect? {name : String} {columns : List Column}
    (h : defect? name columns = none) :
    (columns.map (·.name)).Nodup ∧ ∃ key data, columns = key :: data ∧
      key.name = Value.keyColumn ∧ key.type = .integer ∧ key.isKey = true := by
  unfold defect? at h
  split at h
  · cases h
  · split at h
    · cases h
    · rename_i hrep
      refine ⟨(nodup_of_repeated? hrep).1, ?_⟩
      split at h
      · cases h
      · rename_i key data
        split at h
        · cases h
        · rename_i hname
          split at h
          · cases h
          · rename_i htype
            rw [not_or] at htype
            exact ⟨key, data, rfl, Decidable.not_not.mp hname, Decidable.not_not.mp htype.1,
              by simpa using htype.2⟩

/-- Behind the first column of a sound list there is no key. -/
theorem not_isKey_of_defect? {name : String} {key : Column} {data : List Column}
    (h : defect? name (key :: data) = none) {c : Column} (hc : c ∈ data) : c.isKey = false := by
  unfold defect? at h
  split at h
  · cases h
  · split at h
    · cases h
    · dsimp only at h
      split at h
      · cases h
      · split at h
        · cases h
        · split at h
          · cases h
          · rename_i hany
            rw [Bool.not_eq_true, List.any_eq_false] at hany
            exact Bool.eq_false_iff.mpr (hany c hc)

variable (s : Schema)

theorem nodup_columnNames : s.columnNames.Nodup := (rules_of_defect? s.sound).1

theorem key_rules :
    s.key.name = Value.keyColumn ∧ s.key.type = .integer ∧ s.key.isKey = true := by
  obtain ⟨-, key, data, hc, hrules⟩ := rules_of_defect? s.sound
  have hk : s.key = key := by
    have hcons := s.key_cons_dataColumns
    rw [hc] at hcons
    exact (List.cons.inj hcons).1
  rw [hk]
  exact hrules

@[simp] theorem key_name : s.key.name = Value.keyColumn := s.key_rules.1

@[simp] theorem key_type : s.key.type = .integer := s.key_rules.2.1

theorem key_mem : s.key ∈ s.columns := List.head_mem s.columns_ne_nil

theorem mem_columns_of_data {c : Column} (h : c ∈ s.dataColumns) : c ∈ s.columns :=
  List.mem_of_mem_tail h

/-- Only the key column is a key. -/
theorem eq_key_of_isKey {c : Column} (h : c ∈ s.columns) (hk : c.isKey = true) : c = s.key := by
  have hsound := s.sound
  rw [← s.key_cons_dataColumns] at h hsound
  rcases List.mem_cons.mp h with heq | hdata
  · exact heq
  · rw [not_isKey_of_defect? hsound hdata] at hk
    cases hk

theorem mem_of_column? {name : String} {c : Column} (h : s.column? name = some c) :
    c ∈ s.columns := List.mem_of_find?_eq_some h

theorem mem_columns_of_unique {c : Column} (h : c ∈ s.uniqueColumns) : c ∈ s.columns :=
  (List.mem_filter.mp h).1

end Schema
end Tabulary
