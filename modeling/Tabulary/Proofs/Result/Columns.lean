import Tabulary.Interface.Http
import Tabulary.Proofs.Catalog.Query
import Tabulary.Proofs.Memory.Join
import Tabulary.Proofs.Result.Text

/-!
The columns of results.  A result is complete if nothing of its rows is lost wherever they are
shown, and it is so exactly if its columns have different names.  Those of one table do; those of
two tables do unless a dot in a name makes a column of one look like a column of the other.
-/

namespace Tabulary

/-! ## Rows -/

namespace ResultRow

/-- The row as an object that has a field for each column. -/
def whole (r : ResultRow) :
    Json := .object ((r.columns.zip r.values).map fun f => (f.1, f.2.toJson))

variable {r : ResultRow}

theorem keys_zip (h : r.values.length = r.columns.length) :
    Keyed.keys (r.columns.zip r.values) = r.columns :=
  List.map_fst_zip (Nat.le_of_eq h.symm)

theorem fields_of_nodup (h : r.values.length = r.columns.length) (hnodup : r.columns.Nodup) :
    r.fields = r.columns.zip r.values := by
  rw [← keys_zip h] at hnodup
  exact @Keyed.foldl_set_of_nodup _ _ _ _ [] _ hnodup

/-- Where two columns have one name, a value is lost. -/
theorem length_fields_lt (h : r.values.length = r.columns.length) (hnodup : ¬r.columns.Nodup) :
    r.fields.length < r.columns.length := by
  have hlength : (r.columns.zip r.values).length = r.columns.length := by
    rw [List.length_zip, h, Nat.min_self]
  rw [← keys_zip h] at hnodup
  exact Nat.lt_of_lt_of_eq (Keyed.length_foldl_set_lt hnodup) hlength

end ResultRow

/-! ## Results -/

namespace Result

/-- Each row has the columns of the result, and a value for each of them. -/
def Aligned (r : Result) : Prop := ∀ row ∈ r.rows, row.columns = r.columns ∧
    row.values.length = r.columns.length

/-- The columns have different names, and every row has a field for each of its columns: by itself,
in the text of the result, and in the answer over HTTP. -/
structure Complete (r : Result) : Prop where
  distinct : r.columns.Nodup
  aligned : r.Aligned
  fields : ∀ row ∈ r.rows, row.fields = row.columns.zip row.values
  text : r.rows ≠ [] → r.toText = "\n".intercalate (r.rows.map fun row => row.whole.render)
  answer : (Http.resultJson r).field? "rows" = some (.array (r.rows.map ResultRow.whole))

variable {columns : List String} {rows : List ResultRow}

theorem complete_of_nodup (h : (query columns rows).Aligned) (hnodup : columns.Nodup) :
    (query columns rows).Complete := by
  have hfields : ∀ row ∈ rows, row.fields = row.columns.zip row.values := by
    intro row hrow
    obtain ⟨hcolumns, hvalues⟩ := h row hrow
    exact ResultRow.fields_of_nodup (hvalues.trans (congrArg _ hcolumns.symm))
      (hcolumns.symm ▸ hnodup)
  have hjson : ∀ row ∈ rows, row.toJson = row.whole := by
    intro row hrow
    rw [ResultRow.toJson, ResultRow.whole, hfields row hrow]
  refine ⟨hnodup, h, hfields, fun hrows => ?_, ?_⟩
  · rw [toText_rows rfl rfl hrows]
    exact congrArg _ (List.map_congr_left fun row hrow => congrArg Json.render (hjson row hrow))
  · show some (Json.array (rows.map ResultRow.toJson)) = _
    rw [List.map_congr_left hjson]
    rfl

theorem complete_iff (h : (query columns rows).Aligned) :
    (query columns rows).Complete ↔ columns.Nodup :=
  ⟨Complete.distinct, complete_of_nodup h⟩

end Result

/-! ## Columns of two tables -/

namespace Schema

variable {l r : Schema}

/-- A column of one table and a column of the other have the same name once the names of the tables
stand before them. -/
def Clash (l r : Schema) : Prop :=
  ∃ c ∈ l.columnNames, ∃ d ∈ r.columnNames, ResultRow.label l true c =
    ResultRow.label r true d

instance (l r : Schema) : Decidable (Clash l r) := inferInstanceAs <| Decidable <|
  ∃ c ∈ l.columnNames, ∃ d ∈ r.columnNames, ResultRow.label l true c =
  ResultRow.label r true d

theorem nodup_labels (s : Schema) : (s.columnNames.map (ResultRow.label s true)).Nodup :=
  s.nodup_columnNames.map fun _ _ => ResultRow.label_inj

theorem nodup_labels_append : (l.columnNames.map (ResultRow.label l true) ++
    r.columnNames.map (ResultRow.label r true)).Nodup ↔ ¬Clash l r := by
  constructor
  · rintro h ⟨c, hc, d, hd, heq⟩
    exact (List.nodup_append.mp h).2.2 _ (List.mem_map_of_mem hc) _ (List.mem_map_of_mem hd) heq
  · intro h
    refine List.nodup_append.mpr ⟨nodup_labels l, nodup_labels r, ?_⟩
    rintro _ hleft _ hright heq
    obtain ⟨c, hc, rfl⟩ := List.mem_map.mp hleft
    obtain ⟨d, hd, rfl⟩ := List.mem_map.mp hright
    exact h ⟨c, hc, d, hd, heq⟩

/-- The name of the second table is that of the first one with a dot and more behind it, and this
and a column of the second table make up the name of a column of the first one. -/
def Hides (l r : Schema) (more : String) : Prop :=
  r.name = l.name ++ "." ++ more ∧ ∃ d ∈ r.columnNames, more ++ "." ++ d ∈ l.columnNames

theorem dotted_eq_dotted {a b c d : List Char} (hne : a ≠ b) (h : a ++ '.' :: c = b ++ '.' :: d) :
    (∃ more, b = a ++ '.' :: more ∧ c = more ++ '.' :: d) ∨ ∃ more, a = b ++ '.' :: more ∧
    d = more ++ '.' :: c := by
  -- One of the two begins with the other, and what it has more begins with the dot.
  rcases List.append_eq_append_iff.mp h with ⟨rest, hb, hc⟩ | ⟨rest, ha, hd⟩
  · cases rest with
    | nil => exact absurd ((List.append_nil a).symm.trans hb.symm) hne
    | cons x more =>
      obtain ⟨rfl, rfl⟩ := List.cons.inj hc
      exact .inl ⟨more, hb, rfl⟩
  · cases rest with
    | nil => exact absurd (ha.trans (List.append_nil b)) hne
    | cons x more =>
      obtain ⟨rfl, rfl⟩ := List.cons.inj hd
      exact .inr ⟨more, ha, rfl⟩

theorem toList_dotted (a b : String) : (a ++ "." ++ b).toList = a.toList ++ '.' :: b.toList := by
  rw [String.toList_append, String.toList_append, List.append_assoc]
  rfl

theorem clash_of_hides {more : String} (h : Hides l r more) : Clash l r := by
  obtain ⟨hname, d, hd, hc⟩ := h
  refine ⟨_, hc, d, hd, ?_⟩
  rw [ResultRow.label, if_pos rfl, ResultRow.label, if_pos rfl, hname, ← String.toList_inj]
  simp only [toList_dotted, List.append_assoc, List.cons_append]

theorem clash_comm : Clash l r ↔ Clash r l :=
  ⟨fun ⟨c, hc, d, hd, heq⟩ => ⟨d, hd, c, hc, heq.symm⟩,
    fun ⟨c, hc, d, hd, heq⟩ => ⟨d, hd, c, hc, heq.symm⟩⟩

/-- Columns of different tables clash only where the name of one table begins with that of the other
and a dot. -/
theorem clash_iff_hides (hne : l.name ≠ r.name) :
    Clash l r ↔ ∃ more, Hides l r more ∨ Hides r l more := by
  constructor
  · rintro ⟨c, hc, d, hd, heq⟩
    rw [ResultRow.label, if_pos rfl, ResultRow.label, if_pos rfl, ← String.toList_inj,
      toList_dotted, toList_dotted] at heq
    rcases dotted_eq_dotted (mt String.toList_inj.mp hne) heq with ⟨more, hname, hcolumn⟩ |
      ⟨more, hname, hcolumn⟩
    · refine ⟨String.ofList more, .inl ⟨?_, d, hd, ?_⟩⟩
      · rw [← String.toList_inj, toList_dotted, String.toList_ofList, hname]
      · have hc' : String.ofList more ++ "." ++ d = c := by
          rw [← String.toList_inj, toList_dotted, String.toList_ofList, hcolumn]
        rwa [hc']
    · refine ⟨String.ofList more, .inr ⟨?_, c, hc, ?_⟩⟩
      · rw [← String.toList_inj, toList_dotted, String.toList_ofList, hname]
      · have hd' : String.ofList more ++ "." ++ c = d := by
          rw [← String.toList_inj, toList_dotted, String.toList_ofList, hcolumn]
        rwa [hd']
  · rintro ⟨more, h | h⟩
    · exact clash_of_hides h
    · exact clash_comm.mpr (clash_of_hides h)

end Schema
end Tabulary
