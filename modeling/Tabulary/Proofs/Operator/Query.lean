import Tabulary.Proofs.Operator.Opening

/-!
The plans of queries.  A condition is turned into a lookup or a filter of a scan, and either way the
plan delivers the rows that the condition picks; the plan of a join delivers the pairs of rows that
agree.
-/

namespace Tabulary

open Record Files

namespace ResultRow

variable {s : Schema} {r : Row} {name : String}

theorem held_ofRow (qualify : Bool) (h : name ∈ s.columnNames) :
    (ofRow s qualify r).held (label s qualify name) = r.held name := by
  have hmem : label s qualify name ∈ (ofRow s qualify r).columns :=
    columns_ofRow s qualify r ▸ List.mem_map_of_mem h
  have hget := (full_ofRow s qualify r).get_eq_held hmem
  rw [get_ofRow qualify h] at hget
  exact (Except.ok.inj hget).symm

theorem under?_ofRow (qualify : Bool) (h : name ∈ s.columnNames) :
    (ofRow s qualify r).under? (label s qualify name) = some (r.held name) := by
  have hmem : label s qualify name ∈ (ofRow s qualify r).columns :=
    columns_ofRow s qualify r ▸ List.mem_map_of_mem h
  rw [(full_ofRow s qualify r).under?_eq hmem, held_ofRow qualify h]

end ResultRow

namespace Plan

variable {m : Memory.Tables} {table : String} {t : Memory.Table}

theorem sound_of_lookup (ht : m.lookup table = some t) (qualify : Bool) :
    (scan table qualify).Sound m := by
  unfold Sound
  rw [ht]
  rfl

theorem label_mem_columns (ht : m.lookup table = some t) (qualify : Bool) {column : String}
    (hc : column ∈ t.schema.columnNames) :
    ResultRow.label t.schema qualify column ∈ (scan table qualify).columns m := by
  rw [columns, ht]
  exact List.mem_map_of_mem hc

theorem relation_scan (ht : m.lookup table = some t) (qualify : Bool) :
    (scan table qualify).relation m = t.rows.map (ResultRow.ofRow t.schema qualify) := by
  rw [relation, ht]
  rfl

/-- A filter of a scan lets those rows pass that hold the value. -/
theorem relation_filter (ht : m.lookup table = some t) {column : String}
    (hc : column ∈ t.schema.columnNames) (value : Value) :
    (filter (scan table false) column value).relation m =
      (t.rows.filter fun r => r.held column = value).map (ResultRow.ofRow t.schema false) := by
  have hpass (r : Row) : ((ResultRow.ofRow t.schema false r).under? column).getD .null =
      r.held column :=
    ResultRow.held_ofRow false hc
  rw [relation, relation_scan ht]
  simp only [List.filter_map, Function.comp_def, hpass]

/-- Where keys are distinct, a lookup finds the rows that hold the key. -/
theorem relation_lookup (ht : m.lookup table = some t) (hf : ∀ r ∈ t.rows, r.Fits t.schema)
    (hd : Rows.Distinct t.schema t.rows) (k : Int) :
    (lookup table (.int k)).relation m =
      (t.rows.filter fun r => r.held Value.keyColumn = .int k).map
      (ResultRow.ofRow t.schema false) := by
  rw [relation, ht, Option.elim_some, Rows.filter_key hf hd.keys]
  cases t.rows.find (.int k) <;> rfl

/-- A join of two scans pairs the rows that agree. -/
theorem relation_join {l r : Memory.Table} {c d : Column} (hl : m.lookup l.schema.name = some l)
    (hr : m.lookup r.schema.name = some r) (hc : c.name ∈ l.schema.columnNames)
    (hd : d.name ∈ r.schema.columnNames) :
    (join (scan l.schema.name true) (scan r.schema.name true) (l.schema.name ++ "." ++ c.name)
      (r.schema.name ++ "." ++ d.name)).relation m = Memory.Tables.pairs l r c d := by
  have hleft (x : Row) : (ResultRow.ofRow l.schema true x).under? (l.schema.name ++ "." ++ c.name) =
      some (x.held c.name) := ResultRow.under?_ofRow true hc
  have hright (y : Row) : (ResultRow.ofRow r.schema true y).under?
      (r.schema.name ++ "." ++ d.name) = some (y.held d.name) := ResultRow.under?_ofRow true hd
  rw [relation, relation_scan hl, relation_scan hr, Memory.Tables.pairs, List.flatMap_map]
  simp only [List.filter_map, Function.comp_def, hleft, hright, Option.some.injEq, List.map_map]

end Plan

namespace Tables

variable {directory place : Path} {start : Files} {schemas : List (String × Schema)}
  {m : Memory.Tables} {ts : Tables} {w : World} {table : String} {t : Memory.Table}

/-- The plan of a query delivers the rows that its condition picks. -/
theorem At.run_rows (h : At directory place start schemas m (ts, w))
    (ht : m.lookup table = some t) {where? : Option Comparison} {plan : Plan}
    (hplan : Database.planOf t.schema table where? = .ok plan) :
    ∃ rows y, Memory.Tables.pick t where? = .ok rows ∧
      plan.rows.run (ts, w) = (.ok (rows.map (ResultRow.ofRow t.schema false)), y) ∧
      At directory place start schemas m y := by
  have hserving := serving_at directory place start schemas
  have hthere := Plan.sound_of_lookup ht false
  cases where? with
  | none =>
    cases hplan
    obtain ⟨y, hrun, hat⟩ := Plan.run_rows hserving h hthere
    rw [Plan.relation_scan ht] at hrun
    exact ⟨t.rows, y, rfl, hrun, hat⟩
  | some c =>
    rw [Database.planOf_some] at hplan
    rw [Database.pick_some]
    cases hresolve : Database.resolve t.schema c with
    | error e =>
      rw [hresolve] at hplan
      cases hplan
    | ok found =>
      rw [hresolve] at hplan
      cases hplan
      obtain ⟨column, value⟩ := found
      dsimp only [Except.map]
      split
      · rename_i hkey
        obtain ⟨hname, n, rfl⟩ := Database.resolve_key hresolve hkey
        obtain ⟨st, hst, hshows⟩ := h.exists_shows ht
        obtain ⟨y, hrun, hat⟩ := Plan.run_rows (p := .lookup table (.int n)) hserving h hthere
        rw [Plan.relation_lookup ht (fun _ hr => hshows.holds.fits hr) hshows.holds.distinct]
          at hrun
        rw [hname]
        exact ⟨_, y, rfl, hrun, hat⟩
      · have hcolumn : column.name ∈ t.schema.columnNames :=
          List.mem_map_of_mem (Database.resolve_mem hresolve).1
        obtain ⟨y, hrun, hat⟩ :=
          Plan.run_rows (p := .filter (.scan table false) column.name value) hserving h hthere
        rw [Plan.relation_filter ht hcolumn] at hrun
        exact ⟨_, y, rfl, hrun, hat⟩

/-- The plan of a join delivers the pairs of rows that agree. -/
theorem At.run_join {left right : String} {l r : Memory.Table} {on : Pairing} {c d : Column}
    (h : At directory place start schemas m (ts, w)) (hne : right ≠ left)
    (hl : m.lookup left = some l) (hr : m.lookup right = some r)
    (hcolumns : Memory.Tables.joinColumns l.schema r.schema on = .ok (c, d)) :
    ∃ y, (Plan.rows (.join (.scan l.schema.name true) (.scan r.schema.name true)
          (l.schema.name ++ "." ++ c.name) (r.schema.name ++ "." ++ d.name))).run (ts, w) =
        (.ok (Memory.Tables.pairs l r c d), y) ∧
      At directory place start schemas m y := by
  obtain ⟨st, hst, hshows⟩ := h.exists_shows hl
  obtain ⟨st', hst', hshows'⟩ := h.exists_shows hr
  have hnames : r.schema.name ≠ l.schema.name := by rwa [hshows.named, hshows'.named]
  obtain ⟨hc, hd⟩ := Database.joinColumns_mem hnames hcolumns
  have hcolumnl : c.name ∈ l.schema.columnNames := List.mem_map_of_mem hc
  have hcolumnr : d.name ∈ r.schema.columnNames := List.mem_map_of_mem hd
  rw [← hshows.named] at hl
  rw [← hshows'.named] at hr
  rw [← Plan.relation_join hl hr hcolumnl hcolumnr]
  exact Plan.run_rows (serving_at directory place start schemas) h
    ⟨Plan.sound_of_lookup hl true, Plan.sound_of_lookup hr true,
      Plan.label_mem_columns hl true hcolumnl, Plan.label_mem_columns hr true hcolumnr⟩

end Tables
end Tabulary
