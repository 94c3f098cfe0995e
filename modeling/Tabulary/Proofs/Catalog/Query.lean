import Tabulary.Execution
import Tabulary.Proofs.Memory.Basic

/-!
What queries are about: the rows of a table as results show them, the row of a key, and the columns
that a condition names.
-/

namespace Tabulary

/-! ## Rows of results -/

namespace ResultRow

variable {s : Schema} {r : Row} {name : String}

/-- The name of a column in the rows of a table, with or without the name of the table. -/
def label (s : Schema) (qualify : Bool) (name : String) : String :=
  if qualify then s.name ++ "." ++ name else name

theorem label_inj {qualify : Bool} {a b : String} (h : label s qualify a = label s qualify b) :
    a = b := by
  unfold label at h
  split at h
  · have hlist := congrArg String.toList h
    simp only [String.toList_append] at hlist
    exact String.toList_inj.mp (List.append_cancel_left hlist)
  · exact h

theorem ofRow_eq (qualify : Bool) : ofRow s qualify r =
    ⟨s.columnNames.map (label s qualify), s.columnNames.map fun n => r.held n⟩ := by
  unfold ofRow
  cases qualify with
  | true => rfl
  | false =>
    congr 1
    exact (List.map_id _).symm

/-- A row of a table holds under the name of a column what it holds in the column. -/
theorem get_ofRow (qualify : Bool) (h : name ∈ s.columnNames) :
    (ofRow s qualify r).get (label s qualify name) = .ok (r.held name) := by
  rw [ofRow_eq, get]
  cases hfind : (s.columnNames.map (label s qualify)).findIdx? (· = label s qualify name) with
  | none =>
    have hno := List.findIdx?_eq_none_iff.mp hfind _ (List.mem_map_of_mem h)
    simp at hno
  | some i =>
    obtain ⟨hi, heq, -⟩ := List.findIdx?_eq_some_iff_getElem.mp hfind
    rw [decide_eq_true_eq, List.getElem_map] at heq
    have hname := label_inj heq
    simp only [List.getElem?_map]
    rw [List.length_map] at hi
    rw [List.getElem?_eq_getElem hi, hname]
    rfl

end ResultRow

/-! ## Rows of a key -/

theorem Row.Fits.held_key {s : Schema} {r : Row} (h : r.Fits s) :
    r.held Value.keyColumn = .int r.key := by
  obtain ⟨n, hheld, hid⟩ := h.id_key?
  rw [hheld, Row.key, hid]
  rfl

/-- The rows that hold a number under the key column are the row of this key, if there is one. -/
theorem Rows.filter_key {s : Schema} {rows : Rows} (hf : ∀ r ∈ rows, r.Fits s)
    (hd : (rows.map (·.key)).Nodup) (n : Int) :
    rows.filter (fun r => r.held Value.keyColumn = .int n) = (rows.find (.int n)).toList := by
  induction rows with
  | nil => rfl
  | cons r rows ih =>
    obtain ⟨hnew, hd'⟩ := List.nodup_cons.mp hd
    have hr : r.Fits s := hf r List.mem_cons_self
    have hrest : ∀ x ∈ rows, x.Fits s := fun x hx => hf x (List.mem_cons_of_mem r hx)
    have hloose : r.id.looseEq (.int n) = true ↔ n = r.key := by
      rw [hr.looseEq_iff]
      exact Option.some.injEq n r.key ▸ Iff.rfl
    by_cases hn : n = r.key
    · have hnone : rows.filter (fun x => x.held Value.keyColumn = .int n) = [] := by
        refine List.filter_eq_nil_iff.mpr fun x hx => ?_
        rw [(hrest x hx).held_key, hn, decide_eq_true_eq, Value.int.injEq]
        intro heq
        exact hnew (List.mem_map.mpr ⟨x, hx, heq⟩)
      have hheld : r.held Value.keyColumn = .int n := by rw [hr.held_key, hn]
      have hfound : Rows.find (r :: rows) (.int n) = some r :=
        List.find?_cons_of_pos (hloose.mpr hn)
      rw [List.filter_cons, if_pos (decide_eq_true hheld), hnone, hfound]
      rfl
    · have hother : r.held Value.keyColumn ≠ .int n := by
        rw [hr.held_key]
        intro heq
        exact hn (Value.int.inj heq).symm
      have hskip : Rows.find (r :: rows) (.int n) = Rows.find rows (.int n) :=
        List.find?_cons_of_neg (mt hloose.mp hn)
      rw [List.filter_cons, if_neg (mt of_decide_eq_true hother), hskip]
      exact ih hrest hd'

/-! ## Columns -/

namespace Database

theorem resolve_mem {s : Schema} {x : Comparison} {c : Column} {value : Value}
    (h : resolve s x = .ok (c, value)) :
    c ∈ s.columns ∧ c.convert (.text x.value.text) = .ok value := by
  obtain ⟨column, hcolumn, hrest⟩ : ∃ column, s.column? x.column.name = some column ∧
      (do return (column, ← column.convert (.text x.value.text)) : Except Fault
        (Column × Value)) = .ok (c, value) := by
    unfold resolve at h
    cases hcolumn : s.column? x.column.name with
    | none =>
      rw [hcolumn] at h
      dsimp only at h
      split at h
      · split at h <;> cases h
      · cases h
    | some column =>
      rw [hcolumn] at h
      dsimp only at h
      refine ⟨column, rfl, ?_⟩
      split at h
      · split at h
        · cases h
        · exact h
      · exact h
  cases hvalue : column.convert (.text x.value.text) with
  | error e =>
    rw [hvalue] at hrest
    cases hrest
  | ok v =>
    rw [hvalue] at hrest
    cases hrest
    exact ⟨s.mem_of_column? hcolumn, hvalue⟩

/-- What a literal means in the key column is a number. -/
theorem resolve_key {s : Schema} {x : Comparison} {c : Column} {value : Value}
    (h : resolve s x = .ok (c, value)) (hk : c.isKey = true) :
    c.name = Value.keyColumn ∧ ∃ n, value = .int n := by
  obtain ⟨hc, hvalue⟩ := resolve_mem h
  obtain rfl := s.eq_key_of_isKey hc hk
  refine ⟨s.key_name, ?_⟩
  unfold Column.convert at hvalue
  rw [s.key_type] at hvalue
  dsimp only [Column.integerOfText] at hvalue
  split at hvalue
  · cases hvalue
  · split at hvalue
    · split at hvalue
      · cases hvalue
        exact ⟨_, rfl⟩
      · cases hvalue
    · cases hvalue

theorem planOf_some (s : Schema) (table : String) (x : Comparison) :
    planOf s table (some x) = (resolve s x).map fun found =>
      if found.1.isKey then .lookup table found.2
      else .filter (.scan table false) found.1.name found.2 := by
  unfold planOf
  dsimp only
  cases resolve s x with
  | error e => rfl
  | ok found =>
    simp only [bind, Except.bind, Except.map]
    split <;> rfl

theorem pick_some (t : Memory.Table) (x : Comparison) :
    Memory.Tables.pick t (some x) = (resolve t.schema x).map fun found =>
      t.rows.filter fun r => r.held found.1.name = found.2 := by
  unfold Memory.Tables.pick
  dsimp only
  cases resolve t.schema x <;> rfl

/-- The tables that a reference may be to. -/
theorem resolveSide_eq_ok {left right : Schema} {r : ColumnRef} {side : Schema × Column}
    (h : resolveSide left right r = .ok side) :
    ∃ candidates, candidates ⊆ [left, right] ∧
      side ∈ candidates.filterMap fun s => (s.column? r.name).map fun c => (s, c) := by
  unfold resolveSide at h
  cases htable : r.table? with
  | none =>
    refine ⟨[left, right], List.Subset.refl _, ?_⟩
    simp only [htable, pure_bind] at h
    split at h
    · cases h
    · rename_i side' hsides
      cases h
      rw [hsides]
      exact List.mem_singleton_self _
    · cases h
  | some t =>
    refine ⟨[left, right].filter (·.name = t), List.filter_subset_self _, ?_⟩
    simp only [htable] at h
    split at h
    · cases h
    · simp only [pure_bind] at h
      split at h
      · cases h
      · rename_i side' hsides
        cases h
        rw [hsides]
        exact List.mem_singleton_self _
      · cases h

theorem resolveSide_mem {left right s : Schema} {r : ColumnRef} {c : Column}
    (h : resolveSide left right r = .ok (s, c)) : (s = left ∨ s = right) ∧ c ∈ s.columns := by
  obtain ⟨candidates, hsub, hside⟩ := resolveSide_eq_ok h
  obtain ⟨s', hs', hfound⟩ := List.mem_filterMap.mp hside
  obtain ⟨c', hc', heq⟩ := Option.map_eq_some_iff.mp hfound
  cases heq
  refine ⟨?_, s.mem_of_column? hc'⟩
  have hmem := hsub hs'
  simpa using hmem

/-- A join names a column of each table. -/
theorem joinColumns_mem {left right : Schema} {on : Pairing} {c d : Column}
    (hne : right.name ≠ left.name) (h : Memory.Tables.joinColumns left right on = .ok (c, d)) :
    c ∈ left.columns ∧ d ∈ right.columns := by
  unfold Memory.Tables.joinColumns at h
  cases hl : resolveSide left right on.left with
  | error e =>
    rw [hl] at h
    cases h
  | ok first =>
    cases hr : resolveSide left right on.right with
    | error e =>
      rw [hl, hr] at h
      cases h
    | ok second =>
      obtain ⟨s, c'⟩ := first
      obtain ⟨t, d'⟩ := second
      obtain ⟨hs, hc⟩ := resolveSide_mem hl
      obtain ⟨ht, hd⟩ := resolveSide_mem hr
      simp only [hl, hr, bind, Except.bind] at h
      split at h
      · rename_i hnames
        cases h
        obtain rfl : s = left := hs.resolve_right fun heq => hne (heq ▸ hnames.1)
        obtain rfl : t = right := ht.resolve_left fun heq => hne (heq ▸ hnames.2).symm
        exact ⟨hc, hd⟩
      · split at h
        · rename_i hnames
          cases h
          obtain rfl : s = right := hs.resolve_left fun heq => hne (heq ▸ hnames.1).symm
          obtain rfl : t = left := ht.resolve_right fun heq => hne (heq ▸ hnames.2)
          exact ⟨hd, hc⟩
        · cases h

theorem joinPlan_eq (left right : Schema) (on : Pairing) :
    joinPlan left right on = (Memory.Tables.joinColumns left right on).map fun x =>
      .join (.scan left.name true) (.scan right.name true) (left.name ++ "." ++ x.1.name)
        (right.name ++ "." ++ x.2.name) := by
  unfold joinPlan Memory.Tables.joinColumns
  cases resolveSide left right on.left with
  | error e => rfl
  | ok first =>
    cases resolveSide left right on.right with
    | error e => rfl
    | ok second =>
      simp only [bind, Except.bind]
      split
      · rfl
      · split
        · rfl
        · rfl

end Database

end Tabulary
