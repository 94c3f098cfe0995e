import Tabulary.Proofs.Record.Layout
import Tabulary.Proofs.Table.Index

/-!
The changes of a table.  A table holds records when the file is these records one after another and
the index is that of the live ones.  Every change keeps this up for the file after its patches, and
fails or succeeds as the list of rows says.
-/

namespace Tabulary

open Record

namespace Patch

theorem apply_end (file bytes : List UInt8) :
    apply ⟨file.length, bytes⟩ file = file ++ bytes := by
  simp [apply]

/-- Setting a flag within the file changes one byte. -/
theorem apply_flag {file : List UInt8} {offset : Nat} (h : offset < file.length) :
    (Table.flag offset true).apply file = file.set offset 1 := by
  rw [List.set_eq_take_append_cons_drop, if_pos h]
  simp [apply, Table.flag, flagByte, Nat.sub_eq_zero_of_le (Nat.le_of_lt h)]

end Patch

namespace Table

/-- The file is these records, and the index is that of the live ones, which are distinct. -/
structure Holds (t : Table) (records : List Stored) (file : List UInt8) : Prop where
  laid : Laid t.schema 0 records file
  index : t.index = Index.ofLive t.schema (live records) file.length
  distinct : Rows.Distinct t.schema (liveRows records)

/-- A change fails as the list of rows says, or its patches bring the file to records of that
list. -/
inductive Follows (s : Schema) (file : List UInt8) :
    Except Fault Change → Except Fault Rows → Prop
  | error (e : Fault) : Follows s file (.error e) (.error e)
  | ok {c : Change} {records : List Stored} (schema : c.table.schema = s)
      (holds : c.table.Holds records (Patch.applyAll c.patches file)) :
      Follows s file (.ok c) (.ok (liveRows records))

theorem holds_empty (s : Schema) : (empty s).Holds [] [] :=
  ⟨Laid.nil 0, rfl, ⟨List.nodup_nil, fun _ _ => List.nodup_nil⟩⟩

/-- The index that a reading of the whole file gives is the one that belongs to its records. -/
theorem holds_ofRecords {s : Schema} {records : List Stored} {file : List UInt8}
    (hl : Laid s 0 records file) (hd : Rows.Distinct s (liveRows records)) :
    Holds ⟨s, Index.ofRecords s records⟩ records file where
  laid := hl
  index := by
    show Index.ofRecords s records = Index.ofLive s (live records) file.length
    rw [Index.ofRecords_eq (fun x hx => hl.fits_of_mem hx) hd, hl.stop_eq, Nat.zero_add]
  distinct := hd

namespace Holds

variable {t : Table} {records xs ys : List Stored} {x : Stored} {file : List UInt8}

theorem fits_of_live (h : t.Holds records file) {x : Stored} (hx : x ∈ live records) :
    x.row.Fits t.schema := h.laid.fits_of_mem (List.mem_of_mem_filter hx)

theorem fits_of_liveRows (h : t.Holds records file) {r : Row} (hr : r ∈ liveRows records) :
    r.Fits t.schema := by
  obtain ⟨x, hx, rfl⟩ := List.mem_map.mp hr
  exact h.fits_of_live hx

theorem liveRows_split (hx : x.row.deleted = false) :
    liveRows (xs ++ x :: ys) = liveRows xs ++ x.row :: liveRows ys := by
  rw [liveRows, live_append, live_cons_of_live hx, List.map_append, List.map_cons]
  rfl

theorem liveRows_marked (hx : x.row.deleted = true) :
    liveRows (xs ++ x :: ys) = liveRows xs ++ liveRows ys := by
  rw [liveRows, live_append, live_cons_of_deleted hx, List.map_append]
  rfl

theorem without_eq (h : t.Holds (xs ++ x :: ys) file) (hx : x.row.deleted = false) :
    (liveRows (xs ++ x :: ys)).without x.row = liveRows xs ++ liveRows ys := by
  have hd := h.distinct
  have hf : ∀ r ∈ liveRows (xs ++ x :: ys), r.Fits t.schema := fun r hr => h.fits_of_liveRows hr
  rw [liveRows_split hx] at hd hf ⊢
  exact Rows.without_append_cons hf hd

/-- Looking up a key finds one live record, in the list and in the index, or none in either. -/
theorem find_cases (h : t.Holds records file) (id : Value) :
    (∃ xs x ys, records = xs ++ x :: ys ∧ x.row.deleted = false ∧
      x.row.id.looseEq id = true ∧
      (liveRows records).find id = some x.row ∧ t.index.offset? id = some x.offset) ∨
    (liveRows records).find id = none ∧ t.index.offset? id = none := by
  have hoffset := Index.offset?_ofLive (fun x hx => h.fits_of_live hx) file.length id
  rw [← h.index] at hoffset
  have hfind : (liveRows records).find id =
      ((live records).find? fun x => x.row.id.looseEq id).map (·.row) := by
    rw [liveRows, Rows.find, List.find?_map]
    rfl
  cases hx : (live records).find? fun x => x.row.id.looseEq id with
  | none =>
    rw [hx] at hoffset hfind
    exact Or.inr ⟨hfind, hoffset⟩
  | some x =>
    rw [hx] at hoffset hfind
    obtain ⟨hmem, hlive⟩ := List.mem_filter.mp (List.mem_of_find?_eq_some hx)
    obtain ⟨xs, ys, hsplit⟩ := List.append_of_mem hmem
    have hid := List.find?_some hx
    refine Or.inl ⟨xs, x, ys, hsplit, ?_, hid, hfind, hoffset⟩
    simpa [Stored.isLive] using hlive

theorem offset?_self (h : t.Holds (xs ++ x :: ys) file) (hx : x.row.deleted = false) :
    t.index.offset? x.row.id = some x.offset := by
  have hmem : x ∈ live (xs ++ x :: ys) :=
    List.mem_filter.mpr ⟨List.mem_append_right xs
      List.mem_cons_self, by simp [Stored.isLive, hx]⟩
  have hoffset :=
    Index.offset?_ofLive (fun y hy => h.fits_of_live hy) file.length x.row.id
  rw [← h.index] at hoffset
  rw [hoffset]
  cases hfind : (live (xs ++ x :: ys)).find? fun y => y.row.id.looseEq x.row.id with
  | none =>
    have hself := List.find?_eq_none.mp hfind x hmem
    exact absurd (Value.looseEq_refl x.row.id) hself
  | some y =>
    have hid := List.find?_some hfind
    have hy := List.mem_of_find?_eq_some hfind
    have hkey := ((h.fits_of_live hy).looseEq_iff x.row.id).mp hid
    rw [(h.fits_of_live hmem).id_key?_eq, Option.some.injEq] at hkey
    have hkeys := h.distinct.keys
    rw [liveRows, List.map_map] at hkeys
    rw [List.inj_on_of_nodup_map hkeys hmem hy hkey]
    rfl

theorem usedIn_eq (h : t.Holds records file) {c : Column} (hc : c ∈ t.schema.uniqueColumns) :
    t.index.usedIn c.name = (liveRows records).map (·.held c.name) := by
  rw [h.index, Index.usedIn_ofLive hc, liveRows, List.map_map]
  rfl

end Holds

/-! ## Checking unique values -/

section checkUnique

variable {t : Table} {r : Row}

/-- The check of the unique values against those in use is one against some rows, where both agree
in every unique column. -/
theorem checkUnique_eq {previous : Option Row} {rows : Rows} (hr : r.Fits t.schema)
    (h : ∀ c ∈ t.schema.uniqueColumns,
      (!holds previous c.name (r.held c.name) &&
        (t.index.usedIn c.name).contains (r.held c.name)) =
      rows.any fun x => x.held c.name = r.held c.name) :
    t.checkUnique r previous = refuse (rows.taken? t.schema r) := by
  refine forM_eq_refuse fun c hc => ?_
  rw [Row.get_eq_ok_held (hr.accepted c (t.schema.mem_columns_of_unique hc)), ← h c hc]
  show (if _ then _ else _) = _
  split
  · rfl
  · rfl

theorem contains_map_held (rows : Rows) (column : String) (v : Value) :
    (rows.map (·.held column)).contains v = rows.any fun x => x.held column = v := by
  rw [Bool.eq_iff_iff, List.contains_iff_mem, List.mem_map, List.any_eq_true]
  simp only [decide_eq_true_eq]

variable {records xs ys : List Stored} {x : Stored} {file : List UInt8}

theorem Holds.checkUnique_none (h : t.Holds records file) (hr : r.Fits t.schema) :
    t.checkUnique r none = refuse ((liveRows records).taken? t.schema r) := by
  refine checkUnique_eq hr fun c hc => ?_
  rw [h.usedIn_eq hc, contains_map_held]
  rfl

/-- The values of the row that is replaced do not stand in the way. -/
theorem Holds.checkUnique_some (h : t.Holds (xs ++ x :: ys) file) (hx : x.row.deleted = false)
    (hr : r.Fits t.schema) :
    t.checkUnique r (some x.row) =
      refuse ((liveRows xs ++ liveRows ys).taken? t.schema r) := by
  have hmem : x ∈ xs ++ x :: ys := List.mem_append_right xs List.mem_cons_self
  refine checkUnique_eq hr fun c hc => ?_
  have hheld := Row.value?_eq_some_held
    ((h.laid.fits_of_mem hmem).accepted c (t.schema.mem_columns_of_unique hc))
  have hnodup := h.distinct.values c hc
  rw [h.usedIn_eq hc, liveRows_split hx, ← contains_map_held]
  rw [liveRows_split hx, List.map_append, List.map_cons] at hnodup
  rw [List.map_append, List.map_cons, List.map_append]
  obtain ⟨-, hys, hxs⟩ := List.nodup_append.mp hnodup
  by_cases heq : x.row.held c.name = r.held c.name
  · -- The row holds the value itself, so no other row does.
    have hholds : holds (some x.row) c.name (r.held c.name) = true := by
      simp [holds, hheld, heq]
    rw [hholds, Bool.not_true, Bool.false_and, eq_comm, Bool.eq_false_iff, ← heq, ne_eq,
      List.contains_iff_mem, List.mem_append, not_or]
    constructor
    · intro hfront
      exact hxs _ hfront _ List.mem_cons_self rfl
    · exact (List.nodup_cons.mp hys).1
  · have hholds : holds (some x.row) c.name (r.held c.name) = false := by
      simp [holds, hheld, heq]
    rw [hholds, Bool.not_false, Bool.true_and, Bool.eq_iff_iff, List.contains_iff_mem,
      List.contains_iff_mem, List.mem_append, List.mem_append, List.mem_cons]
    have hne : r.held c.name ≠ x.row.held c.name := Ne.symm heq
    simp only [hne, false_or]

end checkUnique

/-! ## The changes -/

namespace Holds

variable {t : Table} {records xs ys : List Stored} {x : Stored} {file : List UInt8} {r : Row}

/-- Setting the flag of a live record takes its row out, and leaves the length of the file. -/
theorem mark (h : t.Holds (xs ++ x :: ys) file) (hx : x.row.deleted = false) :
    ∃ y : Stored, y.row.deleted = true ∧
      Holds { t with index := t.index.leave x.row } (xs ++ y :: ys)
        ((flag x.offset true).apply file) ∧
      ((flag x.offset true).apply file).length = file.length := by
  obtain ⟨-, hretired⟩ := h.laid.retire
  have hmem : x ∈ xs ++ x :: ys := List.mem_append_right xs List.mem_cons_self
  have hlive : live (xs ++ x :: ys) = live xs ++ x :: live ys := by
    rw [live_append, live_cons_of_live hx]
  have hdead : live (xs ++ x.retired :: ys) = live xs ++ live ys := by
    rw [live_append, live_cons_of_deleted rfl]
  have hd := h.distinct
  rw [liveRows, hlive] at hd
  rw [Patch.apply_flag h.laid.offset_lt]
  refine ⟨x.retired, rfl, ⟨hretired, ?_, ?_⟩, List.length_set⟩
  · show t.index.leave x.row = _
    rw [h.index, hlive, hdead, Index.leave_ofLive (h.laid.fits_of_mem hmem) hd, List.length_set]
  · rw [liveRows, hdead, List.map_append]
    rw [List.map_append, List.map_cons] at hd
    exact hd.sublist ((List.sublist_cons_self _ _).append_left _)

/-- Writing a record behind the last one enters its row. -/
theorem extend {bytes : List UInt8} (h : t.Holds records file) (hr : r.Fits t.schema)
    (henc : encode t.schema r false = .ok bytes)
    (hd : Rows.Distinct t.schema (liveRows records ++ [r.stored t.schema false])) :
    Holds
      { t with index := { t.index.enter r file.length with stop := file.length + bytes.length } }
      (records ++ [⟨file.length, bytes.length, r.stored t.schema false⟩])
      (Patch.apply ⟨file.length, bytes⟩ file) := by
  have image := image_of_encode hr henc
  let x : Stored := ⟨file.length, bytes.length, r.stored t.schema false⟩
  have hlive : live (records ++ [x]) = live records ++ [x] := by
    rw [live_append, live_cons_of_live (Row.deleted_stored _ _ _)]
    rfl
  have hrows : (live records ++ [x]).map (·.row) = liveRows records ++ [r.stored t.schema false] :=
    List.map_append
  refine ⟨?_, ?_, ?_⟩
  · rw [Patch.apply_end]
    have hone := Laid.singleton (0 + file.length) image
    rw [Nat.zero_add] at hone
    exact h.laid.append ((Nat.zero_add file.length).symm ▸ hone)
  · have hid : r.id.key? = x.row.id.key? := by
      rw [hr.id_key?_eq, (hr.stored false).id_key?_eq, hr.key_stored]
    have hvalue (column : String) : r.value? column = x.row.value? column :=
      (hr.value?_stored_eq false column).symm
    have henter : t.index.enter r file.length =
        Index.ofLive t.schema (live records ++ [x]) file.length := by
      rw [Index.enter_congr hid hvalue, h.index]
      exact Index.enter_ofLive (hr.stored false) (hrows.symm ▸ hd)
    show ({ t.index.enter r file.length with stop := _ } : Index) = _
    rw [henter, hlive, Patch.apply_end, List.length_append]
    rfl
  · rw [liveRows, hlive, hrows]
    exact hd

theorem liveRows_extend (hr : r.deleted = false) (offset length : Nat) :
    liveRows (records ++ [⟨offset, length, r⟩]) = liveRows records ++ [r] := by
  rw [liveRows_split hr]
  rfl

/-- Adding a row follows the list of rows. -/
theorem add (h : t.Holds records file) (hr : r.Fits t.schema) :
    Follows t.schema file (t.add r)
      ((liveRows records).add t.schema r >>= r.recorded t.schema) := by
  have hstop : t.index.stop = file.length := by rw [h.index]; rfl
  unfold Table.add Rows.add Rows.append
  rw [h.checkUnique_none hr]
  rcases h.find_cases r.id with ⟨xs, x, ys, -, -, -, hfind, hoffset⟩ | ⟨hfind, hoffset⟩
  · rw [hfind, hoffset]
    exact Follows.error _
  · rw [hfind, hoffset]
    cases ht : (liveRows records).taken? t.schema r with
    | some e => exact Follows.error _
    | none =>
      have hkey (y : Row) (hy : y ∈ liveRows records) : y.key ≠ r.key := by
        intro heq
        have hno := List.find?_eq_none.mp hfind y hy
        apply hno
        rw [(h.fits_of_liveRows hy).looseEq_iff, hr.id_key?_eq, heq]
      show Follows t.schema file _ (r.recorded t.schema _)
      unfold Row.recorded
      cases henc : encode t.schema r false with
      | error e => exact Follows.error _
      | ok bytes =>
        have hholds := h.extend hr henc (h.distinct.append hr hkey ht)
        rw [hstop]
        rw [← liveRows_extend (Row.deleted_stored t.schema r false) file.length bytes.length]
        exact Follows.ok rfl hholds

theorem delete (h : t.Holds (xs ++ x :: ys) file) (hx : x.row.deleted = false) :
    Follows t.schema file (t.delete x.row) (.ok ((liveRows (xs ++ x :: ys)).without x.row)) := by
  obtain ⟨y, hy, hholds, -⟩ := h.mark hx
  have hold : t.offsetOf x.row = .ok x.offset := by
    rw [offsetOf, h.offset?_self hx]
  rw [h.without_eq hx, ← liveRows_marked hy, Table.delete, hold]
  exact Follows.ok rfl hholds

theorem replace (h : t.Holds (xs ++ x :: ys) file) (hx : x.row.deleted = false)
    (hr : r.Fits t.schema) (hk : r.key = x.row.key) :
    Follows t.schema file (t.replace x.row r)
      (((liveRows (xs ++ x :: ys)).without x.row).append t.schema r >>= r.recorded t.schema) := by
  obtain ⟨y, hy, hmarked, hlength⟩ := h.mark hx
  have hold : t.offsetOf x.row = .ok x.offset := by
    rw [offsetOf, h.offset?_self hx]
  have hstop : t.index.stop = file.length := by rw [h.index]; rfl
  have hd := h.distinct
  rw [liveRows_split hx] at hd
  have hkey (z : Row) (hz : z ∈ liveRows xs ++ liveRows ys) : z.key ≠ r.key := by
    rw [hk]
    rcases List.mem_append.mp hz with hz | hz
    · exact hd.key_ne.1 z hz
    · exact hd.key_ne.2 z hz
  unfold Table.replace Rows.append
  rw [h.without_eq hx, hold]
  simp only [bind, Except.bind]
  rw [h.checkUnique_some hx hr]
  cases ht : (liveRows xs ++ liveRows ys).taken? t.schema r with
  | some e => exact Follows.error _
  | none =>
    have hdistinct := hmarked.distinct
    rw [liveRows_marked hy] at hdistinct
    have hnew := hdistinct.append hr hkey ht
    rw [← liveRows_marked hy] at hnew
    show Follows t.schema file ((encode t.schema r false).bind _) (r.recorded t.schema _)
    unfold Row.recorded
    cases henc : encode t.schema r false with
    | error e => exact Follows.error _
    | ok bytes =>
      have hholds := hmarked.extend hr henc hnew
      rw [hlength] at hholds
      rw [hstop]
      show Follows t.schema file _ (.ok (liveRows xs ++ liveRows ys ++ [r.stored t.schema false]))
      rw [← liveRows_marked hy,
        ← liveRows_extend (Row.deleted_stored t.schema r false) file.length bytes.length]
      exact Follows.ok rfl hholds

end Holds

theorem mem_keys_overwrite {fields : List (String × Value)} {name : String}
    (h : name ∈ Keyed.keys fields) (changes : List (String × Value)) :
    name ∈ Keyed.keys (overwrite fields changes) := by
  unfold overwrite
  induction changes generalizing fields with
  | nil => exact h
  | cons c changes ih =>
    rw [List.foldl_cons]
    apply ih
    obtain ⟨f, hf, rfl⟩ := List.mem_map.mp h
    split
    · rw [Keyed.keys, List.map_map]
      refine List.mem_map.mpr ⟨f, hf, ?_⟩
      by_cases hc : (f.1 == c.1) = true
      · simp only [Function.comp_apply, hc, if_true]
        exact (eq_of_beq hc).symm
      · simp only [Function.comp_apply, if_neg hc]
    · exact List.mem_map.mpr ⟨f, List.mem_append_left [c] hf, rfl⟩

theorem mem_or_mem_of_overwrite {fields changes : List (String × Value)} {f : String × Value}
    (h : f ∈ overwrite fields changes) : f ∈ fields ∨ f ∈ changes := by
  unfold overwrite at h
  induction changes generalizing fields with
  | nil => exact Or.inl h
  | cons c changes ih =>
    rw [List.foldl_cons] at h
    rcases ih h with hmem | hmem
    · split at hmem
      · obtain ⟨g, hg, rfl⟩ := List.mem_map.mp hmem
        split
        · exact Or.inr List.mem_cons_self
        · exact Or.inl hg
      · rcases List.mem_append.mp hmem with hf | hc
        · exact Or.inl hf
        · exact Or.inr (List.mem_singleton.mp hc ▸ List.mem_cons_self)
    · exact Or.inr (List.mem_cons_of_mem c hmem)

theorem merge_eq {t : Table} {x : Row} (hx : x.Fits t.schema) (changes : List (String × Value)) :
    t.merge x changes = x.change t.schema changes := by
  have hid : Value.keyColumn ∈ Keyed.keys (overwrite x.values changes) :=
    mem_keys_overwrite ((hx.columns _).mpr (Row.keyColumn_mem t.schema)) changes
  obtain ⟨v, hv⟩ := Keyed.exists_lookup hid
  have hof : Row.ofValues (overwrite x.values changes) = .ok (x.changed changes) := by
    simp only [Row.ofValues, Row.changed, hv, Option.getD_some]
  unfold merge Row.change
  rw [hof]
  simp only [Except.mapError, bind, Except.bind, pure, Except.pure]
  rw [checkRow_eq]
  cases (x.changed changes).fault? t.schema with
  | some e => rfl
  | none =>
    by_cases hk : (x.changed changes).id.looseEq x.id = true
    · simp only [refuse, hk, if_true, Bool.not_true, Bool.false_eq_true, if_false]
    · rw [Bool.not_eq_true] at hk
      simp only [refuse, hk, Bool.false_eq_true, if_false, Bool.not_false, if_true]
      rfl

end Table
end Tabulary
