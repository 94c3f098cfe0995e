import Mathlib.Data.List.Induction
import Tabulary.Proofs.Record.Cut
import Tabulary.Proofs.Keyed
import Tabulary.Proofs.Table.Index

/-!
The index that a reading of a file gives, whatever the file holds.

Records that were not written by a table may repeat a key or a value of a unique column, and a
deleted record may stand before or behind a live one of its key.  `Index.Lists` says what the index
is then: a key has the place of the last live record that has it, and a unique column has each value
that some live record holds in it, once.  It is kept by entering one record after another
(`Lists.record`).
-/

namespace Tabulary

namespace ValueSet

theorem mem_insert {xs : ValueSet} {v w : Value} : w ∈ xs.insert v ↔ w ∈ xs ∨ w = v := by
  unfold ValueSet.insert
  by_cases hv : v ∈ xs
  · rw [if_pos hv]
    constructor
    · intro hw
      exact Or.inl hw
    · intro hw
      rcases hw with hw | hw
      · exact hw
      · rwa [hw]
  · rw [if_neg hv, List.mem_append, List.mem_singleton]

theorem nodup_insert {xs : ValueSet} (h : xs.Nodup) (v : Value) : (xs.insert v).Nodup := by
  by_cases hv : v ∈ xs
  · rwa [ValueSet.insert, if_pos hv]
  · rw [insert_of_not_mem hv, List.nodup_append]
    refine ⟨h, List.nodup_singleton v, ?_⟩
    intro a ha b hb heq
    rw [List.mem_singleton] at hb
    rw [heq, hb] at ha
    exact hv ha

end ValueSet

open Record

namespace Index

/-- The last of some records with a key. -/
def lastOf (k : Int) (records : List Stored) : Option Stored :=
  (records.filter fun x => x.row.id = .int k).getLast?

/-- The index belongs to these records, whichever keys and values they share. -/
structure Lists (s : Schema) (x : Index) (records : List Stored) : Prop where
  keys : (Keyed.keys x.offsets).Nodup
  offsets : ∀ k, x.offsets.lookup k = (lastOf k (live records)).map (·.offset)
  columns : Keyed.keys x.used = s.uniqueColumns.map (·.name)
  values : ∀ c ∈ s.uniqueColumns, (x.usedIn c.name).Nodup
  used : ∀ c ∈ s.uniqueColumns, ∀ v,
    v ∈ x.usedIn c.name ↔ ∃ r ∈ live records, r.row.value? c.name = some v
  stop : x.stop = reach records

variable {s : Schema} {x : Index} {records : List Stored} {r : Stored}

theorem keys_touch (f : ValueSet → Value → ValueSet) (r : Row)
    (used : List (String × ValueSet)) : Keyed.keys (touch f r used) = Keyed.keys used := by
  rw [Keyed.keys, touch, List.map_map]
  refine List.map_congr_left fun u _ => ?_
  rw [Function.comp_apply]
  split
  · rfl
  · rfl

theorem lookup_touch (f : ValueSet → Value → ValueSet) {r : Row}
    {used : List (String × ValueSet)}
    {column : String} {v : Value} (hv : r.value? column = some v) :
    (touch f r used).lookup column = (used.lookup column).map fun values => f values v := by
  unfold touch
  induction used with
  | nil => rfl
  | cons u used ih =>
    obtain ⟨name, values⟩ := u
    rw [List.map_cons]
    by_cases hname : column = name
    · subst hname
      simp only [hv]
      rw [Keyed.lookup_cons_eq, Keyed.lookup_cons_eq, if_pos (beq_self_eq_true column),
        if_pos (beq_self_eq_true column)]
      rfl
    · have hne : ¬(column == name) = true := by simpa using hname
      rw [Keyed.lookup_cons_eq column name, if_neg hne, ← ih]
      cases r.value? name with
      | none => exact (Keyed.lookup_cons_eq column name _ _).trans (if_neg hne)
      | some w => exact (Keyed.lookup_cons_eq column name _ _).trans (if_neg hne)

theorem lastOf_concat (k : Int) (records : List Stored) (r : Stored) :
    lastOf k (records ++ [r]) = if r.row.id = .int k then some r else lastOf k records := by
  unfold lastOf
  rw [List.filter_append]
  by_cases hid : r.row.id = .int k
  · rw [if_pos hid, List.filter_cons_of_pos (by simpa using hid)]
    simp
  · rw [if_neg hid, List.filter_cons_of_neg (by simpa using hid), List.filter_nil, List.append_nil]

theorem usedIn_empty (s : Schema) (column : String) : (empty s).usedIn column = [] := by
  unfold usedIn empty
  induction s.uniqueColumns with
  | nil => rfl
  | cons c rest ih =>
    rw [List.map_cons, Keyed.lookup_cons_eq]
    by_cases hc : (column == c.name) = true
    · rw [if_pos hc]
      rfl
    · rw [if_neg hc]
      exact ih

theorem lists_empty (s : Schema) : (empty s).Lists s [] where
  keys := List.nodup_nil
  offsets _ := rfl
  columns := by
    rw [Keyed.keys, empty, List.map_map]
    rfl
  values c _ := by
    rw [usedIn_empty]
    exact List.nodup_nil
  used c _ v := by
    rw [usedIn_empty]
    constructor
    · intro hv
      cases hv
    · intro hv
      obtain ⟨y, hy, -⟩ := hv
      cases hy
  stop := rfl

theorem Lists.exists_lookup (h : x.Lists s records) {c : Column} (hc : c ∈ s.uniqueColumns) :
    x.used.lookup c.name = some (x.usedIn c.name) := by
  have hmem : c.name ∈ Keyed.keys x.used := by
    rw [h.columns]
    exact List.mem_map_of_mem hc
  obtain ⟨values, hvalues⟩ := Keyed.exists_lookup hmem
  rw [usedIn, hvalues]
  rfl

theorem usedIn_enter (h : x.Lists s records) {c : Column} (hc : c ∈ s.uniqueColumns) {row : Row}
    {v : Value} (hv : row.value? c.name = some v) (offset : Nat) :
    (x.enter row offset).usedIn c.name = (x.usedIn c.name).insert v := by
  show ((touch ValueSet.insert row x.used).lookup c.name).getD [] = _
  rw [lookup_touch _ hv, h.exists_lookup hc]
  rfl

/-- Entering a record adds it to the records that the index belongs to. -/
theorem Lists.record (h : x.Lists s records) (hr : r.row.Fits s) (hid : r.row.id = .int r.row.key) :
    (x.record r).Lists s (records ++ [r]) := by
  have hreach : r.stop = reach (records ++ [r]) := by simp [reach]
  unfold Index.record
  by_cases hlive : r.isLive = true
  · have hall : live (records ++ [r]) = live records ++ [r] := by
      rw [live, List.filter_append, List.filter_cons_of_pos hlive]
      rfl
    have hkey : r.row.id.key? = some r.row.key := hr.id_key?_eq
    have hvalue (c : Column) (hc : c ∈ s.uniqueColumns) :
        r.row.value? c.name = some (r.row.held c.name) :=
      Row.value?_eq_some_held (hr.accepted c (s.mem_columns_of_unique hc))
    rw [if_pos hlive]
    have hoffsets : (x.enter r.row r.offset).offsets = Keyed.set r.row.key r.offset x.offsets := by
      simp only [enter, hkey]
    refine ⟨?_, fun k => ?_, ?_, fun c hc => ?_, fun c hc v => ?_, hreach⟩
    · show (Keyed.keys (x.enter r.row r.offset).offsets).Nodup
      rw [hoffsets]
      exact Keyed.nodup_keys_set h.keys _ _
    · show (x.enter r.row r.offset).offsets.lookup k = _
      rw [hoffsets, Keyed.lookup_set, hall, lastOf_concat, h.offsets, hid]
      by_cases hk : k = r.row.key
      · rw [if_pos (by simpa using hk), if_pos (by rw [hk])]
        rfl
      · rw [if_neg (by simpa using hk), if_neg (fun heq => hk (Value.int.inj heq).symm)]
    · exact (keys_touch _ _ _).trans h.columns
    · show ((x.enter r.row r.offset).usedIn c.name).Nodup
      rw [usedIn_enter h hc (hvalue c hc)]
      exact ValueSet.nodup_insert (h.values c hc) _
    · show v ∈ (x.enter r.row r.offset).usedIn c.name ↔ _
      rw [usedIn_enter h hc (hvalue c hc), ValueSet.mem_insert, h.used c hc v, hall]
      constructor
      · intro hv
        rcases hv with ⟨y, hy, hv⟩ | hv
        · exact ⟨y, List.mem_append_left [r] hy, hv⟩
        · exact ⟨r, List.mem_append_right _ List.mem_cons_self, by rw [hvalue c hc, hv]⟩
      · intro hv
        obtain ⟨y, hy, hv⟩ := hv
        rcases List.mem_append.mp hy with hy | hy
        · exact Or.inl ⟨y, hy, hv⟩
        · rw [List.mem_singleton.mp hy, hvalue c hc, Option.some.injEq] at hv
          exact Or.inr hv.symm
  · have hall : live (records ++ [r]) = live records := by
      rw [live, List.filter_append, List.filter_cons_of_neg hlive, List.filter_nil, List.append_nil]
      rfl
    rw [if_neg hlive]
    exact ⟨h.keys, hall ▸ h.offsets, h.columns, h.values, hall ▸ h.used, hreach⟩

/-- The index that is read from any records belongs to them. -/
theorem lists_ofRecords (hf : ∀ r ∈ records, r.row.Fits s ∧ r.row.id = .int r.row.key) :
    (ofRecords s records).Lists s records := by
  induction records using List.reverseRecOn with
  | nil => exact lists_empty s
  | append_singleton records r ih =>
    have hrest := ih fun y hy => hf y (List.mem_append_left [r] hy)
    obtain ⟨hr, hid⟩ := hf r (List.mem_append_right records List.mem_cons_self)
    rw [ofRecords, List.foldl_append, ← ofRecords]
    exact hrest.record hr hid

end Index
end Tabulary
