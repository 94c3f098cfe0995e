import Mathlib.Data.List.Induction
import Tabulary.Proofs.Table.Rows

/-!
The index of a table in closed form.  While the live rows are distinct, entering and taking out
rows one at a time keeps the index what a reading of the whole file would give, entry by entry and
in the same order.
-/

namespace Tabulary

namespace ValueSet

theorem insert_of_not_mem {xs : ValueSet} {v : Value} (h : v ∉ xs) : xs.insert v = xs ++ [v] :=
  if_neg h

theorem erase_append_cons {xs ys : ValueSet} {v : Value} (h : (xs ++ v :: ys).Nodup) :
    ValueSet.erase (xs ++ v :: ys) v = xs ++ ys := by
  obtain ⟨-, hys, hxs⟩ := List.nodup_append.mp h
  have hx : xs.filter (· ≠ v) = xs := by
    refine List.filter_eq_self.mpr fun w hw => ?_
    simpa using hxs w hw v List.mem_cons_self
  have hy : ys.filter (· ≠ v) = ys := by
    refine List.filter_eq_self.mpr fun w hw => ?_
    have hne : w ≠ v := fun heq => (List.nodup_cons.mp hys).1 (heq ▸ hw)
    simpa using hne
  rw [ValueSet.erase, List.filter_append, hx, List.filter_cons_of_neg (by simp), hy]

end ValueSet

namespace Record

def live (records : List Stored) : List Stored := records.filter (·.isLive)

/-- The rows of the records that are not deleted. -/
def liveRows (records : List Stored) : Rows := (live records).map (·.row)

theorem live_append (xs ys : List Stored) : live (xs ++ ys) = live xs ++ live ys :=
  List.filter_append xs ys

theorem live_cons_of_live {x : Stored} (h : x.row.deleted = false) (xs : List Stored) :
    live (x :: xs) = x :: live xs :=
  List.filter_cons_of_pos (by simp [Stored.isLive, h])

theorem live_cons_of_deleted {x : Stored} (h : x.row.deleted = true) (xs : List Stored) :
    live (x :: xs) = live xs :=
  List.filter_cons_of_neg (by simp [Stored.isLive, h])

end Record

open Record

namespace Index

/-- The index of live records, in their order. -/
def ofLive (s : Schema) (xs : List Stored) (stop : Nat) : Index where
  offsets := xs.map fun x => (x.row.key, x.offset)
  used := s.uniqueColumns.map fun c => (c.name, xs.map fun x => x.row.held c.name)
  stop := stop

variable {s : Schema} {xs ys : List Stored} {stop : Nat}

theorem keys_offsets_ofLive :
    Keyed.keys (ofLive s xs stop).offsets = (xs.map (·.row)).map (·.key) := by
  rw [Keyed.keys, ofLive, List.map_map, List.map_map]
  rfl

/-- The offset of a key is that of the live record that has it. -/
theorem offset?_ofLive (hf : ∀ x ∈ xs, x.row.Fits s) (stop : Nat) (id : Value) :
    (ofLive s xs stop).offset? id =
      (xs.find? fun x => x.row.id.looseEq id).map (·.offset) := by
  unfold offset?
  induction xs with
  | nil =>
    cases id.key? <;> rfl
  | cons x xs ih =>
    have hkey := (hf x List.mem_cons_self).id_key?_eq
    have hrest := ih fun y hy => hf y (List.mem_cons_of_mem x hy)
    rw [List.find?_cons]
    by_cases hid : x.row.id.looseEq id = true
    · rw [(Value.looseEq_iff_key? hkey id).mp hid, hid]
      show ((x.row.key, x.offset) :: (ofLive s xs stop).offsets).lookup x.row.key = _
      rw [Keyed.lookup_cons_eq, if_pos (beq_self_eq_true _)]
      rfl
    · rw [Bool.eq_false_iff.mpr hid, ← hrest]
      cases hk : id.key? with
      | none => rfl
      | some k =>
        have hne : ¬(k == x.row.key) = true := by
          intro heq
          rw [beq_iff_eq] at heq
          exact hid ((Value.looseEq_iff_key? hkey id).mpr (heq ▸ hk))
        show ((x.row.key, x.offset) :: (ofLive s xs stop).offsets).lookup k = _
        rw [Keyed.lookup_cons_eq, if_neg hne]
        rfl

theorem usedIn_ofLive {c : Column} (hc : c ∈ s.uniqueColumns) :
    (ofLive s xs stop).usedIn c.name = xs.map fun x => x.row.held c.name := by
  have hnodup : (Keyed.keys (ofLive s xs stop).used).Nodup := by
    rw [Keyed.keys, ofLive, List.map_map]
    exact s.nodup_columnNames.sublist (List.filter_sublist.map _)
  have hmem : (c.name, xs.map fun x => x.row.held c.name) ∈ (ofLive s xs stop).used :=
    List.mem_map_of_mem hc
  rw [usedIn, Keyed.lookup_of_mem hnodup hmem, Option.getD_some]

theorem touch_ofLive (f : ValueSet → Value → ValueSet) {r : Row} (hr : r.Fits s) :
    touch f r (ofLive s xs stop).used =
      s.uniqueColumns.map fun c =>
        (c.name, f (xs.map fun x => x.row.held c.name) (r.held c.name)) := by
  rw [touch, ofLive, List.map_map]
  refine List.map_congr_left fun c hc => ?_
  have hv := Row.value?_eq_some_held (hr.accepted c (s.mem_columns_of_unique hc))
  simp only [Function.comp_apply, hv]

/-- An index sees of a row what its key counts as and what it holds in each column. -/
theorem enter_congr {r r' : Row} (hid : r.id.key? = r'.id.key?)
    (h : ∀ column, r.value? column = r'.value? column) (x : Index) (offset : Nat) :
    x.enter r offset = x.enter r' offset := by
  simp only [enter, touch, hid, h]

theorem enter_ofLive {x : Stored} (hr : x.row.Fits s)
    (hd : Rows.Distinct s ((xs ++ [x]).map (·.row))) :
    (ofLive s xs stop).enter x.row x.offset = ofLive s (xs ++ [x]) stop := by
  have hkey : x.row.key ∉ Keyed.keys (ofLive s xs stop).offsets := by
    have hn := hd.keys
    rw [List.map_append, List.map_append, List.nodup_append] at hn
    rw [keys_offsets_ofLive]
    intro hmem
    exact hn.2.2 _ hmem _ List.mem_cons_self rfl
  have hvalue {c : Column} (hc : c ∈ s.uniqueColumns) :
      x.row.held c.name ∉ xs.map fun y => y.row.held c.name := by
    have hn := hd.values c hc
    rw [List.map_append, List.map_append, List.map_map, List.nodup_append] at hn
    intro hmem
    exact hn.2.2 _ hmem _ List.mem_cons_self rfl
  rw [enter, touch_ofLive _ hr, hr.id_key?_eq]
  simp only [Keyed.set_of_not_mem hkey]
  unfold ofLive
  rw [List.map_append]
  congr 1
  refine List.map_congr_left fun c hc => ?_
  rw [ValueSet.insert_of_not_mem (hvalue hc), List.map_append]
  rfl

theorem leave_ofLive {x : Stored} (hr : x.row.Fits s)
    (hd : Rows.Distinct s ((xs ++ x :: ys).map (·.row))) :
    (ofLive s (xs ++ x :: ys) stop).leave x.row = ofLive s (xs ++ ys) stop := by
  have hkeys : (Keyed.keys (ofLive s (xs ++ x :: ys) stop).offsets).Nodup := by
    rw [keys_offsets_ofLive]
    exact hd.keys
  rw [leave, touch_ofLive _ hr, hr.id_key?_eq]
  unfold ofLive at hkeys ⊢
  rw [List.map_append, List.map_cons] at hkeys
  simp only [List.map_append, List.map_cons, Keyed.erase_append_cons hkeys]
  congr 1
  refine List.map_congr_left fun c hc => ?_
  have hn := hd.values c hc
  rw [List.map_map, List.map_append, List.map_cons] at hn
  exact congrArg (Prod.mk c.name) (ValueSet.erase_append_cons hn)

/-- What the index is after a reading of the file: that of its live records. -/
theorem ofRecords_eq {records : List Stored} (hf : ∀ x ∈ records, x.row.Fits s)
    (hd : Rows.Distinct s (liveRows records)) :
    ofRecords s records =
      ofLive s (live records) ((records.getLast?.map (·.stop)).getD 0) := by
  induction records using List.reverseRecOn with
  | nil => rfl
  | append_singleton xs x ih =>
    have hsub : (liveRows xs).Sublist (liveRows (xs ++ [x])) := by
      rw [liveRows, liveRows, live_append, List.map_append]
      exact List.sublist_append_left _ _
    have hxs := ih (fun y hy => hf y (List.mem_append_left [x] hy)) (hd.sublist hsub)
    have hlast : ((xs ++ [x]).getLast?.map (·.stop)).getD 0 = x.stop := by simp
    rw [hlast, ofRecords, List.foldl_append, ← ofRecords, hxs]
    show record _ x = _
    unfold record
    by_cases hx : x.row.deleted = true
    · rw [live_append, live_cons_of_deleted hx, if_neg (by simp [Stored.isLive, hx])]
      simp only [live, List.filter_nil, List.append_nil]
      rfl
    · rw [Bool.not_eq_true] at hx
      have hlive : live (xs ++ [x]) = live xs ++ [x] := by
        rw [live_append, live_cons_of_live hx]
        rfl
      rw [liveRows, hlive] at hd
      rw [if_pos (by simp [Stored.isLive, hx]), hlive,
        enter_ofLive (hf x (List.mem_append_right xs List.mem_cons_self)) hd]
      rfl

end Index
end Tabulary
