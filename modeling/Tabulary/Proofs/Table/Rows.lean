import Mathlib.Data.List.Nodup
import Tabulary.Proofs.Row
import Tabulary.Table.Basic

/-!
A table seen from outside: the list of its rows, in the order in which they were written.  Each
operation says in which order the rules are checked, and what the list is afterwards.
-/

namespace Tabulary

/-- The first rule that a row breaks: it lacks a column or has one too many, its key is not the
value of `id`, or a column does not take its value. -/
def Row.fault? (s : Schema) (r : Row) : Option EngineError :=
  if Table.sameNames (Keyed.keys r.values) s.columnNames = false then
    some (.schema
      (.rowColumns ((Keyed.keys r.values).mergeSort fun a b => a ≤ b) s.name s.columnNames))
  else if (r.held Value.keyColumn).looseEq r.id = false then
    some (.schema (.rowKeyDiffers r.id))
  else
    (s.columns.find? fun c => !c.accepts (r.held c.name)).map fun c =>
      .typeMismatch c.name (r.held c.name) c.type

/-- Fails with what was found, if anything was. -/
def refuse : Option EngineError → Except Fault Unit
  | some e => .error (.raised e)
  | none => .ok ()

abbrev Rows := List Row

namespace Rows

def find (rows : Rows) (id : Value) : Option Row := rows.find? fun x => x.id.looseEq id

/-- The row of a key, which must be there. -/
def get (rows : Rows) (id : Value) : Except Fault Row :=
  match rows.find id with
  | some x => .ok x
  | none => .error (.raised (.noRecord id))

def without (rows : Rows) (x : Row) : Rows := rows.filter fun y => !y.id.looseEq x.id

/-- The first unique column, in the order of the schema, in which one of the rows holds the value
of a row that is to join them. -/
def taken? (s : Schema) (rows : Rows) (r : Row) : Option EngineError :=
  (s.uniqueColumns.find? fun c => rows.any fun x => x.held c.name = r.held c.name).map fun c =>
    .valueTaken c.name (r.held c.name)

/-- Puts a row behind the others, as storage gives it back. -/
def append (s : Schema) (rows : Rows) (r : Row) : Except Fault Rows := do
  refuse (rows.taken? s r)
  return rows ++ [r.stored s false]

/-- A new row that keeps the rules. -/
def add (s : Schema) (rows : Rows) (r : Row) : Except Fault Rows := do
  if (rows.find r.id).isSome then throw (.raised (.duplicateKey r.id))
  rows.append s r

def insert (s : Schema) (rows : Rows) (r : Row) : Except Fault Rows := do
  refuse (r.fault? s)
  rows.add s r

def delete (rows : Rows) (id : Value) : Except Fault Rows := do
  return rows.without (← rows.get id)

/-- The old row goes, and the new one is the last. -/
def update (s : Schema) (rows : Rows) (r : Row) : Except Fault Rows := do
  refuse (r.fault? s)
  let x ← rows.get r.id
  (rows.without x).append s r

end Rows

/-- A row with changes written over its values, among them possibly the one of `id`. -/
def Row.changed (x : Row) (changes : List (String × Value)) : Row where
  id := ((overwrite x.values changes).lookup Value.keyColumn).getD .null
  values := overwrite x.values changes

/-- The row after changes, which must be a row of the schema with the same key. -/
def Row.change (s : Schema) (x : Row) (changes : List (String × Value)) : Except Fault Row := do
  let r := x.changed changes
  refuse (r.fault? s)
  if !r.id.looseEq x.id then throw (.raised (.schema (.keyChange x.id)))
  return r

/-- What is given for a row that can be written: a text may be too long for its count of bytes. -/
def Row.recorded {α : Type} (s : Schema) (r : Row) (a : α) : Except Fault α := do
  let _ ← Record.encode s r false
  return a

theorem Row.map_recorded {α β : Type} (s : Schema) (r : Row) (a : α) (f : α → β) :
    (r.recorded s a).map f = r.recorded s (f a) := by
  unfold Row.recorded
  cases Record.encode s r false <;> rfl

def Rows.updateValues (s : Schema) (rows : Rows) (id : Value) (changes : List (String × Value)) :
    Except Fault (Row × Rows) := do
  let x ← rows.get id
  let r ← x.change s changes
  let rows' ← (rows.without x).append s r
  return (r, rows')

/-! ## The rules of a row -/

theorem sameNames_iff (xs ys : List String) :
    Table.sameNames xs ys = true ↔ ∀ name, name ∈ xs ↔ name ∈ ys := by
  simp only [Table.sameNames, Bool.and_eq_true, List.all_eq_true, List.contains_iff_mem]
  constructor
  · rintro ⟨hxy, hyx⟩ name
    exact ⟨hxy name, hyx name⟩
  · intro h
    exact ⟨fun name => (h name).mp, fun name => (h name).mpr⟩

/-- A check of one element after another fails at the first that fails. -/
theorem forM_eq_refuse {α : Type} {l : List α} {f : α → Except Fault Unit} {p : α → Bool}
    {fault : α → EngineError}
    (h : ∀ a ∈ l, f a = if p a = true then .error (.raised (fault a)) else .ok ()) :
    l.forM f = refuse ((l.find? p).map fault) := by
  induction l with
  | nil => rfl
  | cons a l ih =>
    have ha := h a List.mem_cons_self
    have hl := ih fun b hb => h b (List.mem_cons_of_mem a hb)
    show (f a >>= fun _ => l.forM f) = _
    rw [ha, List.find?_cons]
    by_cases hp : p a = true
    · rw [if_pos hp, hp]
      rfl
    · rw [if_neg hp, Bool.eq_false_iff.mpr hp]
      exact hl

namespace Row

variable {s : Schema} {r : Row}

theorem get_eq_ok {column : String} (h : column ∈ Keyed.keys r.values) :
    r.get column = .ok (r.held column) := by
  obtain ⟨v, hv⟩ := Keyed.exists_lookup h
  rw [get, held, value?, hv]
  rfl

theorem fits_iff_fault? : r.Fits s ↔ r.fault? s = none := by
  unfold fault?
  by_cases hn : Table.sameNames (Keyed.keys r.values) s.columnNames = true
  · rw [hn, if_neg (by simp)]
    by_cases hk : (r.held Value.keyColumn).looseEq r.id = true
    · rw [hk, if_neg (by simp), Option.map_eq_none_iff, List.find?_eq_none]
      constructor
      · intro h c hc
        simp [h.accepted c hc]
      · intro h
        refine ⟨(sameNames_iff _ _).mp hn, hk, fun c hc => ?_⟩
        simpa using h c hc
    · rw [if_pos (by simpa using hk)]
      exact ⟨fun h => absurd h.key hk, fun h => nomatch h⟩
  · rw [if_pos (by simpa using hn)]
    exact ⟨fun h => absurd ((sameNames_iff _ _).mpr h.columns) hn, fun h => nomatch h⟩

theorem change_eq_ok {x : Row} {changes : List (String × Value)} (h : x.change s changes = .ok r) :
    r = x.changed changes ∧ r.Fits s ∧ r.id.looseEq x.id = true := by
  unfold change at h
  cases hfault : (x.changed changes).fault? s with
  | some e =>
    simp only [hfault, refuse, bind, Except.bind] at h
    cases h
  | none =>
    by_cases hk : (x.changed changes).id.looseEq x.id = true
    · simp only [hfault, hk, refuse, bind, Except.bind, Bool.not_true, Bool.false_eq_true,
        if_false] at h
      cases h
      exact ⟨rfl, fits_iff_fault?.mpr hfault, hk⟩
    · rw [Bool.not_eq_true] at hk
      simp only [hfault, hk, refuse, bind, Except.bind, Bool.not_false, if_true] at h
      cases h

end Row

namespace Rows

variable {s : Schema} {rows rows' : Rows} {r : Row}

theorem fits_of_insert (h : rows.insert s r = .ok rows') : r.Fits s := by
  unfold insert at h
  cases hfault : r.fault? s with
  | some e =>
    rw [hfault] at h
    cases h
  | none => exact Row.fits_iff_fault?.mpr hfault

theorem fits_of_update (h : rows.update s r = .ok rows') : r.Fits s := by
  unfold update at h
  cases hfault : r.fault? s with
  | some e =>
    rw [hfault] at h
    cases h
  | none => exact Row.fits_iff_fault?.mpr hfault

/-- What an update of values wrote was a stored row, changed, that keeps the rules. -/
theorem exists_of_updateValues {id : Value} {changes : List (String × Value)} {a : Row × Rows}
    (h : rows.updateValues s id changes = .ok a) :
    ∃ x ∈ rows, a.1 = x.changed changes ∧ a.1.Fits s := by
  unfold updateValues get at h
  cases hfind : rows.find id with
  | none =>
    rw [hfind] at h
    cases h
  | some x =>
    simp only [hfind, bind, Except.bind] at h
    split at h
    · cases h
    · rename_i r hchange
      obtain ⟨rfl, hfits, -⟩ := Row.change_eq_ok hchange
      split at h
      · cases h
      · cases h
        exact ⟨x, List.mem_of_find?_eq_some hfind, rfl, hfits⟩

end Rows

/-- A row is checked for its columns, then its key, then its values in the order of the columns. -/
theorem checkRow_eq (s : Schema) (r : Row) : Table.checkRow s r = refuse (r.fault? s) := by
  unfold Table.checkRow Row.fault?
  by_cases hn : Table.sameNames (Keyed.keys r.values) s.columnNames = true
  · have hget {name : String} (h : name ∈ s.columnNames) : r.get name = .ok (r.held name) :=
      Row.get_eq_ok (((sameNames_iff _ _).mp hn name).mpr h)
    have hkey : r.get s.key.name = .ok (r.held Value.keyColumn) := by
      rw [s.key_name]
      exact hget (Row.keyColumn_mem s)
    have hgiven : Table.sameNames (r.values.map (·.1)) s.columnNames = true := hn
    by_cases hk : (r.held Value.keyColumn).looseEq r.id = true
    · simp only [hn, hgiven, hkey, hk, bind, Except.bind, pure, Except.pure, Bool.not_true,
        Bool.false_eq_true, Bool.true_eq_false, if_false]
      refine forM_eq_refuse fun c hc => ?_
      rw [hget (List.mem_map_of_mem hc)]
      by_cases ha : c.accepts (r.held c.name) = true
      · simp [ha]
      · simp [ha, throw, throwThe, MonadExceptOf.throw]
    · rw [Bool.not_eq_true] at hk
      simp only [hn, hgiven, hkey, hk, bind, Except.bind, Bool.not_true, Bool.not_false,
        Bool.true_eq_false, Bool.false_eq_true, if_true, if_false]
      rfl
  · have hgiven : Table.sameNames (r.values.map (·.1)) s.columnNames = false :=
      Bool.eq_false_iff.mpr hn
    rw [Bool.not_eq_true] at hn
    simp only [hn, hgiven, Bool.not_false, if_true]
    rfl

/-! ## Looking up a key -/

/-- Two keys that both are the one asked for are one key. -/
theorem Value.looseEq_of_common {a b c : Value} (ha : a.looseEq c = true)
    (hb : b.looseEq c = true) : a.looseEq b = true := by
  unfold looseEq at ha hb ⊢
  cases hka : a.key? <;> cases hkb : b.key? <;> cases hkc : c.key? <;> simp_all

namespace Rows

variable {rows : Rows} {x : Row} {id : Value} {f : Fault}

theorem get_eq_ok (h : rows.get id = .ok x) : x ∈ rows ∧ x.id.looseEq id = true := by
  unfold get at h
  cases hfind : rows.find id with
  | none =>
    rw [hfind] at h
    cases h
  | some y =>
    rw [hfind] at h
    cases h
    exact ⟨List.mem_of_find?_eq_some hfind,
      List.find?_some (p := fun y : Row => y.id.looseEq id) hfind⟩

theorem get_eq_error (h : rows.get id = .error f) :
    f = .raised (.noRecord id) ∧ ∀ x ∈ rows, x.id.looseEq id = false := by
  unfold get at h
  cases hfind : rows.find id with
  | some x =>
    rw [hfind] at h
    cases h
  | none =>
    rw [hfind] at h
    cases h
    exact ⟨rfl, fun x hx => by simpa using List.find?_eq_none.mp hfind x hx⟩

theorem mem_without {y : Row} (hy : y ∈ rows.without x) (hx : x.id.looseEq id = true) :
    y ∈ rows ∧ y.id.looseEq id = false := by
  obtain ⟨hmem, hother⟩ := List.mem_filter.mp hy
  refine ⟨hmem, Bool.eq_false_iff.mpr fun hid => ?_⟩
  rw [Value.looseEq_of_common hid hx] at hother
  cases hother

end Rows

/-! ## Distinct rows -/

/-- The key of a row as an integer. -/
def Row.key (r : Row) : Int := r.id.key?.getD 0

namespace Row

variable {s : Schema} {r : Row}

theorem Fits.id_key?_eq (h : r.Fits s) : r.id.key? = some r.key := by
  obtain ⟨n, -, hn⟩ := h.id_key?
  rw [Row.key, hn, Option.getD_some]

theorem Fits.looseEq_iff (h : r.Fits s) (v : Value) :
    r.id.looseEq v = true ↔ v.key? = some r.key := Value.looseEq_iff_key? h.id_key?_eq v

theorem Fits.key_eq {x : Row} (hx : x.Fits s) (hr : r.Fits s) (h : x.id.looseEq r.id = true) :
    r.key = x.key := by
  have hkey := (hx.looseEq_iff r.id).mp h
  rw [hr.id_key?_eq] at hkey
  exact Option.some.inj hkey

theorem Fits.key_stored (h : r.Fits s) (deleted : Bool) : (r.stored s deleted).key = r.key := by
  obtain ⟨n, hheld, hn⟩ := h.id_key?
  rw [Row.key, Row.key, id_stored, hheld, hn]
  rfl

end Row

namespace Rows

/-- No two rows have one key, or one value in a unique column. -/
structure Distinct (s : Schema) (rows : Rows) : Prop where
  keys : (rows.map (·.key)).Nodup
  values : ∀ c ∈ s.uniqueColumns, (rows.map (·.held c.name)).Nodup

variable {s : Schema}

theorem Distinct.sublist {rows rows' : Rows} (h : Distinct s rows) (hs : rows'.Sublist rows) :
    Distinct s rows' where
  keys := h.keys.sublist (hs.map _)
  values c hc := (h.values c hc).sublist (hs.map _)

/-- The rows before and behind a row have other keys. -/
theorem Distinct.key_ne {xs ys : Rows} {x : Row} (h : Distinct s (xs ++ x :: ys)) :
    (∀ y ∈ xs, y.key ≠ x.key) ∧ ∀ y ∈ ys, y.key ≠ x.key := by
  have hn := h.keys
  rw [List.map_append, List.map_cons] at hn
  obtain ⟨-, hys, hxs⟩ := List.nodup_append.mp hn
  constructor
  · intro y hy
    exact hxs y.key (List.mem_map_of_mem hy) x.key List.mem_cons_self
  · intro y hy heq
    exact (List.nodup_cons.mp hys).1 (heq ▸ List.mem_map_of_mem hy)

theorem without_append_cons {xs ys : Rows} {x : Row} (hf : ∀ y ∈ xs ++ x :: ys, y.Fits s)
    (hd : Distinct s (xs ++ x :: ys)) : (xs ++ x :: ys).without x = xs ++ ys := by
  have hx := hf x (List.mem_append_right xs List.mem_cons_self)
  have hkeep {y : Row} (hy : y.Fits s) (hne : y.key ≠ x.key) :
      (!y.id.looseEq x.id) = true := by
    rw [Bool.not_eq_true', Bool.eq_false_iff]
    intro heq
    have hkey := (hy.looseEq_iff x.id).mp heq
    rw [hx.id_key?_eq, Option.some.injEq] at hkey
    exact hne hkey.symm
  obtain ⟨hxs, hys⟩ := hd.key_ne
  have hfront : xs.filter (fun y => !y.id.looseEq x.id) = xs :=
    List.filter_eq_self.mpr fun y hy => hkeep (hf y (List.mem_append_left _ hy)) (hxs y hy)
  have hback : ys.filter (fun y => !y.id.looseEq x.id) = ys :=
    List.filter_eq_self.mpr fun y hy =>
      hkeep (hf y (List.mem_append_right xs (List.mem_cons_of_mem x hy))) (hys y hy)
  rw [without, List.filter_append, hfront,
    List.filter_cons_of_neg (by simp [Value.looseEq_refl]), hback]

/-- A row may join rows of other keys that leave its unique values free. -/
theorem Distinct.append {rows : Rows} {r : Row} (hd : Distinct s rows) (hr : r.Fits s)
    (hk : ∀ x ∈ rows, x.key ≠ r.key) (ht : rows.taken? s r = none) :
    Distinct s (rows ++ [r.stored s false]) where
  keys := by
    rw [List.map_append, List.map_singleton, hr.key_stored, List.nodup_append]
    refine ⟨hd.keys, List.nodup_singleton _, fun a ha b hb => ?_⟩
    obtain ⟨x, hx, rfl⟩ := List.mem_map.mp ha
    rw [List.mem_singleton.mp hb]
    exact hk x hx
  values c hc := by
    have hheld : (r.stored s false).held c.name = r.held c.name :=
      Row.held_stored s r false (List.mem_map_of_mem (s.mem_columns_of_unique hc))
    rw [List.map_append, List.map_singleton, hheld, List.nodup_append]
    refine ⟨hd.values c hc, List.nodup_singleton _, fun a ha b hb => ?_⟩
    obtain ⟨x, hx, rfl⟩ := List.mem_map.mp ha
    rw [List.mem_singleton.mp hb]
    intro heq
    rw [taken?, Option.map_eq_none_iff, List.find?_eq_none] at ht
    exact ht c hc (List.any_eq_true.mpr ⟨x, hx, decide_eq_true heq⟩)

end Rows
end Tabulary
