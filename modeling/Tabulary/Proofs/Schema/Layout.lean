import Tabulary.Proofs.Catalog.Manifest
import Mathlib.Data.List.Nodup

/-!
Which lists of columns make a schema, and which schema they make.  Building looks for the key by its
name and then tests the normalised list again, so what it accepts is spread over both tests; put
together they are five rules on the list as it was given.

Main statement: building succeeds exactly under those rules, and its result is the list with the key
moved to the front (`build_iff_wellFormed`).
-/

namespace Tabulary

namespace Schema

variable {name : String} {columns : List Column}

theorem repeated?_eq_none {seen names : List String} (hnodup : names.Nodup)
    (hseen : ∀ n ∈ names, n ∉ seen) : repeated? seen names = none := by
  induction names generalizing seen with
  | nil => rfl
  | cons n rest ih =>
    obtain ⟨hn, hrest⟩ := List.nodup_cons.mp hnodup
    rw [repeated?, if_neg (hseen n List.mem_cons_self)]
    refine ih hrest fun m hm => ?_
    rw [List.mem_cons, not_or]
    exact ⟨fun heq => hn (heq ▸ hm), hseen m (List.mem_cons_of_mem n hm)⟩

theorem name_ne_of_defect? (h : defect? name columns = none) : name ≠ "" := by
  intro hname
  unfold defect? at h
  rw [if_pos hname] at h
  cases h

/-- The rules of a list whose key comes first are all that is tested of it. -/
theorem defect?_cons_eq_none {key : Column} {data : List Column} (hname : name ≠ "")
    (hnodup : ((key :: data).map (·.name)).Nodup) (hkey : key.name = Value.keyColumn)
    (htype : key.type = .integer) (hisKey : key.isKey = true)
    (hdata : ∀ c ∈ data, c.isKey = false) : defect? name (key :: data) = none := by
  have hrepeated : repeated? [] ((key :: data).map (·.name)) = none :=
    repeated?_eq_none hnodup fun _ _ => List.not_mem_nil
  have hany : data.any (·.isKey) = false :=
    List.any_eq_false.mpr fun c hc => by rw [hdata c hc]; exact Bool.false_ne_true
  rw [defect?, if_neg hname, hrepeated]
  dsimp only
  rw [if_neg (not_not_intro hkey), if_neg (by simp [htype, hisKey]), hany]
  rfl

/-- The lists of columns that a table can be made of. -/
structure WellFormed (name : String) (columns : List Column) : Prop where
  named : name ≠ ""
  keyed : columns.countP (·.name = Value.keyColumn) = 1
  integer : ∀ c ∈ columns, c.name = Value.keyColumn → c.type = .integer
  distinct : (columns.map (·.name)).Nodup
  unclaimed : ∀ c ∈ columns, c.name ≠ Value.keyColumn → c.isKey = false

/-- The columns with the key in front of the others, which keep their order. -/
def normal (key : Column) (columns : List Column) : List Column :=
  { key with isKey := true, isUnique := false } :: columns.filter (·.name ≠ Value.keyColumn)

theorem build_of_filter {key : Column}
    (hkey : columns.filter (·.name = Value.keyColumn) = [key]) (htype : key.type = .integer) :
    build name columns = ofColumns name (normal key columns) := by
  rw [build, hkey]
  dsimp only
  rw [if_pos htype]
  rfl

/-- Every success of building goes through a single integer key. -/
theorem filter_of_build {s : Schema} (h : build name columns = .ok s) :
    ∃ key, columns.filter (·.name = Value.keyColumn) = [key] ∧ key.type = .integer ∧
      ofColumns name (normal key columns) = .ok s := by
  unfold build at h
  split at h
  · rename_i key hkey
    split at h
    · rename_i htype
      exact ⟨key, hkey, htype, h⟩
    · cases h
  · cases h

section Normal

variable {key : Column} (hkey : columns.filter (·.name = Value.keyColumn) = [key])
include hkey

theorem mem_of_filter_eq : key ∈ columns ∧ key.name = Value.keyColumn := by
  have hmem : key ∈ columns.filter (·.name = Value.keyColumn) :=
    hkey ▸ List.mem_singleton_self key
  rw [List.mem_filter, decide_eq_true_iff] at hmem
  exact hmem

theorem eq_of_filter_eq {c : Column} (hc : c ∈ columns) (hname : c.name = Value.keyColumn) :
    c = key := by
  have hmem : c ∈ columns.filter (·.name = Value.keyColumn) :=
    List.mem_filter.mpr ⟨hc, decide_eq_true hname⟩
  rw [hkey] at hmem
  exact List.mem_singleton.mp hmem

/-- Moving the key to the front loses no name and doubles none. -/
theorem perm_normal : ((normal key columns).map (·.name)).Perm (columns.map (·.name)) := by
  have hparts := List.filter_append_perm (fun c : Column => decide (c.name = Value.keyColumn))
    columns
  rw [hkey] at hparts
  have hother : columns.filter (fun c => !decide (c.name = Value.keyColumn)) =
      columns.filter (fun c => c.name ≠ Value.keyColumn) := by
    simp only [decide_not, ne_eq]
  rw [hother] at hparts
  exact hparts.map (·.name)

theorem normal_sound_iff (htype : key.type = .integer) :
    defect? name (normal key columns) = none ↔ WellFormed name columns := by
  constructor
  · intro h
    refine ⟨name_ne_of_defect? h, ?_, fun c hc hname => ?_, ?_, fun c hc hname => ?_⟩
    · rw [List.countP_eq_length_filter, hkey]
      rfl
    · rw [eq_of_filter_eq hkey hc hname]
      exact htype
    · exact (perm_normal hkey).nodup_iff.mp (rules_of_defect? h).1
    · exact not_isKey_of_defect? h (List.mem_filter.mpr ⟨hc, decide_eq_true hname⟩)
  · intro h
    refine defect?_cons_eq_none h.named ((perm_normal hkey).nodup_iff.mpr h.distinct)
      (mem_of_filter_eq hkey).2 htype rfl fun c hc => ?_
    obtain ⟨hmem, hname⟩ := List.mem_filter.mp hc
    exact h.unclaimed c hmem (of_decide_eq_true hname)

end Normal

/-- A well-formed list has its one key, and it is an integer column. -/
theorem WellFormed.exists_key (h : WellFormed name columns) :
    ∃ key, columns.filter (·.name = Value.keyColumn) = [key] ∧ key.type = .integer := by
  have hcount := h.keyed
  rw [List.countP_eq_length_filter, List.length_eq_one_iff] at hcount
  obtain ⟨key, hkey⟩ := hcount
  obtain ⟨hmem, hname⟩ := mem_of_filter_eq hkey
  exact ⟨key, hkey, h.integer key hmem hname⟩

theorem WellFormed.build_ok (h : WellFormed name columns) : ∃ s, build name columns = .ok s := by
  obtain ⟨key, hkey, htype⟩ := h.exists_key
  have hsound := (normal_sound_iff hkey htype).mpr h
  refine ⟨⟨name, normal key columns, hsound⟩, ?_⟩
  rw [build_of_filter hkey htype]
  exact ofColumns_self ⟨name, normal key columns, hsound⟩

theorem wellFormed_of_build {s : Schema} (h : build name columns = .ok s) :
    WellFormed name columns := by
  obtain ⟨key, hkey, htype, hs⟩ := filter_of_build h
  obtain ⟨hname, hcolumns⟩ := ofColumns_eq_ok hs
  refine (normal_sound_iff hkey htype).mp ?_
  rw [← hname, ← hcolumns]
  exact s.sound

/-- Building only ever fails with an error of the schema. -/
theorem build_error {e : EngineError} (h : build name columns = .error e) :
    ∃ defect, e = .schema defect := by
  unfold build at h
  split at h
  · split at h
    · unfold ofColumns at h
      split at h <;> cases h
      exact ⟨_, rfl⟩
    · cases h
      exact ⟨_, rfl⟩
  · cases h
    exact ⟨_, rfl⟩

theorem name_of_column? {s : Schema} {n : String} {c : Column} (h : s.column? n = some c) :
    c.name = n := by
  unfold column? at h
  exact of_decide_eq_true (List.find?_some (p := fun c : Column => decide (c.name = n)) h)

/-- The lookup by name answers with the column of that name, and with nothing for any other name. -/
theorem column?_eq_some_iff (s : Schema) (n : String) (c : Column) :
    s.column? n = some c ↔ c ∈ s.columns ∧ c.name = n := by
  constructor
  · intro h
    exact ⟨s.mem_of_column? h, name_of_column? h⟩
  · rintro ⟨hc, rfl⟩
    obtain ⟨found, hfound⟩ : ∃ found, s.column? c.name = some found :=
      Option.isSome_iff_exists.mp (List.find?_isSome.mpr ⟨c, hc, decide_eq_true rfl⟩)
    have hsame : found = c :=
      List.inj_on_of_nodup_map s.nodup_columnNames (s.mem_of_column? hfound) hc
        (name_of_column? hfound)
    rw [hfound, hsame]

/-- The columns with a uniqueness index are those behind the key that are marked. -/
theorem uniqueColumns_of_normal {s : Schema} {key : Column} (h : s.columns = normal key columns) :
    s.uniqueColumns = columns.filter fun c => c.name ≠ Value.keyColumn ∧ c.isUnique := by
  have hdata : s.dataColumns = columns.filter (·.name ≠ Value.keyColumn) :=
    (key_eq_of_columns h).2
  have hunique : ∀ c ∈ s.dataColumns, c.hasUniqueIndex = c.isUnique := by
    intro c hc
    rw [Column.hasUniqueIndex, isKey_of_data hc, Bool.not_false, Bool.and_true]
  have hhead : s.uniqueColumns = s.dataColumns.filter (·.hasUniqueIndex) := by
    rw [uniqueColumns, ← s.key_cons_dataColumns]
    refine List.filter_cons_of_neg ?_
    rw [Column.hasUniqueIndex, s.key_rules.2.2, Bool.not_true, Bool.and_false]
    exact Bool.false_ne_true
  rw [hhead, List.filter_congr hunique, hdata, List.filter_filter]
  refine List.filter_congr fun c _ => ?_
  rw [Bool.and_comm, Bool.decide_and, Bool.decide_eq_true]

/-- A normal list is its own normal list. -/
theorem build_normal {s : Schema} {key : Column} (hname : key.name = Value.keyColumn)
    (h : s.columns = normal key columns) : build s.name s.columns = .ok s := by
  have hothers : ∀ c ∈ columns.filter (·.name ≠ Value.keyColumn),
      c.name ≠ Value.keyColumn :=
    fun c hc => of_decide_eq_true (List.mem_filter.mp hc).2
  have hkey : s.columns.filter (·.name = Value.keyColumn) =
      [{ key with isKey := true, isUnique := false }] := by
    rw [h, normal, List.filter_cons_of_pos (by simp [hname])]
    refine congrArg _ (List.filter_eq_nil_iff.mpr fun c hc => ?_)
    exact mt of_decide_eq_true (hothers c hc)
  have hdata : s.columns.filter (·.name ≠ Value.keyColumn) =
      columns.filter (·.name ≠ Value.keyColumn) := by
    rw [h, normal, List.filter_cons_of_neg (by simp [hname])]
    exact List.filter_eq_self.mpr fun c hc => decide_eq_true (hothers c hc)
  have hagain : normal { key with isKey := true, isUnique := false } s.columns = s.columns := by
    rw [normal, hdata, h]
    rfl
  have htype : key.type = .integer := by
    rw [← s.key_type, (key_eq_of_columns h).1]
  rw [build_of_filter hkey htype, hagain]
  exact ofColumns_self s

/-- Building succeeds exactly on the well-formed lists and refuses every other with an error of the
schema.  The schema it makes has the key first, marked as the key and not as unique, then the other
columns as they were given; its unique columns are the marked ones among those, every column is
found by its name, and its own columns build it again. -/
theorem build_iff_wellFormed (name : String) (columns : List Column) :
    ((∃ s, build name columns = .ok s) ↔ WellFormed name columns) ∧
    (∀ e, build name columns = .error e → ∃ defect, e = .schema defect) ∧
    ∀ s, build name columns = .ok s →
      s.name = name ∧
      (∃ key ∈ columns, key.name = Value.keyColumn ∧
        s.columns = { key with isKey := true, isUnique := false } ::
          columns.filter (·.name ≠ Value.keyColumn)) ∧
      s.uniqueColumns = columns.filter (fun c => c.name ≠ Value.keyColumn ∧ c.isUnique) ∧
      (∀ n c, s.column? n = some c ↔ c ∈ s.columns ∧ c.name = n) ∧
      build s.name s.columns = .ok s := by
  refine ⟨⟨fun ⟨s, hs⟩ => wellFormed_of_build hs, fun h => h.build_ok⟩,
    fun e he => build_error he, fun s hs => ?_⟩
  obtain ⟨key, hkey, -, hnormal⟩ := filter_of_build hs
  obtain ⟨hmem, hname⟩ := mem_of_filter_eq hkey
  obtain ⟨hsname, hcolumns⟩ := ofColumns_eq_ok hnormal
  exact ⟨hsname, ⟨key, hmem, hname, hcolumns⟩, uniqueColumns_of_normal hcolumns,
    column?_eq_some_iff s, build_normal hname hcolumns⟩

/-- A key that is given between the other columns and marked unique. -/
theorem build_accounts : ∃ s, build "accounts" [⟨"owner", .text, false, true⟩,
      ⟨"id", .integer, false, true⟩, ⟨"total", .integer, false, false⟩] = .ok s ∧
    s.columns = [⟨"id", .integer, true, false⟩, ⟨"owner", .text, false, true⟩,
      ⟨"total", .integer, false, false⟩] ∧
    s.uniqueColumns = [⟨"owner", .text, false, true⟩] ∧
    s.column? "total" = some ⟨"total", .integer, false, false⟩ ∧
    build "accounts" s.columns = .ok s := by
  obtain ⟨hiff, -, hbuilt⟩ := build_iff_wellFormed "accounts"
    [⟨"owner", .text, false, true⟩,
    ⟨"id", .integer, false, true⟩, ⟨"total", .integer, false, false⟩]
  obtain ⟨s, hs⟩ := hiff.mpr ⟨by decide, by decide, by decide, by decide, by decide⟩
  obtain ⟨hname, ⟨key, hkey, hid, hcolumns⟩, hunique, hfind, hself⟩ := hbuilt s hs
  have hlist : s.columns = [⟨"id", .integer, true, false⟩, ⟨"owner", .text, false, true⟩,
      ⟨"total", .integer, false, false⟩] := by
    rw [hcolumns]
    simp only [List.mem_cons, List.not_mem_nil, or_false] at hkey
    rcases hkey with rfl | rfl | rfl
    · exact absurd hid (by decide)
    · decide
    · exact absurd hid (by decide)
  refine ⟨s, hs, hlist, hunique.trans (by decide), (hfind _ _).mpr ⟨?_, rfl⟩,
    hname ▸ hself⟩
  rw [hlist]
  decide

end Schema
end Tabulary
