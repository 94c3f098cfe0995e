import Tabulary.Proofs.Execution
import Tabulary.Proofs.Operator.Snapshot

/-!
Two ways to the row of a key: through the index, and by going through all rows.  Main statement: in
a store of any past they come to the same rows, so a query for a key gives the rows of the table
that hold it (`lookup_eq_filter`).
-/

namespace Tabulary

/-- The rows of a table that hold a key, as a query shows them. -/
def Memory.Table.withKey (t : Memory.Table) (k : Int) : List ResultRow :=
  (t.rows.filter fun r => r.held Value.keyColumn = .int k).map (ResultRow.ofRow t.schema false)

namespace Plan

variable {m : Memory.Tables} {table : String} {t : Memory.Table}

theorem relation_filter_key (ht : m.lookup table = some t) (k : Int) :
    (filter (scan table false) Value.keyColumn (.int k)).relation m = t.withKey k :=
  relation_filter ht (t.schema.key_name ▸ List.mem_map_of_mem t.schema.key_mem) (.int k)

end Plan

namespace Database

variable {I : Memory.Tables → Tables × World → Prop} {m : Memory.Tables}
  {d : Database} {w : World} {table : String} {t : Memory.Table}

/-- A query shows the rows of its plan. -/
theorem run_select (hI : Tables.Serving I) (h : I m (d.tables, w)) (ht : m.lookup table = some t)
    {where? : Option Comparison} {plan : Plan} (hplan : planOf t.schema table where? = .ok plan)
    (hp : plan.Sound m) :
    ∃ y, (select table where?).run (d, w) =
    (.ok (.query t.schema.columnNames (plan.relation m)), y) := by
  obtain ⟨st, hget, hschema⟩ := hI.run_get h ht
  obtain ⟨y, hrun, -⟩ := plan.run_rows hI h hp
  have hschemaOf : (schemaOf table).run (d, w) = (.ok t.schema, (d, w)) := by
    unfold schemaOf
    rw [Attempt.run_bind_of_ok (run_onTables hget), hschema]
    rfl
  unfold select
  rw [Attempt.run_bind_of_ok hschemaOf, hplan, Attempt.run_bind_of_ok (Attempt.run_ofExcept _ _),
    Attempt.run_bind_of_ok (run_onTables hrun)]
  exact ⟨_, rfl⟩

end Database

section

variable {m : Memory.Tables} {ts : Tables} {w : World} {table : String} {t : Memory.Table}

/-- In a store of any past, looking up a key gives those rows of a whole scan that hold the key,
just as filtering the scan does; and so does a query whose condition is that the key column holds
it. -/
theorem Plan.lookup_eq_filter (h : Tables.Reached m (ts, w)) (ht : m.lookup table = some t)
    (k : Int) :
    (∃ y, (scan table false).rows.run (ts, w) =
      (.ok (t.rows.map (ResultRow.ofRow t.schema false)), y)) ∧
    (∃ y, (lookup table (.int k)).rows.run (ts, w) = (.ok (t.withKey k), y)) ∧
    (∃ y, (filter (scan table false) Value.keyColumn (.int k)).rows.run (ts, w) =
      (.ok (t.withKey k), y)) ∧
    ∀ (d : Database) (c : Comparison), d.tables = ts →
      Database.resolve t.schema c = .ok (t.schema.key, .int k) →
      ∃ y, (Database.select table (some c)).run (d, w) =
        (.ok (.query t.schema.columnNames (t.withKey k)), y) := by
  have hin := h.inUse.1
  obtain ⟨st, -, hholds⟩ := hin.exists_holds ht
  have hlookup : (lookup table (.int k)).relation m = t.withKey k :=
    relation_lookup ht (fun r hr => hholds.fits hr) hholds.distinct k
  have hscan : (scan table false).relation m = t.rows.map (ResultRow.ofRow t.schema false) := by
    rw [relation, ht]
    rfl
  have hthere : (m.lookup table).isSome := ht ▸ rfl
  have hrows {p : Plan} (hp : p.Sound m) : ∃ y, p.rows.run (ts, w) = (.ok (p.relation m), y) := by
    obtain ⟨y, hrun, -⟩ := run_rows Tables.serving_inUse hin hp
    exact ⟨y, hrun⟩
  refine ⟨hscan ▸ hrows hthere, hlookup ▸ hrows hthere, relation_filter_key ht k ▸
    hrows hthere, ?_⟩
  rintro d c rfl hresolve
  have hplan : Database.planOf t.schema table (some c) = .ok (lookup table (.int k)) := by
    rw [Database.planOf_some, hresolve]
    simp only [Except.map, t.schema.key_rules.2.2, if_true]
  exact hlookup ▸ Database.run_select Tables.serving_inUse hin ht hplan hthere

end

namespace Sample

/-- The people after the errands. -/
def settled : Memory.Table := ⟨people, [person 2 "ann" 5, person 1 "bo" 7]⟩

def first : Comparison := ⟨⟨none, "id"⟩, ⟨"1", false⟩⟩

end Sample

theorem Plan.lookup_eq_filter_errands :
    ∃ ts w, Tables.Reached [("people", Sample.settled)] (ts, w) ∧
      [("people", Sample.settled)].lookup "people" = some Sample.settled ∧
      (∃ y, (lookup "people" (.int 1)).rows.run (ts, w) =
        (.ok [ResultRow.ofRow Sample.people false (Sample.person 1 "bo" 7)], y)) ∧
      (∃ y, (filter (scan "people" false) Value.keyColumn (.int 1)).rows.run (ts, w) =
        (.ok [ResultRow.ofRow Sample.people false (Sample.person 1 "bo" 7)], y)) ∧
      ∃ y, (Database.select "people" (some Sample.first)).run (⟨"db", [], ts, 0⟩, w) =
        (.ok (.query Sample.people.columnNames
          [ResultRow.ofRow Sample.people false (Sample.person 1 "bo" 7)]), y) := by
  obtain ⟨st, w₁, -, hempty⟩ :=
    Tables.exists_reached Sample.people Sample.vacant (Files.sane_empty "/srv/") "people"
  obtain ⟨⟨ts, w⟩, hreached⟩ := hempty.exists_asked "people" Sample.errands
  have hm : Sample.errands.foldl (fun m op => (Memory.Tables.ask "people" op m).2)
      [("people", ⟨Sample.people, []⟩)] = [("people", Sample.settled)] := by decide
  rw [hm] at hreached
  have ht : [("people", Sample.settled)].lookup "people" = some Sample.settled := rfl
  obtain ⟨-, hlookup, hfilter, hselect⟩ := lookup_eq_filter hreached ht 1
  exact ⟨ts, w, hreached, ht, hlookup, hfilter, hselect _ Sample.first rfl (by decide)⟩

end Tabulary
