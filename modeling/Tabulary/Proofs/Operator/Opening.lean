import Tabulary.Proofs.Catalog.Table
import Tabulary.Proofs.Operator.Relation

/-!
Opening operators.  Where the stores answer as some tables say, an operator that has just been
opened has the rows of its plan to deliver, as the tables have them now.
-/

namespace Tabulary

open Record

namespace Tables

variable {I : Memory.Tables → Tables × World → Prop} {ts : Tables} {w : World}
  {m : Memory.Tables} {table : String} {t : Memory.Table}

/-- What holds of stores while they show some tables, and goes on holding when they are read. -/
structure Serving (I : Memory.Tables → Tables × World → Prop) : Prop where
  get {ts : Tables} {w : World} {m : Memory.Tables} {table : String} {t : Memory.Table}
    (h : I m (ts, w))
    (ht : m.lookup table = some t) : ∃ st, ts.lookup table = some st ∧ st.schema = t.schema
  read {ts : Tables} {w : World} {m : Memory.Tables} {table : String} {t : Memory.Table}
    (h : I m (ts, w)) (ht : m.lookup table = some t) {α : Type} {x : Work Store α}
    {g : Rows → α}
    (hx : ∀ {path st h w records}, Store.Opened t.schema path st h w.files records →
      Store.Ends t.schema path w.files records (x.run (st, w))
        (.ok (g (liveRows records), liveRows records))) :
    ∃ y, (on table x).run (ts, w) = (.ok (g t.rows), y) ∧ I m y

theorem Serving.run_get (hI : Serving I) (h : I m (ts, w)) (ht : m.lookup table = some t) :
    ∃ st, (Tables.get table).run (ts, w) = (.ok st, (ts, w)) ∧ st.schema = t.schema := by
  obtain ⟨st, hst, hschema⟩ := hI.get h ht
  exact ⟨st, Tables.run_get hst, hschema⟩

/-- The tables of a database are such stores. -/
theorem serving_at (directory place : Path) (start : Files) (schemas : List (String × Schema)) :
    Serving (At directory place start schemas) where
  get h ht := by
    obtain ⟨st, hst, hshows⟩ := h.exists_shows ht
    exact ⟨st, hst, hshows.schema_eq⟩
  read h ht _ _ _ hx := h.run_read ht hx

end Tables

namespace Cursor

variable {I : Memory.Tables → Tables × World → Prop} {ts : Tables} {w : World}
  {m : Memory.Tables}

/-- A join of the rows of two plans delivers the rows of the join of the plans. -/
theorem drain_join_relation {p q : Plan} {c c' : Cursor} {leftColumn rightColumn : String}
    (hd : c.drain = .ok (p.relation m)) (hl : leftColumn ∈ p.columns m)
    (hr : rightColumn ∈ q.columns m) :
    (join c c' leftColumn rightColumn (q.relation m) none []).drain =
      .ok ((Plan.join p q leftColumn rightColumn).relation m) := by
  have hleft {r : ResultRow} (hmem : r ∈ p.relation m) : r.Full ∧ leftColumn ∈ r.columns :=
    ⟨(Plan.columns_of_mem hmem).2, (Plan.columns_of_mem hmem).1 ▸ hl⟩
  have hright {r : ResultRow} (hmem : r ∈ q.relation m) : r.Full ∧ rightColumn ∈ r.columns :=
    ⟨(Plan.columns_of_mem hmem).2, (Plan.columns_of_mem hmem).1 ▸ hr⟩
  rw [drain_join hd (fun r hmem => (hleft hmem).1.get_eq_held (hleft hmem).2)
    fun r hmem => (hright hmem).1.get_eq_held (hright hmem).2, Plan.relation]
  refine congrArg Except.ok (List.flatMap_congr fun l hlmem => ?_)
  refine congrArg (List.map _) (List.filter_congr fun r hrmem => ?_)
  rw [(hleft hlmem).1.under?_eq (hleft hlmem).2, (hright hrmem).1.under?_eq (hright hrmem).2,
    Value.typedEq]
  simp

/-- An operator is opened on what the tables hold, whatever it has delivered before. -/
theorem run_openAll (hI : Tables.Serving I) (c : Cursor) (h : I m (ts, w)) (hp : c.plan.Sound m) :
    ∃ c' y, (openAll c).run (ts, w) = (.ok c', y) ∧ I m y ∧ c'.plan = c.plan ∧
      c'.drain = .ok (c.plan.relation m) := by
  induction c generalizing ts w with
  | scan table qualify pending =>
    obtain ⟨t, ht⟩ := Option.isSome_iff_exists.mp (show (m.lookup table).isSome from hp)
    obtain ⟨st, hget, hschema⟩ := hI.run_get h ht
    obtain ⟨y, hrun, hy⟩ := hI.read (g := fun rows => rows) h ht fun ho => ho.selectAll_ends
    refine ⟨.scan table qualify (t.rows.map (ResultRow.ofRow t.schema qualify)), y,
      ?_, hy, rfl, ?_⟩
    · unfold openAll
      rw [Attempt.run_bind_of_ok hget, Attempt.run_bind_of_ok hrun, hschema]
      rfl
    · rw [drain_scan, plan, Plan.relation, ht]
      rfl
  | lookup table id pending =>
    obtain ⟨t, ht⟩ := Option.isSome_iff_exists.mp (show (m.lookup table).isSome from hp)
    obtain ⟨st, hget, hschema⟩ := hI.run_get h ht
    obtain ⟨y, hrun, hy⟩ := hI.read (g := fun rows => rows.find id) h ht fun ho =>
      ho.select_ends id
    refine ⟨.lookup table id ((t.rows.find id).map (ResultRow.ofRow t.schema false)), y, ?_, hy,
      rfl, ?_⟩
    · unfold openAll
      rw [Attempt.run_bind_of_ok hget, Attempt.run_bind_of_ok hrun, hschema]
      rfl
    · rw [drain_lookup, plan, Plan.relation, ht]
      rfl
  | filter child column value ih =>
    obtain ⟨c', y, hrun, hy, hplan, hdrain⟩ := ih h hp
    refine ⟨.filter c' column value, y, ?_, hy, ?_, ?_⟩
    · unfold openAll
      rw [Attempt.run_bind_of_ok hrun]
      rfl
    · rw [plan, plan, hplan]
    · rw [plan, Plan.relation]
      exact drain_filter hdrain fun r hr => (Plan.columns_of_mem hr).2.matches_eq column value
  | join left right leftColumn rightColumn inner outer waiting ihl ihr =>
    obtain ⟨hl, hr, hlc, hrc⟩ := hp
    obtain ⟨right', y₁, hrunr, hy₁, -, hdrainr⟩ := ihr h hr
    obtain ⟨left', y, hrunl, hy, hplan, hdrainl⟩ := ihl hy₁ hl
    refine ⟨join left' right leftColumn rightColumn (right.plan.relation m) none [],
      y, ?_, hy, ?_, drain_join_relation hdrainl hlc hrc⟩
    · unfold openAll
      rw [Attempt.run_bind_of_ok hrunr, hdrainr, Attempt.run_bind_of_ok (Attempt.run_ofExcept _ _),
        Attempt.run_bind_of_ok hrunl]
      rfl
    · rw [plan, plan, hplan]

end Cursor

/-- Running a plan delivers its rows, and leaves the tables as they are. -/
theorem Plan.run_rows {I : Memory.Tables → Tables × World → Prop} (hI : Tables.Serving I)
    {ts : Tables} {w : World} {m : Memory.Tables} (h : I m (ts, w)) {p : Plan} (hp : p.Sound m) :
    ∃ y, p.rows.run (ts, w) = (.ok (p.relation m), y) ∧ I m y := by
  rw [← Cursor.plan_ofPlan p] at hp
  obtain ⟨c, y, hrun, hy, -, hdrain⟩ := Cursor.run_openAll hI (Cursor.ofPlan p) h hp
  rw [Cursor.plan_ofPlan] at hdrain
  refine ⟨y, ?_, hy⟩
  unfold Plan.rows
  rw [Attempt.run_bind_of_ok hrun, hdrain]
  rfl

end Tabulary
