import Tabulary.Proofs.Catalog.Query
import Tabulary.Proofs.Operator.Drain

/-!
What a plan says of the rows of some tables, whichever way its rows are fetched.  A scan is all rows
of its table, a lookup the row of its key, a filter those rows of its child that hold a value, and a
join the pairs of rows of its sides that hold the same value.

An operator that is half way through has some of these rows still to deliver.  Taking the next row
takes the first of them, and closing the operator gives them up.
-/

namespace Tabulary

namespace ResultRow

variable {r : ResultRow} {column : String}

/-- The value under the first column of a name. -/
def under? (r : ResultRow) (column : String) :
    Option Value := (r.columns.zip r.values).lookup column

/-- What a row holds in a column: `null` without the column. -/
def held (r : ResultRow) (column : String) : Value := (r.under? column).getD .null

/-- Every column has a value. -/
def Full (r : ResultRow) : Prop := r.values.length = r.columns.length

theorem full_ofRow (s : Schema) (qualify : Bool) (x : Row) : (ofRow s qualify x).Full := by
  rw [ofRow_eq, Full, List.length_map, List.length_map]

theorem Full.append {l : ResultRow} (hl : l.Full) (hr : r.Full) : (l.append r).Full := by
  unfold Full ResultRow.append at *
  rw [List.length_append, List.length_append, hl, hr]

theorem columns_ofRow (s : Schema) (qualify : Bool) (x : Row) :
    (ofRow s qualify x).columns = s.columnNames.map (label s qualify) := by
  rw [ofRow_eq]

private theorem lookup_zip (columns : List String) (values : List Value)
    (h : values.length = columns.length) (column : String) :
    (columns.zip values).lookup column = (columns.findIdx? (· = column)).bind (values[·]?) := by
  induction columns generalizing values with
  | nil => rfl
  | cons c columns ih =>
    cases values with
    | nil => cases h
    | cons v values =>
      rw [List.zip_cons_cons, Keyed.lookup_cons_eq, List.findIdx?_cons]
      by_cases hc : column = c
      · subst hc
        simp
      · rw [if_neg (by simpa using hc), if_neg (by simpa using Ne.symm hc),
          ih values (Nat.succ.inj h)]
        cases columns.findIdx? (· = column) <;> rfl

/-- A row with a value in every column gives what it has under the first column of a name. -/
theorem Full.get_eq (h : r.Full) (column : String) :
    r.get column = match r.under? column with
      | some v => .ok v
      | none => .error (.noResultColumn column) := by
  unfold get under?
  rw [lookup_zip _ _ h]
  cases hfind : r.columns.findIdx? (· = column) with
  | none => rfl
  | some i =>
    obtain ⟨hi, -⟩ := List.findIdx?_eq_some_iff_getElem.mp hfind
    have hv : r.values[i]? = some (r.values.get ⟨i, h ▸ hi⟩) := List.getElem?_eq_getElem _
    simp only [Option.bind_some, hv]

theorem Full.matches_eq (h : r.Full) (column : String) (value : Value) :
    Cursor.matches? r column value = .ok (decide (r.held column = value)) := by
  unfold Cursor.matches? getOr held
  rw [h.get_eq]
  cases r.under? column <;> rfl

/-- There is a value under each column. -/
theorem Full.under?_eq (h : r.Full) (hc : column ∈ r.columns) :
    r.under? column = some (r.held column) := by
  unfold held under?
  rw [lookup_zip _ _ h]
  cases hfind : r.columns.findIdx? (· = column) with
  | none => exact absurd rfl (of_decide_eq_false (List.findIdx?_eq_none_iff.mp hfind _ hc))
  | some i =>
    obtain ⟨hi, -⟩ := List.findIdx?_eq_some_iff_getElem.mp hfind
    have hv : r.values[i]? = some (r.values.get ⟨i, h ▸ hi⟩) := List.getElem?_eq_getElem _
    simp only [Option.bind_some, hv, Option.getD_some]

theorem Full.get_eq_held (h : r.Full) (hc : column ∈ r.columns) :
    r.get column = .ok (r.held column) := by
  rw [h.get_eq, h.under?_eq hc]

end ResultRow

/-! ## Plans -/

namespace Plan

variable {m m' : Memory.Tables} {p : Plan} {r : ResultRow}

/-- The columns of the rows that a plan delivers. -/
def columns (m : Memory.Tables) : Plan → List String
  | scan table qualify =>
    (m.lookup table).elim [] fun t => t.schema.columnNames.map (ResultRow.label t.schema qualify)
  | lookup table _ => (m.lookup table).elim [] fun t => t.schema.columnNames
  | filter child _ _ => child.columns m
  | join left right _ _ => left.columns m ++ right.columns m

/-- The rows that a plan stands for.  A row without the column that a filter is about holds `null`
there, and values of different types are different. -/
def relation (m : Memory.Tables) : Plan → List ResultRow
  | scan table qualify =>
    (m.lookup table).elim [] fun t => t.rows.map (ResultRow.ofRow t.schema qualify)
  | lookup table id =>
    (m.lookup table).elim [] fun t => ((t.rows.find id).map (ResultRow.ofRow t.schema false)).toList
  | filter child column value =>
    (child.relation m).filter fun r => (r.under? column).getD .null = value
  | join left right leftColumn rightColumn =>
    (left.relation m).flatMap fun l =>
      ((right.relation m).filter fun r => l.under? leftColumn = r.under? rightColumn).map l.append

/-- The tables that a plan names are there, and each side of a join has the column that it is joined
on. -/
def Sound (m : Memory.Tables) : Plan → Prop
  | scan table _ => (m.lookup table).isSome
  | lookup table _ => (m.lookup table).isSome
  | filter child _ _ => child.Sound m
  | join left right leftColumn rightColumn =>
    left.Sound m ∧ right.Sound m ∧ leftColumn ∈ left.columns m ∧
      rightColumn ∈ right.columns m

instance Sound.decidable (m : Memory.Tables) : DecidablePred (Sound m)
  | scan table _ => inferInstanceAs (Decidable (m.lookup table).isSome)
  | lookup table _ => inferInstanceAs (Decidable (m.lookup table).isSome)
  | filter child _ _ => decidable m child
  | join left right leftColumn rightColumn =>
    have := decidable m left
    have := decidable m right
    inferInstanceAs (Decidable (left.Sound m ∧ right.Sound m ∧ leftColumn ∈ left.columns m ∧
      rightColumn ∈ right.columns m))

/-- All rows of a plan have its columns, with a value in each. -/
theorem columns_of_mem (h : r ∈ p.relation m) : r.columns = p.columns m ∧ r.Full := by
  induction p generalizing r with
  | scan table qualify =>
    unfold relation at h
    unfold columns
    generalize m.lookup table = found at h ⊢
    cases found with
    | none => cases h
    | some t =>
      obtain ⟨x, -, rfl⟩ := List.mem_map.mp h
      exact ⟨ResultRow.columns_ofRow _ _ _, ResultRow.full_ofRow _ _ _⟩
  | lookup table id =>
    unfold relation at h
    unfold columns
    generalize m.lookup table = found at h ⊢
    cases found with
    | none => cases h
    | some t =>
      obtain ⟨x, -, rfl⟩ := Option.map_eq_some_iff.mp (Option.mem_toList.mp h)
      exact ⟨rfl, ResultRow.full_ofRow _ _ _⟩
  | filter child column value ih => exact ih (List.mem_filter.mp h).1
  | join left right leftColumn rightColumn ihl ihr =>
    obtain ⟨l, hl, hpair⟩ := List.mem_flatMap.mp h
    obtain ⟨x, hx, rfl⟩ := List.mem_map.mp hpair
    obtain ⟨hlc, hlf⟩ := ihl hl
    obtain ⟨hxc, hxf⟩ := ihr (List.mem_filter.mp hx).1
    exact ⟨congrArg₂ (· ++ ·) hlc hxc, hlf.append hxf⟩

section congr

variable (h : ∀ table, (m'.lookup table).map (·.schema) = (m.lookup table).map (·.schema))

include h

/-- The columns of a plan are a matter of the schemas. -/
theorem columns_congr (p : Plan) : p.columns m' = p.columns m := by
  induction p with
  | scan table qualify =>
    have ht := h table
    unfold columns
    cases hm : m.lookup table <;> cases hm' : m'.lookup table <;> simp_all
  | lookup table id =>
    have ht := h table
    unfold columns
    cases hm : m.lookup table <;> cases hm' : m'.lookup table <;> simp_all
  | filter child column value ih => exact ih
  | join left right leftColumn rightColumn ihl ihr => exact congrArg₂ (· ++ ·) ihl ihr

theorem Sound.congr (hp : p.Sound m) : p.Sound m' := by
  have hthere (table : String) (hs : (m.lookup table).isSome) : (m'.lookup table).isSome := by
    rw [← Option.isSome_map (f := fun t : Memory.Table => t.schema), h table, Option.isSome_map]
    exact hs
  induction p with
  | scan table qualify => exact hthere table hp
  | lookup table id => exact hthere table hp
  | filter child column value ih => exact ih hp
  | join left right leftColumn rightColumn ihl ihr =>
    obtain ⟨hl, hr, hlc, hrc⟩ := hp
    refine ⟨ihl hl, ihr hr, ?_, ?_⟩
    · rw [columns_congr h]
      exact hlc
    · rw [columns_congr h]
      exact hrc

end congr

end Plan

/-! ## Operators half way through -/

namespace Cursor

variable {c c' : Cursor} {r : ResultRow} {rows : List ResultRow}

/-- The plan that an operator was made for. -/
def plan : Cursor → Plan
  | scan table qualify _ => .scan table qualify
  | lookup table id _ => .lookup table id
  | filter child column value => .filter child.plan column value
  | join left right leftColumn rightColumn _ _ _ =>
    .join left.plan right.plan leftColumn rightColumn

@[simp] theorem plan_ofPlan (p : Plan) : (ofPlan p).plan = p := by
  induction p with
  | scan table qualify => rfl
  | lookup table id => rfl
  | filter child column value ih => rw [ofPlan, plan, ih]
  | join left right leftColumn rightColumn ihl ihr => rw [ofPlan, plan, ihl, ihr]

@[simp] theorem plan_close (c : Cursor) : c.close.plan = c.plan := by
  induction c with
  | scan table qualify pending => rfl
  | lookup table id pending => rfl
  | filter child column value ih => rw [close, plan, plan, ih]
  | join left right leftColumn rightColumn inner outer waiting ihl ihr =>
    rw [close, plan, plan, ihl]

/-- Wherever a step leads, the operator there is one for this plan. -/
def Progress.For (p : Plan) : Progress → Prop
  | .row _ c => c.plan = p
  | .skip c => c.plan = p
  | .done => True
  | .failed _ c => c.plan = p

/-- A step changes what is yet to be delivered, and not the plan. -/
theorem plan_step (c : Cursor) : c.step.For c.plan := by
  induction c with
  | scan table qualify pending => cases pending <;> trivial
  | lookup table id pending => cases pending <;> trivial
  | filter child column value ih =>
    have hkept {child' : Cursor} (h : child'.plan = child.plan) :
        (filter child' column value).plan = (filter child column value).plan :=
      congrArg (fun p => Plan.filter p column value) h
    simp only [step]
    generalize child.step = progress at ih
    cases progress with
    | done => trivial
    | skip child' => exact hkept ih
    | failed e child' => exact hkept ih
    | row r child' =>
      dsimp only
      split
      · exact hkept ih
      · exact hkept ih
      · exact hkept ih
  | join left right leftColumn rightColumn inner outer waiting ihl ihr =>
    cases outer with
    | none =>
      have hkept {left' : Cursor} (h : left'.plan = left.plan) :
          Plan.join left'.plan right.plan leftColumn rightColumn =
            .join left.plan right.plan leftColumn rightColumn :=
        congrArg (fun p => Plan.join p right.plan leftColumn rightColumn) h
      simp only [step]
      generalize left.step = progress at ihl
      cases progress with
      | done => trivial
      | skip left' => exact hkept ihl
      | failed e left' => exact hkept ihl
      | row r left' => exact hkept ihl
    | some outer =>
      simp only [step]
      split
      · rfl
      · split
        · rfl
        · split
          · rfl
          · split
            · rfl
            · rfl

theorem plan_of_row (h : c.step = .row r c') : c'.plan = c.plan := by
  have hplan := plan_step c
  rwa [h] at hplan

theorem plan_of_skip (h : c.step = .skip c') : c'.plan = c.plan := by
  have hplan := plan_step c
  rwa [h] at hplan

theorem next_of_row (h : c.step = .row r c') : c.next = (.ok (some r), c') := by
  rw [next]
  split <;> simp_all

theorem next_of_skip (h : c.step = .skip c') : c.next = c'.next := by
  rw [next]
  split <;> simp_all

theorem next_of_done (h : c.step = .done) : c.next = (.ok none, c) := by
  rw [next]
  split <;> simp_all

/-- The next row is the first of those that are yet to be delivered; once there are none left there
is no next row, however often it is asked for. -/
theorem next_of_drain (h : c.drain = .ok rows) :
    ∃ c', c.next = (.ok rows.head?, c') ∧ c'.drain = .ok rows.tail ∧ c'.plan = c.plan := by
  induction c using drain.induct generalizing rows with
  | case1 c r c' hstep _ =>
    obtain ⟨rest, hrest, rfl⟩ := drain_eq_ok_of_row hstep h
    exact ⟨c', next_of_row hstep, hrest, plan_of_row hstep⟩
  | case2 c c' hstep ih =>
    rw [drain_of_skip hstep] at h
    obtain ⟨c'', hnext, hdrain, hplan⟩ := ih h
    exact ⟨c'', (next_of_skip hstep).trans hnext, hdrain, hplan.trans (plan_of_skip hstep)⟩
  | case3 c hstep =>
    rw [drain_of_done hstep, Except.ok.injEq] at h
    obtain rfl := h
    exact ⟨c, next_of_done hstep, drain_of_done hstep, rfl⟩
  | case4 c e c' hstep =>
    rw [drain_of_failed hstep] at h
    cases h

theorem step_close (c : Cursor) : c.close.step = .done := by
  induction c with
  | scan table qualify pending => rfl
  | lookup table id pending => rfl
  | filter child column value ih => simp only [close, step, ih]
  | join left right leftColumn rightColumn inner outer waiting ihl ihr =>
    simp only [close, step, ihl]

/-- A closed operator has nothing to deliver. -/
theorem drain_close (c : Cursor) : c.close.drain = .ok [] := drain_of_done (step_close c)

theorem close_ofPlan (p : Plan) : (ofPlan p).close = ofPlan p := by
  induction p with
  | scan table qualify => rfl
  | lookup table id => rfl
  | filter child column value ih => rw [ofPlan, close, ih]
  | join left right leftColumn rightColumn ihl ihr => rw [ofPlan, close, ihl]

end Cursor
end Tabulary
