import Tabulary.Proofs.Attempt
import Tabulary.Proofs.Command.Reading

/-!
Tables before columns.  The table before the column that a condition compares is kept, and it is the
only one that a condition can name; what stands before a column that is assigned is dropped.
-/

namespace Tabulary

open Sql

namespace Sql

/-! ## The tables that an expression names -/

mutual

/-- The tables before the columns in an expression, and in a query inside it. -/
def Expr.qualifiers : Expr → List String
  | .column c => (qualifier? c.qualifiers).toList
  | .allOf t => (qualifier? (t.qualifiers ++ [t.name])).toList
  | .dot e _ | .neg e | .bitNot e | .not e | .paren e | .alias e _ | .cast e _ => e.qualifiers
  | .binary _ l r => l.qualifiers ++ r.qualifiers
  | .between e low high => e.qualifiers ++ low.qualifiers ++ high.qualifiers
  | .inside e items => e.qualifiers ++ qualifiersAmong items
  | .insideQuery e q => e.qualifiers ++ q.qualifiers
  | .tuple items | .call _ items | .concat items => qualifiersAmong items
  | .subquery q | .exists q => q.qualifiers
  | .number _ | .text _ | .marked _ _ | .null | .bool _ | .star | .verbatim _ => []

def qualifiersAmong : List Expr → List String
  | [] => []
  | e :: rest => e.qualifiers ++ qualifiersAmong rest

def Query.qualifiers : Query → List String
  | .mk projections source? joins where? _ =>
    let inSource := match source? with
      | some s => s.qualifiers
      | none => []
    let inCondition := match where? with
      | some e => e.qualifiers
      | none => []
    qualifiersAmong projections ++ inSource ++ qualifiersOfJoins joins ++ inCondition
  | .combined _ l r => l.qualifiers ++ r.qualifiers

def Source.qualifiers : Source → List String
  | .table _ _ joins => qualifiersOfJoins joins
  | .query q _ => q.qualifiers
  | .other _ => []

def qualifiersOfJoins : List Join → List String
  | [] => []
  | .mk _ source on? :: rest =>
    let inCondition := match on? with
      | some e => e.qualifiers
      | none => []
    source.qualifiers ++ inCondition ++ qualifiersOfJoins rest

end

variable {e l r : Expr} {table : String} {ref : ColumnRef}

theorem qualifiers_of_columnRef? (h : e.columnRef? = some ref) :
    e.qualifiers = ref.table?.toList := by
  cases e with
  | column c =>
    cases h
    rw [Expr.qualifiers]
  | allOf t =>
    cases h
    rw [Expr.qualifiers]
  | _ => cases h

theorem literal_cases {value : Literal} (h : Command.literal e = .ok value) :
    (∃ s, e = .number s ∧ value = ⟨s, false⟩) ∨
      (∃ s, e = .text s ∧ value = ⟨s, true⟩) ∨
      (∃ s, e = .neg (.number s) ∧ value = ⟨"-" ++ s, false⟩) ∨
        ∃ name, e.columnRef? = some ⟨none, name⟩ ∧ value = ⟨name, false⟩ := by
  unfold Command.literal at h
  split at h
  · exact .inl ⟨_, rfl, (Except.ok.inj h).symm⟩
  · exact .inr (.inl ⟨_, rfl, (Except.ok.inj h).symm⟩)
  · exact .inr (.inr (.inl ⟨_, rfl, (Except.ok.inj h).symm⟩))
  · cases h
  · split at h
    · rename_i hr
      exact .inr (.inr (.inr ⟨_, hr, (Except.ok.inj h).symm⟩))
    · cases h

theorem qualifiers_of_literal {value : Literal} (h : Command.literal e = .ok value) :
    e.qualifiers = [] := by
  rcases literal_cases h with ⟨s, rfl, -⟩ | ⟨s, rfl, -⟩ |
    ⟨s, rfl, -⟩ | ⟨name, hr, -⟩
  · rw [Expr.qualifiers]
  · rw [Expr.qualifiers]
  · rw [Expr.qualifiers, Expr.qualifiers]
  · exact qualifiers_of_columnRef? hr

/-! ## Dropping them -/

/-- A column without what stands before it, if the last of that is this table. -/
def Expr.unqualified (table : String) : Expr → Expr
  | .column c => .column (if qualifier? c.qualifiers = some table then ⟨[], c.name⟩ else c)
  | e => e

/-- A column without whatever stands before it. -/
def Expr.bare : Expr → Expr
  | .column c => .column ⟨[], c.name⟩
  | e => e

/-- An equation without this table before the column that is compared. -/
def Expr.conditionUnqualified (table : String) : Expr → Expr
  | .binary .eq l r =>
    if l.columnRef?.isSome then .binary .eq (l.unqualified table) r
    else .binary .eq l (r.unqualified table)
  | e => e

/-- An assignment without whatever stands before the column. -/
def Expr.assignmentBare : Expr → Expr
  | .binary .eq l r => .binary .eq l.bare r
  | e => e

namespace Statement

/-- The table of a statement about one table, and the condition. -/
def single? : Statement → Option (String × Option Expr)
  | .select (.mk _ (some source) [] where? _) => source.table?.map fun table => (table, where?)
  | .update source _ where? => source.table?.map fun table => (table, where?)
  | .delete (some source) where? => source.table?.map fun table => (table, where?)
  | _ => none

/-- A statement about one table without its name before the column that is compared, and without
anything before the columns that are assigned. -/
def unqualified (table : String) : Statement → Statement
  | .select (.mk projections source? joins where? clauses) =>
    .select (.mk projections source? joins (where?.map (Expr.conditionUnqualified table)) clauses)
  | .update source found where? =>
    .update source (found.map Expr.assignmentBare) (where?.map (Expr.conditionUnqualified table))
  | .delete source? where? => .delete source? (where?.map (Expr.conditionUnqualified table))
  | s => s

end Statement
end Sql

/-- The reference without this table before the column. -/
def ColumnRef.unqualified (table : String) (ref : ColumnRef) : ColumnRef :=
  if ref.table? = some table then ⟨none, ref.name⟩ else ref

def Comparison.unqualified (table : String) (c : Comparison) :
    Comparison := ⟨c.column.unqualified table, c.value⟩

namespace Command

/-- The table of a command on one table, and its condition. -/
def single? : Command → Option (String × Option Comparison)
  | .select table where? => some (table, where?)
  | .update table _ key => some (table, some key)
  | .delete table key => some (table, some key)
  | _ => none

/-- A command on one table without its name before the column that is compared. -/
def unqualified : Command → Command
  | .select table where? => .select table (where?.map (Comparison.unqualified table))
  | .update table assignments key => .update table assignments (key.unqualified table)
  | .delete table key => .delete table (key.unqualified table)
  | c => c

variable {e l r : Expr} {table verb : String} {ref : ColumnRef} {s : Statement}
  {where? : Option Expr} {c : Command}

/-! ## Conditions -/

theorem comparison_of_left (h : l.columnRef? = some ref) :
    comparison (.binary .eq l r) = (literal r).map fun value => ⟨ref, value⟩ := by
  rw [comparison, h]
  cases literal r <;> rfl

theorem comparison_of_right (hl : l.columnRef? = none) (hr : r.columnRef? = some ref) :
    comparison (.binary .eq l r) = (literal l).map fun value => ⟨ref, value⟩ := by
  rw [comparison, hl, hr]
  cases literal l <;> rfl

theorem comparison_of_none (hl : l.columnRef? = none) (hr : r.columnRef? = none) :
    comparison (.binary .eq l r) = refuse .conditionWithoutColumn := by
  rw [comparison, hl, hr]

/-- A condition names no table but the one before the column that it compares. -/
theorem qualifiers_of_comparison {k : Comparison} (h : comparison e = .ok k) :
    e.qualifiers = k.column.table?.toList := by
  unfold comparison at h
  split at h
  · rw [Expr.qualifiers]
    split at h
    · rename_i hl
      obtain ⟨value, hr, hk⟩ := Attempt.of_bind_ok h
      cases hk
      rw [qualifiers_of_columnRef? hl, qualifiers_of_literal hr, List.append_nil]
    · rename_i hr
      obtain ⟨value, hl, hk⟩ := Attempt.of_bind_ok h
      cases hk
      rw [qualifiers_of_literal hl, qualifiers_of_columnRef? hr, List.nil_append]
    · cases h
  · cases h

theorem columnRef?_unqualified (table : String) (e : Expr) :
    (e.unqualified table).columnRef?.map (ColumnRef.unqualified table) =
      e.columnRef?.map (ColumnRef.unqualified table) := by
  cases e with
  | column c =>
    rw [Expr.unqualified]
    split
    · rename_i h
      have hnone : qualifier? [] = none := rfl
      rw [Expr.columnRef?, Expr.columnRef?, hnone, h, Option.map_some, Option.map_some]
      simp [ColumnRef.unqualified]
    · rfl
  | _ => rfl

theorem columnRef?_bare (e : Expr) :
    e.bare.columnRef?.map ColumnRef.name = e.columnRef?.map ColumnRef.name := by
  cases e <;> rfl

/-- Without its own table before the column, a condition is narrowed to the same comparison but for
that. -/
theorem comparison_unqualified (table : String) (e : Expr) :
    (comparison (e.conditionUnqualified table)).map (Comparison.unqualified table) =
      (comparison e).map (Comparison.unqualified table) := by
  unfold Expr.conditionUnqualified
  split
  · rename_i l r
    -- The side that is compared is the same before and after, and the other one is left as it is.
    cases hl : l.columnRef? with
    | some ref =>
      rw [Option.isSome_some, if_pos rfl, comparison_of_left hl]
      have hsame := columnRef?_unqualified table l
      rw [hl] at hsame
      obtain ⟨ref', hl', href⟩ := Option.map_eq_some_iff.mp hsame
      rw [comparison_of_left hl']
      cases literal r with
      | error e => rfl
      | ok value => exact congrArg (fun ref => Except.ok (Comparison.mk ref value)) href
    | none =>
      rw [Option.isSome_none, if_neg Bool.false_ne_true]
      have hsame := columnRef?_unqualified table r
      cases hr : r.columnRef? with
      | none =>
        rw [hr] at hsame
        rw [comparison_of_none hl hr, comparison_of_none hl (Option.map_eq_none_iff.mp hsame)]
      | some ref =>
        rw [hr] at hsame
        obtain ⟨ref', hr', href⟩ := Option.map_eq_some_iff.mp hsame
        rw [comparison_of_right hl hr, comparison_of_right hl hr']
        cases literal l with
        | error e => rfl
        | ok value => exact congrArg (fun ref => Except.ok (Comparison.mk ref value)) href
  · rfl

theorem name_unqualified (table : String) (k : Comparison) :
    (k.unqualified table).column.name = k.column.name := by
  unfold Comparison.unqualified ColumnRef.unqualified
  split <;> rfl

theorem keyComparison_unqualified (table verb : String) (e : Expr) :
    (keyComparison verb (e.conditionUnqualified table)).map (Comparison.unqualified table) =
      (keyComparison verb e).map (Comparison.unqualified table) := by
  have hsame := comparison_unqualified table e
  unfold keyComparison
  generalize comparison (e.conditionUnqualified table) = x at hsame ⊢
  generalize comparison e = y at hsame ⊢
  cases x with
  | error f =>
    cases y with
    | error f' =>
      cases hsame
      rfl
    | ok k' => cases hsame
  | ok k =>
    cases y with
    | error f' => cases hsame
    | ok k' =>
      have hk := Except.ok.inj hsame
      have hname : k.column.name = k'.column.name := by
        rw [← name_unqualified table k, hk, name_unqualified table k']
      show (if k.column.name = Value.keyColumn then pure k else refuse (.conditionOnKey verb)).map
        _ =
        (if k'.column.name = Value.keyColumn then pure k' else refuse (.conditionOnKey verb)).map _
      rw [hname]
      split
      · exact hsame
      · rfl

theorem assignmentBare_eq (e : Expr) :
    (∃ l r, e = .binary .eq l r ∧ e.assignmentBare = .binary .eq l.bare r) ∨
    e.assignmentBare = e := by
  unfold Expr.assignmentBare
  split
  · exact .inl ⟨_, _, rfl, rfl⟩
  · exact .inr rfl

/-- What stands before the columns that are assigned is dropped. -/
theorem assignmentsOf_bare (found : List Expr) :
    assignmentsOf (found.map Expr.assignmentBare) = assignmentsOf found := by
  unfold assignmentsOf
  rw [List.foldlM_map]
  congr 1
  funext done e
  rcases assignmentBare_eq e with ⟨l, r, rfl, hbare⟩ | hbare
  · rw [hbare]
    dsimp only
    have hname := columnRef?_bare l
    cases hl : l.columnRef? with
    | none =>
      rw [hl] at hname
      rw [Option.map_eq_none_iff.mp hname]
    | some ref =>
      rw [hl] at hname
      obtain ⟨ref', hl', hsame⟩ := Option.map_eq_some_iff.mp hname
      rw [hl']
      dsimp only
      rw [hsame]
  · rw [hbare]

/-! ## Statements -/

theorem map_unqualified {x y : Narrowed Comparison} {make : Comparison → Command}
    (h : x.map (Comparison.unqualified table) = y.map (Comparison.unqualified table))
    (hmake : ∀ k, (make k).unqualified = make (k.unqualified table)) :
    (x.map make).map unqualified = (y.map make).map unqualified := by
  have hmap (x : Narrowed Comparison) :
      (x.map make).map unqualified = (x.map (Comparison.unqualified table)).map make := by
    cases x with
    | error f => rfl
    | ok k => exact congrArg Except.ok (hmake k)
  rw [hmap, hmap, h]

/-- A query of one table with its condition narrowed. -/
def selection (table : String) : Option Expr → Narrowed Command
  | none => .ok (.select table none)
  | some e => (comparison e).map fun k => .select table (some k)

/-- Whether a query of one table is refused before its condition is looked at does not depend on the
condition. -/
theorem selectOf_eq (projections : List Expr) (clauses : List (Clause × String)) {source : Source}
    (h : source.table? = some table) : ∃ gate : Narrowed Unit, ∀ where?,
      selectOf (.mk projections (some source) [] where? clauses) = gate >>= fun _ =>
      selection table where? := by
  by_cases hstar : projections = [.star]
  · subst hstar
    unfold selectOf
    dsimp only
    split
    · exact ⟨refuse _, fun _ => rfl⟩
    · refine ⟨.ok (), fun where? => ?_⟩
      rw [firstSource?_some]
      dsimp only [orRefuse, bind, Except.bind]
      rw [h]
      cases where? with
      | none => rfl
      | some e =>
        unfold selection
        dsimp only
        cases comparison e <;> rfl
  · refine ⟨refuse .projection, fun where? => ?_⟩
    unfold selectOf
    split
    · rename_i heq
      cases heq
      exact absurd rfl hstar
    · rfl

theorem updateOf_eq {source : Source} {found : List Expr} (h : source.table? = some table) :
    updateOf source found where? = assignmentsOf found >>= fun assignments =>
      if assignments.isEmpty then refuse .noAssignments
      else orRefuse where? .updateWithoutWhere >>= fun e =>
        (keyComparison "UPDATE" e).map fun key => .update table assignments key := by
  unfold updateOf
  rw [h]
  cases assignmentsOf found with
  | error f => rfl
  | ok assignments =>
    simp only [orRefuse, bind, Except.bind]
    split
    · rfl
    · cases where? with
      | none => rfl
      | some e =>
        dsimp only
        cases keyComparison "UPDATE" e <;> rfl

theorem deleteOf_eq {source : Source} (h : source.table? = some table) :
    deleteOf (some source) where? = orRefuse where? .deleteWithoutWhere >>= fun e =>
      (keyComparison "DELETE" e).map fun key => .delete table key := by
  unfold deleteOf
  rw [Option.bind_some, h]
  cases where? with
  | none => rfl
  | some e =>
    simp only [orRefuse, bind, Except.bind]
    cases keyComparison "DELETE" e <;> rfl

theorem selection_unqualified (table : String) (where? : Option Expr) :
    (selection table (where?.map (Expr.conditionUnqualified table))).map unqualified =
      (selection table where?).map unqualified := by
  cases where? with
  | none => rfl
  | some e => exact map_unqualified (comparison_unqualified table e) fun _ => rfl

/-- A condition that has to be there, and is on the key. -/
theorem key_unqualified {refusal : CommandError} {make : Comparison → Command}
    (hmake : ∀ k, (make k).unqualified = make (k.unqualified table)) :
    (orRefuse (where?.map (Expr.conditionUnqualified table)) refusal >>= fun e =>
      (keyComparison verb e).map make).map unqualified =
    (orRefuse where? refusal >>= fun e => (keyComparison verb e).map make).map unqualified := by
  cases where? with
  | none => rfl
  | some e => exact map_unqualified (keyComparison_unqualified table verb e) hmake

theorem of_single?_select {q : Query} (h : (Statement.select q).single? = some (table, where?)) :
    ∃ projections source clauses,
      q = .mk projections (some source) [] where? clauses ∧ source.table? = some table := by
  unfold Statement.single? at h
  split at h
  · rename_i heq
    cases heq
    obtain ⟨table', htable, hpair⟩ := Option.map_eq_some_iff.mp h
    cases hpair
    exact ⟨_, _, _, rfl, htable⟩
  · rename_i heq
    cases heq
  · rename_i heq
    cases heq
  · cases h

/-- Without its table's name before the column that is compared, and without anything before the
columns that are assigned, a statement is narrowed to the same command but for that. -/
theorem ofStatement_unqualified (h : s.single? = some (table, where?)) :
    (ofStatement (s.unqualified table)).map unqualified = (ofStatement s).map unqualified := by
  cases s with
  | select q =>
    obtain ⟨projections, source, clauses, rfl, htable⟩ := of_single?_select h
    obtain ⟨gate, hgate⟩ := selectOf_eq projections clauses htable
    show (selectOf _).map _ = (selectOf _).map _
    rw [hgate, hgate]
    cases gate with
    | error f => rfl
    | ok _ => exact selection_unqualified table where?
  | update source found where? =>
    obtain ⟨table', htable, hpair⟩ := Option.map_eq_some_iff.mp h
    cases hpair
    show (updateOf _ _ _).map _ = (updateOf _ _ _).map _
    rw [updateOf_eq htable, updateOf_eq htable, assignmentsOf_bare]
    cases assignmentsOf found with
    | error f => rfl
    | ok assignments =>
      simp only [bind, Except.bind]
      split
      · rfl
      · exact key_unqualified fun _ => rfl
  | delete source? where? =>
    cases source? with
    | none => cases h
    | some source =>
      obtain ⟨table', htable, hpair⟩ := Option.map_eq_some_iff.mp h
      cases hpair
      show (deleteOf _ _).map _ = (deleteOf _ _).map _
      rw [deleteOf_eq htable, deleteOf_eq htable]
      exact key_unqualified fun _ => rfl
  | _ => cases h

theorem comparison_of_key {k : Comparison} (h : keyComparison verb e = .ok k) :
    comparison e = .ok k := by
  obtain ⟨k', hk', h⟩ := Attempt.of_bind_ok h
  split at h
  · cases h
    exact hk'
  · cases h

/-- The condition of a command on one table is that of its statement. -/
theorem single?_of_ofStatement (h : s.single? = some (table, some e)) (hc : ofStatement s = .ok c) :
    ∃ k, comparison e = .ok k ∧ c.single? = some (table, some k) := by
  cases s with
  | select q =>
    obtain ⟨projections, source, clauses, rfl, htable⟩ := of_single?_select h
    obtain ⟨gate, hgate⟩ := selectOf_eq projections clauses htable
    have hselect : gate >>= (fun _ => selection table (some e)) = .ok c :=
      (hgate (some e)).symm.trans hc
    obtain ⟨_, -, hselect⟩ := Attempt.of_bind_ok hselect
    obtain ⟨k, hk, rfl⟩ := Attempt.of_map_ok hselect
    exact ⟨k, hk, rfl⟩
  | update source found where? =>
    obtain ⟨table', htable, hpair⟩ := Option.map_eq_some_iff.mp h
    cases hpair
    have hupdate := (updateOf_eq htable).symm.trans hc
    obtain ⟨assignments, -, hupdate⟩ := Attempt.of_bind_ok hupdate
    split at hupdate
    · cases hupdate
    · obtain ⟨k, hk, rfl⟩ := Attempt.of_map_ok hupdate
      exact ⟨k, comparison_of_key hk, rfl⟩
  | delete source? where? =>
    cases source? with
    | none => cases h
    | some source =>
      obtain ⟨table', htable, hpair⟩ := Option.map_eq_some_iff.mp h
      cases hpair
      have hdelete := (deleteOf_eq htable).symm.trans hc
      obtain ⟨k, hk, rfl⟩ := Attempt.of_map_ok hdelete
      exact ⟨k, comparison_of_key hk, rfl⟩
  | _ => cases h

/-! ## Texts -/

/-- The text begins with a word that is known, and is read as this statement. -/
structure Asks (text : String) (s : Statement) : Prop where
  known : leadingWord (Text.trim text) ∈ knownWords
  read : Statement.read? (Text.trim text) = some [s]

theorem Asks.ofText_eq {text : String} (h : Asks text s) : ofText text = ofStatement s := by
  have hempty : (Text.trim text).isEmpty = false := by
    rw [Bool.eq_false_iff]
    intro hempty
    have hknown := h.known
    rw [String.isEmpty_iff.mp hempty] at hknown
    exact absurd hknown (by decide)
  have hknown : knownWords.contains (leadingWord (Text.trim text)) = true := by simpa using h.known
  unfold ofText
  dsimp only
  rw [hempty, hknown, h.read]
  rfl

/-- A text that is read as a statement is refused or asks for it. -/
theorem error_or_asks {text : String} (h : Statement.read? (Text.trim text) = some [s]) :
    (∃ e, ofText text = .error e) ∨ Asks text s := by
  by_cases hknown : leadingWord (Text.trim text) ∈ knownWords
  · exact .inr ⟨hknown, h⟩
  · refine .inl ?_
    have hword : knownWords.contains (leadingWord (Text.trim text)) = false := by simpa using hknown
    unfold ofText
    dsimp only
    rw [hword]
    cases (Text.trim text).isEmpty <;> exact ⟨_, rfl⟩

end Command
end Tabulary
