import Mathlib.Data.List.Forall2
import Tabulary.Command.Part

/-!
The reader of statements is one library among others: a text is made the same command by way of its
parts as directly (`own_ofText`).
-/

namespace Tabulary

open Sql Command

namespace Sql.Frontend

variable {e l r : Expr}

/-! ## Columns and literals -/

theorem kind_column (e : Expr) : own.kind (.expr e) = .column ↔ e.columnRef?.isSome = true := by
  cases e with
  | binary op l r => cases op <;> simp [Part.kind, Expr.columnRef?]
  | _ => simp [Part.kind, Expr.columnRef?]

theorem getD_qualifier? (names : List Name) :
    (if (qualifier? names).getD "" = "" then none else some ((qualifier? names).getD "")) =
    qualifier? names := by
  unfold qualifier?
  split
  · split
    · rfl
    · rename_i n hn h
      exact if_neg h
  · rfl

theorem own_columnRef {ref : ColumnRef} (h : e.columnRef? = some ref) :
    own.columnRef (.expr e) = ref := by
  cases e with
  | column c =>
    cases h
    exact congrArg (ColumnRef.mk · c.name.text) (getD_qualifier? c.qualifiers)
  | allOf t =>
    cases h
    exact congrArg (ColumnRef.mk · "*") (getD_qualifier? (t.qualifiers ++ [t.name]))
  | _ => cases h

theorem qualifier?_eq_none {names : List Name} :
    qualifier? names = none ↔ (qualifier? names).getD "" = "" := by
  constructor
  · intro h
    rw [h]
    rfl
  · intro h
    rw [← getD_qualifier? names, if_pos h]

/-- A column without a qualifier is taken for a text. -/
theorem literal_of_columnRef? {ref : ColumnRef} (h : e.columnRef? = some ref) :
    Command.literal e =
      if ref.table? = none then .ok ⟨ref.name, false⟩ else refuse (.notLiteral e.print) := by
  obtain ⟨table?, name⟩ := ref
  cases e with
  | column c | allOf t =>
    simp only [Command.literal, h]
    cases table? <;> rfl
  | _ => cases h

theorem own_literal (e : Expr) : own.literal (.expr e) = Command.literal e := by
  cases e with
  | neg e =>
    cases e with
    | binary op l r => cases op <;> rfl
    | _ => rfl
  | binary op l r => cases op <;> rfl
  | column c | allOf t =>
    rw [literal_of_columnRef? rfl]
    simp only [qualifier?_eq_none]
    rfl
  | _ => rfl

/-! ## Conditions -/

theorem own_equals (l r : Expr) : own.comparison (some (.expr (.binary .eq l r))) =
    Command.comparison (.binary .eq l r) := by
  have hown : own.comparison (some (.expr (.binary .eq l r))) =
      if own.kind (.expr l) = .column then
        (do return ⟨own.columnRef (.expr l), ← own.literal (.expr r)⟩ : Narrowed Comparison)
      else if own.kind (.expr r) = .column then
        (do return ⟨own.columnRef (.expr r), ← own.literal (.expr l)⟩ : Narrowed Comparison)
      else refuse .conditionWithoutColumn := rfl
  rw [hown, own_literal, own_literal]
  unfold Command.comparison
  dsimp only
  cases hl : l.columnRef? with
  | some ref =>
    rw [if_pos ((kind_column l).mpr (by rw [hl]; rfl)), own_columnRef hl]
  | none =>
    rw [if_neg fun h => absurd ((kind_column l).mp h) (by rw [hl]; decide)]
    cases hr : r.columnRef? with
    | some ref => rw [if_pos ((kind_column r).mpr (by rw [hr]; rfl)), own_columnRef hr]
    | none => rw [if_neg fun h => absurd ((kind_column r).mp h) (by rw [hr]; decide)]

theorem own_comparison (e : Expr) : own.comparison (some (.expr e)) = Command.comparison e := by
  cases e with
  | binary op l r =>
    cases op with
    | eq => exact own_equals l r
    | _ => rfl
  | _ => rfl

theorem own_keyComparison (verb : String) (e : Expr) :
    own.keyComparison verb (some (.expr e)) = Command.keyComparison verb e := by
  unfold keyComparison Command.keyComparison
  rw [own_comparison]

/-! ## Tables -/

theorem own_table (t : QualifiedName) : own.table? (some (.table t)) =
    if t.name.text = "" then none else some t.name.text := by
  have hown : own.table? (some (.table t)) = Option.filter (· ≠ "") (some t.name.text) := rfl
  rw [hown]
  by_cases h : t.name.text = "" <;> simp [h, Option.filter]

theorem own_source (s : Source) : own.table? (some (.source s)) = s.table? := by
  cases s with
  | table t a joins => exact own_table t
  | _ => rfl

/-! ## Definitions -/

theorem own_uniqueness (name : String) (rules : List ColumnRule) :
    own.uniqueness name (rules.map .constraint) = Command.uniqueness name rules := by
  induction rules with
  | nil => rfl
  | cons rule rules ih =>
    cases rule with
    | unique => exact congrArg (fun x : Narrowed Bool => x >>= fun _ => return true) ih
    | primaryKey =>
      exact congrArg (fun x => if name = Value.keyColumn then x else .error (.schema .secondKey)) ih
    | other text => rfl

theorem own_column (e : Element) : own.column (.element e) = Command.column e := by
  cases e with
  | other text => rfl
  | column name type? rules =>
    have hkind : own.kind (.element (.column name type? rules)) = .columnDef := rfl
    have htype : own.child? (.element (.column name type? rules)) "kind" = type?.map .type := rfl
    have hrules : own.children (.element (.column name type? rules)) "constraints" =
      rules.map .constraint := rfl
    have hname : own.name (.element (.column name type? rules)) = name := rfl
    unfold column Command.column
    rw [if_pos hkind, htype, hrules, hname, own_uniqueness]
    cases type? <;> rfl

theorem mapM_column (elements : List Element) :
    (elements.map Part.element).mapM own.column = elements.mapM Command.column := by
  rw [List.mapM_map]
  exact congrArg (List.mapM · elements) (funext own_column)

theorem own_createOf (t : QualifiedName) (conditional : Bool) (elements? : Option (List Element)) :
    own.createOf (.statement (.createTable t conditional elements?)) =
      Command.createOf t conditional elements? := by
  have hkind : shownKind (own.text (.statement (.createTable t conditional elements?)) "kind") =
      "TABLE" :=
    show shownKind "TABLE" = "TABLE" by decide
  unfold createOf Command.createOf
  rw [if_pos hkind]
  cases elements? with
  | none => rfl
  | some elements =>
    have helements : own.children (.schema t elements) "expressions" = elements.map .element := rfl
    show (if (own.children (.schema t elements) "expressions").isEmpty then refuse .noColumns
      else _ >>= _) = _
    rw [helements, mapM_column]
    cases elements <;> rfl

theorem own_dropOf (kind : String) (conditional : Bool) (t : QualifiedName) :
    own.dropOf (.statement (.drop kind conditional t)) =
    Command.ofStatement (.drop kind conditional t) := by
  have hown : own.dropOf (.statement (.drop kind conditional t)) =
      if shownKind kind = "TABLE" then
        (do return .dropTable (← orRefuse (own.table? (some (.table t)))
          (.noTableName "DROP TABLE")) conditional : Narrowed Command)
      else refuse (.dropKind (shownKind kind)) := rfl
  have hdrop : Command.ofStatement (.drop kind conditional t) =
      if shownKind kind ≠ "TABLE" then refuse (.dropKind (shownKind kind))
      else if t.name.text = "" then refuse (.noTableName "DROP TABLE")
      else .ok (.dropTable t.name.text conditional) := rfl
  rw [hown, hdrop, own_table]
  by_cases hkind : shownKind kind = "TABLE"
  · rw [if_pos hkind, if_neg (not_not_intro hkind)]
    split <;> rfl
  · rw [if_neg hkind, if_pos hkind]

/-! ## Rows -/

theorem own_items (row : List Expr) :
    (own.items (.row row)).mapM own.literal = row.mapM Command.literal := by
  have hitems : own.items (.row row) = row.map .expr := rfl
  rw [hitems, List.mapM_map]
  exact congrArg (List.mapM · row) (funext own_literal)

theorem own_insertOf (target : Target) (rows? : Option (List (List Expr))) :
    own.insertOf (.statement (.insert target rows?)) = Command.insertOf target rows? := by
  have hvalues : own.child? (.statement (.insert target rows?)) "expression" = rows?.map .rows := by
    cases target <;> rfl
  have hrows (found : List (List Expr)) : own.children (.rows found) "expressions" =
    found.map .row := rfl
  unfold insertOf Command.insertOf
  rw [hvalues]
  cases target with
  | columns t => rfl
  | table t =>
    have htable : own.child? (.statement (.insert (.table t) rows?)) "this" = some (.table t) := rfl
    have hschema : (own.only? .schema (some (.table t))).isSome = false := rfl
    rw [htable, hschema, own_table]
    dsimp only
    by_cases hname : t.name.text = ""
    · rw [if_pos hname, if_pos hname]
      rfl
    · rw [if_neg hname, if_neg hname]
      rcases rows? with _ | _ | ⟨row, _ | ⟨second, more⟩⟩
      · rfl
      · rfl
      · exact congrArg (fun x : Narrowed (List Literal) => do
          return Command.insert t.name.text (← x)) (own_items row)
      · rfl
  | other => rfl

/-! ## Queries -/

theorem own_joinWords (words : String) (s : Source) (on? : Option Expr) :
    own.joinWords (.join (.mk words s on?)) = shownJoin words := by
  have hown : own.joinWords (.join (.mk words s on?)) = shownJoin ("" ++ " " ++ words) := rfl
  have htrim : Text.trim ("" ++ " " ++ words) = Text.trim words := by
    have hlist : ("" ++ " " ++ words).toList = ' ' :: words.toList := by simp
    unfold Text.trim Text.stripChars
    rw [hlist, List.dropWhile_cons_of_pos (by decide)]
  rw [hown, shownJoin, htrim, shownJoin]

/-- A condition of two columns, seen from outside. -/
theorem own_columns (e : Expr) :
    (own.kind (.expr e) = .equals ∧ own.kind (own.left (.expr e)) = .column ∧
      own.kind (own.right (.expr e)) = .column) ↔
      ∃ l r, e = .binary .eq l r ∧ l.columnRef?.isSome ∧ r.columnRef?.isSome := by
  constructor
  · rintro ⟨heq, hl, hr⟩
    cases e with
    | binary op l r =>
      cases op with
      | eq => exact ⟨l, r, rfl, (kind_column l).mp hl, (kind_column r).mp hr⟩
      | _ => cases heq
    | _ => cases heq
  · rintro ⟨l, r, rfl, hl, hr⟩
    exact ⟨rfl, (kind_column l).mpr hl, (kind_column r).mpr hr⟩

theorem own_joinOn (left right : String) (e : Expr) :
    (if own.kind (.expr e) = .equals ∧ own.kind (own.left (.expr e)) = .column ∧
        own.kind (own.right (.expr e)) = .column then
      .ok (.join left right ⟨own.columnRef (own.left (.expr e)),
        own.columnRef (own.right (.expr e))⟩)
    else refuse .joinCondition : Narrowed Command) =
      match e with
      | .binary .eq l r =>
        match l.columnRef?, r.columnRef? with
        | some l, some r => .ok (.join left right ⟨l, r⟩)
        | _, _ => refuse .joinCondition
      | _ => refuse .joinCondition := by
  split
  case isTrue hcolumns =>
    obtain ⟨l, r, rfl, hl, hr⟩ := (own_columns e).mp hcolumns
    obtain ⟨c, hc⟩ := Option.isSome_iff_exists.mp hl
    obtain ⟨d, hd⟩ := Option.isSome_iff_exists.mp hr
    have hparts : own.columnRef (own.left (.expr (.binary .eq l r))) = c ∧
        own.columnRef (own.right (.expr (.binary .eq l r))) = d :=
      ⟨own_columnRef hc, own_columnRef hd⟩
    rw [hparts.1, hparts.2]
    simp only [hc, hd]
  case isFalse hcolumns =>
    split
    · rename_i l r
      split
      · rename_i c d hc hd
        exact absurd ((own_columns _).mpr ⟨l, r, rfl, by rw [hc]; rfl, by rw [hd]; rfl⟩)
          hcolumns
      · rfl
    · rfl

theorem own_joinOf (left : String) (j : Join) :
    own.joinOf left (.join j) = Command.joinOf left j := by
  obtain ⟨words, s, on?⟩ := j
  have hthis : own.child? (.join (.mk words s on?)) "this" = some (.source s) := rfl
  have hon : own.child? (.join (.mk words s on?)) "on" = on?.map .expr := rfl
  unfold joinOf Command.joinOf
  rw [own_joinWords, hthis, hon, own_source]
  dsimp only
  by_cases hkind : shownJoin words = "" ∨ shownJoin words = "INNER"
  · rw [if_pos hkind, if_neg fun h => hkind.elim h.1 h.2]
    cases s.table? with
    | none => rfl
    | some right =>
      cases on? with
      | none => rfl
      | some e => exact own_joinOn left right e
  · rw [if_neg hkind, if_pos (not_or.mp hkind)]
    rfl

/-! ## Clauses -/

theorem own_foreign (projections : List Expr) (source? : Option Source) (joins : List Join)
    (where? : Option Expr) (clauses : List (Clause × String)) :
    (foreignParts.find?
        (own.has (.statement (.select (.mk projections source? joins where? clauses))))).map
        Text.capitals =
      (foreignClauses.find? fun (c, _) => clauses.any (·.1 = c)).map Prod.snd := by
  have hfind {parts : List String} {found : List (Clause × String)}
      (h : List.Forall₂ (fun part c => Part.clauseNames.lookup part = some c.1 ∧
        Text.capitals part = c.2) parts found) :
      (parts.find?
          (own.has (.statement (.select (.mk projections source? joins where? clauses))))).map
          Text.capitals =
        (found.find? fun (c, _) => clauses.any (·.1 = c)).map Prod.snd := by
    induction h with
    | nil => rfl
    | @cons part c parts found hc _ ih =>
      have hhas : own.has (.statement (.select (.mk projections source? joins where? clauses)))
          part = clauses.any (·.1 = c.1) := by
        show (Part.clauseNames.lookup part).any (fun c => clauses.any (·.1 = c)) = _
        rw [hc.1]
        rfl
      rw [List.find?_cons, List.find?_cons, hhas]
      dsimp only
      split
      · exact congrArg some hc.2
      · exact ih
  exact hfind (by unfold foreignParts foreignClauses; simp only [List.forall₂_cons]; decide)

theorem own_selection (table : String) (joins : List Join) (where? : Option Expr) :
    own.selection table (joins.map .join) (where?.map .clause) =
      match joins, where? with
      | [], none => .ok (.select table none)
      | [], some e => do return .select table (some (← Command.comparison e))
      | _ :: _ :: _, _ => refuse .joinCount
      | [_], some _ => refuse .joinWithWhere
      | [j], none => Command.joinOf table j := by
  rcases joins with _ | ⟨j, _ | ⟨second, more⟩⟩
  · cases where? with
    | none => rfl
    | some e =>
      exact congrArg (fun x : Narrowed Comparison => do return Command.select table (some (← x)))
        (own_comparison e)
  · cases where? with
    | none => exact own_joinOf table j
    | some e => rfl
  · rfl

theorem own_selectOf (q : Query) : own.selectOf (.statement (.select q)) = Command.selectOf q := by
  obtain ⟨projections, source?, joins, where?, clauses⟩ | ⟨operation, l, r⟩ := q
  case combined => rfl
  have hprojections : own.children
      (.statement (.select (.mk projections source? joins where? clauses)))
      "expressions" = projections.map .expr := rfl
  have hjoins : own.children (.statement (.select (.mk projections source? joins where? clauses)))
      "joins" = joins.map .join := rfl
  have hwhere : own.child? (.statement (.select (.mk projections source? joins where? clauses)))
      "where" = where?.map .clause := rfl
  have hfirst : own.first? (.statement (.select (.mk projections source? joins where? clauses)))
      .from = (Query.mk projections source? joins where? clauses).firstSource?.map .sources := rfl
  have hforeign := own_foreign projections source? joins where? clauses
  have hstar : (projections.map .expr).map own.kind = [.star] ↔ projections = [.star] := by
    rcases projections with _ | ⟨e, _ | ⟨second, more⟩⟩
    · simp
    · simp only [List.map_cons, List.map_nil, List.cons.injEq, and_true]
      constructor
      · intro h
        cases e with
        | star => rfl
        | binary op l r => cases op <;> cases h
        | _ => cases h
      · rintro rfl
        rfl
    · simp
  unfold selectOf Command.selectOf
  rw [hprojections, hjoins, hwhere, hfirst]
  by_cases hall : projections = [.star]
  · subst hall
    rw [if_pos (hstar.mpr rfl)]
    dsimp only
    cases hown : foreignParts.find?
      (own.has (.statement (.select (.mk [.star] source? joins where? clauses)))) with
    | some part =>
      rw [hown] at hforeign
      obtain ⟨found, hfound, hcapitals⟩ := Option.map_eq_some_iff.mp hforeign.symm
      rw [hfound]
      exact congrArg (fun shown => refuse (.clause shown)) hcapitals.symm
    | none =>
      rw [hown] at hforeign
      rw [Option.map_eq_none_iff.mp hforeign.symm]
      cases (Query.mk [.star] source? joins where? clauses).firstSource? with
      | none => rfl
      | some s =>
        have hthis : own.child? (.sources s) "this" = some (.source s) := rfl
        show (orRefuse (own.table? (own.child? (.sources s) "this")) .fromShape >>= _) =
          (orRefuse s.table? .fromShape >>= _)
        rw [hthis, own_source]
        cases s.table? with
        | none => rfl
        | some table => exact own_selection table joins where?
  · rw [if_neg fun h => hall (hstar.mp h)]
    split
    · rename_i heq
      cases heq
      exact absurd rfl hall
    · rfl

/-! ## Changes -/

theorem own_assignment (e : Expr) : own.assignment (.expr e) =
    match e with
    | .binary .eq l r =>
      match l.columnRef? with
      | some c => do return (c.name, ← Command.literal r)
      | none => refuse .assignment
    | _ => refuse .assignment := by
  cases e with
  | binary op l r =>
    cases op with
    | eq =>
      have hown : own.assignment (.expr (.binary .eq l r)) =
          if own.kind (.expr (.binary .eq l r)) = .equals ∧ own.kind (.expr l) = .column then
            (do return ((own.columnRef (.expr l)).name, ← own.literal (.expr r)) : Narrowed
              (String × Literal))
          else refuse .assignment := rfl
      have hequals : own.kind (.expr (.binary .eq l r)) = .equals := rfl
      rw [hown, own_literal]
      dsimp only
      cases hl : l.columnRef? with
      | some c => rw [if_pos ⟨hequals, (kind_column l).mpr (by rw [hl]; rfl)⟩, own_columnRef hl]
      | none => rw [if_neg fun h => absurd ((kind_column l).mp h.2) (by rw [hl]; decide)]
    | _ => rfl
  | _ => rfl

theorem own_assignmentsOf (found : List Expr) :
    own.assignmentsOf (found.map .expr) = Command.assignmentsOf found := by
  unfold assignmentsOf Command.assignmentsOf
  rw [List.foldlM_map]
  congr 1
  funext done e
  rw [own_assignment]
  cases e with
  | binary op l r =>
    cases op with
    | eq =>
      dsimp only
      cases l.columnRef? with
      | none => rfl
      | some c => cases Command.literal r <;> rfl
    | _ => rfl
  | _ => rfl

/-- The condition of a change, which stands in a clause. -/
theorem own_condition (verb : String) (where? : Option Expr) (missing : CommandError)
    (f : Comparison → Command) : (do
      let condition ← orRefuse (where?.map Part.clause) missing
      return f (← own.keyComparison verb (own.child? condition "this")) : Narrowed Command) =
      (do
        let condition ← orRefuse where? missing
        return f (← Command.keyComparison verb condition)) := by
  cases where? with
  | none => rfl
  | some e =>
    exact congrArg (fun x : Narrowed Comparison => do return f (← x)) (own_keyComparison verb e)

theorem own_updateOf (s : Source) (found : List Expr) (where? : Option Expr) :
    own.updateOf (.statement (.update s found where?)) = Command.updateOf s found where? := by
  have hthis : own.child? (.statement (.update s found where?)) "this" = some (.source s) := rfl
  have hfound : own.children (.statement (.update s found where?)) "expressions" =
    found.map .expr := rfl
  have hwhere : own.child? (.statement (.update s found where?)) "where" = where?.map .clause := rfl
  unfold updateOf Command.updateOf
  rw [hthis, hfound, hwhere, own_source, own_assignmentsOf]
  simp only [own_condition]
  cases s.table? with
  | none => rfl
  | some table =>
    cases Command.assignmentsOf found with
    | error e => rfl
    | ok assignments => cases assignments <;> rfl

theorem own_deleteOf (source? : Option Source) (where? : Option Expr) :
    own.deleteOf (.statement (.delete source? where?)) = Command.deleteOf source? where? := by
  have hthis : own.child? (.statement (.delete source? where?)) "this" = source?.map .source := rfl
  have hwhere : own.child? (.statement (.delete source? where?)) "where" = where?.map .clause := rfl
  have htable : own.table? (source?.map .source) = source?.bind Source.table? := by
    cases source? with
    | none => rfl
    | some s => exact own_source s
  unfold deleteOf Command.deleteOf
  rw [hthis, hwhere, htable]
  simp only [own_condition]

/-! ## Statements -/

theorem own_create (kind : String) :
    own.createOf (.statement (.create kind)) = Command.ofStatement (.create kind) := by
  have hown : own.createOf (.statement (.create kind)) =
      if shownKind kind = "TABLE" then refuse .createUsage
      else refuse (.createKind (shownKind kind)) := rfl
  rw [hown]
  exact (ite_not ..).symm

theorem own_ofNode (s : Statement) : own.ofNode (.statement s) = Command.ofStatement s := by
  cases s with
  | createTable t conditional elements? => exact own_createOf t conditional elements?
  | create kind => exact own_create kind
  | drop kind conditional t => exact own_dropOf kind conditional t
  | insert target rows? => exact own_insertOf target rows?
  | select q => exact own_selectOf q
  | update s found where? => exact own_updateOf s found where?
  | delete source? where? => exact own_deleteOf source? where?
  | other className => rfl

theorem own_ofNodes (found : List Statement) :
    own.ofNodes (found.map fun s => some (.statement s)) =
      match found with
      | [] => refuse .empty
      | [s] => Command.ofStatement s
      | _ => refuse .manyStatements := by
  rcases found with _ | ⟨s, _ | ⟨second, more⟩⟩
  · rfl
  · exact own_ofNode s
  · rfl

/-- A text is made the same command by way of the parts of its statements as directly. -/
theorem own_ofText (text : String) : own.ofText text = Command.ofText text := by
  unfold ofText Command.ofText
  dsimp only
  generalize Text.trim text = s
  by_cases hempty : s = ""
  · rw [if_pos hempty, if_pos (show s.isEmpty = true by rw [hempty]; decide)]
    rfl
  · have hfull : ¬s.isEmpty = true := by simpa using hempty
    rw [if_neg hempty, if_neg hfull]
    by_cases hknown : leadingWord s ∈ knownWords
    · have hword : ¬(!knownWords.contains (leadingWord s)) = true := by simpa using hknown
      rw [if_neg (not_not_intro hknown), if_neg hword]
      cases Statement.read? s with
      | none => rfl
      | some found => exact own_ofNodes found
    · have hword : (!knownWords.contains (leadingWord s)) = true := by simpa using hknown
      rw [if_pos hknown, if_pos hword]
      rfl

end Sql.Frontend
end Tabulary
