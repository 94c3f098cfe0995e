import Mathlib.Data.List.Find
import Mathlib.Data.List.Forall2
import Tabulary.Proofs.Attempt
import Tabulary.Proofs.Command.Own
import Tabulary.Proofs.Command.Written

/-!
What is accepted as a command, whatever library reads the statements.  The parts of a tree that are
looked at make up the command, one by one, and nothing is asked of the others: a statement that
carries more than its command is run without it.
-/

namespace Tabulary

open Sql Command

/-! ## Steps that succeed -/

theorem Attempt.bind_eq_ok {ε α β : Type} {x : Except ε α} {f : α → Except ε β} {b : β} :
    (x >>= f) = .ok b ↔ ∃ a, x = .ok a ∧ f a = .ok b :=
  ⟨of_bind_ok, fun ⟨_, hx, hf⟩ => hx ▸ hf⟩

theorem Attempt.pure_eq_ok {ε α : Type} {a b : α} : (pure a : Except ε α) = .ok b ↔ a = b :=
  Except.ok.injEq a b ▸ Iff.rfl

theorem Attempt.mapM_eq_ok {ε α β : Type} {f : α → Except ε β} {l : List α}
    {bs : List β} : l.mapM f = .ok bs ↔ List.Forall₂ (fun a b => f a = .ok b) l bs := by
  induction l generalizing bs with
  | nil => rw [List.mapM_nil, pure_eq_ok, List.forall₂_nil_left_iff, eq_comm]
  | cons a l ih =>
    simp only [List.mapM_cons, bind_eq_ok, pure_eq_ok, ih, List.forall₂_cons_left_iff]
    constructor
    · rintro ⟨b, hb, bs, hbs, rfl⟩
      exact ⟨b, bs, hb, hbs, rfl⟩
    · rintro ⟨b, bs, hb, hbs, rfl⟩
      exact ⟨b, hb, bs, hbs, rfl⟩

namespace Command

@[simp] theorem refuse_ne_ok {α : Type} {e : CommandError} {a : α} :
    (refuse e : Narrowed α) ≠ .ok a := nofun

theorem orRefuse_eq_ok {α : Type} {a? : Option α} {e : CommandError} {a : α} :
    orRefuse a? e = .ok a ↔ a? = some a := by
  cases a? <;> simp [orRefuse]

end Command

namespace Sql.Frontend

variable {F : Frontend} {n : F.Node}

/-! ## Parts -/

theorem only?_eq_some {k : NodeKind} {n? : Option F.Node} :
    F.only? k n? = some n ↔ n? = some n ∧ F.kind n = k := by
  simp [only?, Option.filter_eq_some_iff]

/-- There is a node and it is a table of this name. -/
def Names (F : Frontend) (n? : Option F.Node) (table : String) : Prop :=
  table ≠ "" ∧ ∃ n, n? = some n ∧ F.kind n = .table ∧ F.name n = table

theorem table?_eq_some {n? : Option F.Node} {table : String} :
    F.table? n? = some table ↔ F.Names n? table := by
  simp only [table?, Option.filter_eq_some_iff, Option.map_eq_some_iff, only?_eq_some, Names,
    decide_eq_true_eq]
  constructor
  · rintro ⟨⟨n, ⟨hn, hk⟩, hname⟩, hne⟩
    exact ⟨hne, n, hn, hk, hname⟩
  · rintro ⟨hne, n, hn, hk, hname⟩
    exact ⟨⟨n, ⟨hn, hk⟩, hname⟩, hne⟩

/-- What a node says as a literal. -/
inductive Denotes (F : Frontend) : F.Node → Literal → Prop
  | literal {n : F.Node} (hn : F.kind n = .literal) :
      Denotes F n ⟨F.text n "this", F.has n "is_string"⟩
  | negative {n m : F.Node} (hn : F.kind n = .neg) (hm : F.child? n "this" = some m)
      (hliteral : F.kind m = .literal) (hnumber : F.has m "is_string" = false) :
      Denotes F n ⟨"-" ++ F.text m "this", false⟩
  | bare {n : F.Node} (hn : F.kind n = .column) (hbare : F.text n "table" = "") :
      Denotes F n ⟨F.name n, false⟩

theorem literal_eq_ok {l : Literal} : F.literal n = .ok l ↔ F.Denotes n l := by
  constructor
  · intro h
    unfold literal at h
    split at h
    · rename_i hn
      cases h
      exact .literal hn
    · rename_i hn
      split at h
      · rename_i m hm
        obtain ⟨hm, hliteral⟩ := only?_eq_some.mp hm
        split at h
        · cases h
        · rename_i hnumber
          cases h
          exact .negative hn hm hliteral (by simpa using hnumber)
      · cases h
    · cases h
    · rename_i hn
      split at h
      · rename_i hbare
        cases h
        exact .bare hn hbare
      · cases h
    · cases h
  · intro h
    cases h with
    | literal hn => simp only [literal, hn]
    | negative hn hm hliteral hnumber =>
      simp only [literal, hn, only?_eq_some.mpr ⟨hm, hliteral⟩, hnumber, Bool.false_eq_true,
        if_false]
    | bare hn hbare => simp only [literal, hn, hbare, if_true]

/-- What a node says as a condition: a column and a literal, or a literal and a column. -/
inductive Compares (F : Frontend) : F.Node → Comparison → Prop
  | columnFirst {n : F.Node} {l : Literal} (hn : F.kind n = .equals)
      (hleft : F.kind (F.left n) = .column) (hright : F.Denotes (F.right n) l) :
      Compares F n ⟨F.columnRef (F.left n), l⟩
  | literalFirst {n : F.Node} {l : Literal} (hn : F.kind n = .equals)
      (hleft : F.kind (F.left n) ≠ .column) (hright : F.kind (F.right n) = .column)
      (hliteral : F.Denotes (F.left n) l) : Compares F n ⟨F.columnRef (F.right n), l⟩

theorem comparison_eq_ok {n? : Option F.Node} {c : Comparison} :
    F.comparison n? = .ok c ↔ ∃ n, n? = some n ∧ F.Compares n c := by
  unfold comparison
  constructor
  · intro h
    split at h
    · rename_i n hn
      obtain ⟨hn, hequals⟩ := only?_eq_some.mp hn
      refine ⟨n, hn, ?_⟩
      split at h
      · rename_i hleft
        obtain ⟨l, hl, h⟩ := Attempt.of_bind_ok h
        cases h
        exact .columnFirst hequals hleft (literal_eq_ok.mp hl)
      · rename_i hleft
        split at h
        · rename_i hright
          obtain ⟨l, hl, h⟩ := Attempt.of_bind_ok h
          cases h
          exact .literalFirst hequals hleft hright (literal_eq_ok.mp hl)
        · cases h
    · cases h
  · rintro ⟨n, rfl, h⟩
    cases h with
    | columnFirst hn hleft hright =>
      rw [only?_eq_some.mpr ⟨rfl, hn⟩]
      dsimp only
      rw [if_pos hleft, literal_eq_ok.mpr hright]
      rfl
    | literalFirst hn hleft hright hliteral =>
      rw [only?_eq_some.mpr ⟨rfl, hn⟩]
      dsimp only
      rw [if_neg hleft, if_pos hright, literal_eq_ok.mpr hliteral]
      rfl

theorem keyComparison_eq_ok {verb : String} {n? : Option F.Node} {c : Comparison} :
    F.keyComparison verb n? = .ok c ↔
      (∃ n, n? = some n ∧ F.Compares n c) ∧ c.column.name = Value.keyColumn := by
  simp only [keyComparison, Attempt.bind_eq_ok, comparison_eq_ok]
  constructor
  · rintro ⟨c', hc, h⟩
    split at h
    · rename_i hkey
      cases h
      exact ⟨hc, hkey⟩
    · cases h
  · rintro ⟨hc, hkey⟩
    exact ⟨c, hc, by rw [if_pos hkey]; rfl⟩

/-! ## Columns -/

/-- Whether the rules of a column, which are of two kinds, mark its values as unique. -/
inductive Marks (F : Frontend) (column : String) : List F.Node → Bool → Prop
  | none : Marks F column [] false
  | unique {n : F.Node} {rest : List F.Node} {b : Bool}
      (hn : (F.child? n "kind").map F.kind = some .unique) (more : Marks F column rest b) :
      Marks F column (n :: rest) true
  | primaryKey {n : F.Node} {rest : List F.Node} {b : Bool}
      (hn : (F.child? n "kind").map F.kind = some .primaryKey) (key : column = Value.keyColumn)
      (more : Marks F column rest b) : Marks F column (n :: rest) b

theorem uniqueness_eq_ok {column : String} {rules : List F.Node} {b : Bool} :
    F.uniqueness column rules = .ok b ↔ F.Marks column rules b := by
  constructor
  · intro h
    induction rules generalizing b with
    | nil =>
      cases h
      exact .none
    | cons n rest ih =>
      unfold uniqueness at h
      split at h
      · rename_i hn
        obtain ⟨b', hrest, h⟩ := Attempt.of_bind_ok h
        cases h
        exact .unique hn (ih hrest)
      · rename_i hn
        split at h
        · rename_i key
          exact .primaryKey hn key (ih h)
        · cases h
      · cases h
  · intro h
    induction h with
    | none => rfl
    | unique hn _ ih =>
      simp only [uniqueness, hn, ih]
      rfl
    | primaryKey hn key _ ih => simp only [uniqueness, hn, if_pos key, ih]

theorem columnType_eq_ok {column shown : String} {type : ColumnType} :
    columnType column shown = .ok type ↔
      ColumnType.ofWord?
        (Text.trim (String.ofList (shown.toList.takeWhile (· ≠ '(')))) = some type := by
  unfold columnType
  dsimp only
  split
  · rename_i t ht
    rw [ht, Option.some.injEq, Except.ok.injEq]
  · rename_i ht
    rw [ht]
    exact ⟨nofun, nofun⟩

/-- What a node says as the definition of a column. -/
structure Defines (F : Frontend) (n : F.Node) (c : Column) : Prop where
  kind : F.kind n = .columnDef
  name : c.name = F.name n
  type : ∃ t, F.child? n "kind" = some t ∧ columnType (F.name n) (F.print t) = .ok c.type
  isKey : c.isKey = decide (F.name n = Value.keyColumn)
  isUnique : F.Marks (F.name n) (F.children n "constraints") c.isUnique

theorem column_eq_ok {c : Column} : F.column n = .ok c ↔ F.Defines n c := by
  unfold column
  constructor
  · intro h
    split at h
    · rename_i hkind
      obtain ⟨t, ht, h⟩ := Attempt.of_bind_ok h
      obtain ⟨isUnique, hunique, h⟩ := Attempt.of_bind_ok h
      obtain ⟨type, htype, h⟩ := Attempt.of_bind_ok h
      cases h
      exact ⟨hkind, rfl, ⟨t, orRefuse_eq_ok.mp ht, htype⟩, rfl, uniqueness_eq_ok.mp hunique⟩
    · cases h
  · rintro ⟨hkind, hname, ⟨t, ht, htype⟩, hkey, hunique⟩
    obtain ⟨name, type, isKey, isUnique⟩ := c
    obtain rfl : name = F.name n := hname
    obtain rfl : isKey = _ := hkey
    rw [if_pos hkind, orRefuse_eq_ok.mpr ht]
    simp only [Attempt.bind_eq_ok]
    exact ⟨t, rfl, isUnique, uniqueness_eq_ok.mpr hunique, type, htype, rfl⟩

/-! ## Assignments -/

/-- What a node says as an assignment.  Nothing is asked of what stands before the column. -/
def Assigns (F : Frontend) (n : F.Node) (a : String × Literal) : Prop :=
  F.kind n = .equals ∧ F.kind (F.left n) = .column ∧ a.1 = F.name (F.left n) ∧
    F.Denotes (F.right n) a.2

theorem assignment_eq_ok {a : String × Literal} : F.assignment n = .ok a ↔ F.Assigns n a := by
  unfold assignment
  constructor
  · intro h
    split at h
    · rename_i hcolumn
      obtain ⟨l, hl, h⟩ := Attempt.of_bind_ok h
      cases h
      exact ⟨hcolumn.1, hcolumn.2, rfl, literal_eq_ok.mp hl⟩
    · cases h
  · rintro ⟨hequals, hcolumn, hname, hl⟩
    obtain ⟨name, l⟩ := a
    obtain rfl : name = _ := hname
    rw [if_pos ⟨hequals, hcolumn⟩, literal_eq_ok.mpr hl]
    rfl

theorem assignmentsOf_eq_ok {found : List F.Node} {assigned : List (String × Literal)} :
    F.assignmentsOf found = .ok assigned ↔
      ∃ each, List.Forall₂ F.Assigns found each ∧ settled each = assigned := by
  have hrun : ∀ done, found.foldlM (fun done n => do
      let a ← F.assignment n
      return Keyed.set a.1 a.2 done) done = .ok assigned ↔
      ∃ each, List.Forall₂ F.Assigns found each ∧
        each.foldl (fun done a => Keyed.set a.1 a.2 done) done = assigned := by
    induction found with
    | nil => simp [Attempt.pure_eq_ok]
    | cons n found ih =>
      intro done
      simp only [List.foldlM_cons, Attempt.bind_eq_ok, assignment_eq_ok, Attempt.pure_eq_ok, ih,
        List.forall₂_cons_left_iff]
      constructor
      · rintro ⟨_, ⟨a, ha, rfl⟩, each, heach, hdone⟩
        exact ⟨a :: each, ⟨a, each, ha, heach, rfl⟩, hdone⟩
      · rintro ⟨_, ⟨a, each, ha, heach, rfl⟩, hdone⟩
        exact ⟨_, ⟨a, ha, rfl⟩, each, heach, hdone⟩
  exact hrun []

/-! ## Statements -/

/-- A query joins its table to another by a plain or an inner join. -/
structure Joins (F : Frontend) (n : F.Node) (right : String) (on : Pairing) : Prop where
  words : F.joinWords n = "" ∨ F.joinWords n = "INNER"
  table : F.Names (F.child? n "this") right
  condition : ∃ e, F.child? n "on" = some e ∧ F.kind e = .equals ∧
    F.kind (F.left e) = .column ∧
    F.kind (F.right e) = .column ∧ on = ⟨F.columnRef (F.left e), F.columnRef (F.right e)⟩

/-- The condition in a clause of a statement. -/
def Conditional (F : Frontend) (n : F.Node) (c : Comparison) : Prop :=
  ∃ clause e, F.child? n "where" = some clause ∧ F.child? clause "this" = some e ∧
    F.Compares e c

/-- A query for all columns of a table, without the clauses that are looked for. -/
structure Selects (F : Frontend) (n : F.Node) (table : String) : Prop where
  kind : F.kind n = .select
  star : (F.children n "expressions").map F.kind = [.star]
  plain : ∀ part ∈ foreignParts, F.has n part = false
  source : ∃ m, F.first? n .from = some m ∧ F.Names (F.child? m "this") table

/-- What a statement says as a command. -/
inductive Accepts (F : Frontend) (n : F.Node) : Command → Prop
  | createTable {schema table : F.Node} {columns : List Column} (hn : F.kind n = .create)
      (kind : shownKind (F.text n "kind") = "TABLE") (hschema : F.child? n "this" = some schema)
      (isSchema : F.kind schema = .schema) (htable : F.child? schema "this" = some table)
      (isTable : F.kind table = .table) (nonempty : columns ≠ [])
      (each : List.Forall₂ F.Defines (F.children schema "expressions") columns) :
      Accepts F n (.createTable (F.name table) columns (F.has n "exists"))
  | dropTable {table : String} (hn : F.kind n = .drop)
      (kind : shownKind (F.text n "kind") = "TABLE") (htable : F.Names (F.child? n "this") table) :
      Accepts F n (.dropTable table (F.has n "exists"))
  | insert {table : String} {values row : F.Node} {items : List Literal} (hn : F.kind n = .insert)
      (htable : F.Names (F.child? n "this") table) (hvalues : F.child? n "expression" = some values)
      (isValues : F.kind values = .values) (hrow : F.children values "expressions" = [row])
      (each : List.Forall₂ F.Denotes (F.items row) items) : Accepts F n (.insert table items)
  | selectAll {table : String} (hn : F.Selects n table) (joins : F.children n "joins" = [])
      (hwhere : F.child? n "where" = none) : Accepts F n (.select table none)
  | select {table : String} {c : Comparison} (hn : F.Selects n table)
      (joins : F.children n "joins" = []) (hc : F.Conditional n c) :
      Accepts F n (.select table (some c))
  | join {left right : String} {on : Pairing} {j : F.Node} (hn : F.Selects n left)
      (joins : F.children n "joins" = [j]) (hwhere : F.child? n "where" = none)
      (hj : F.Joins j right on) : Accepts F n (.join left right on)
  | update {table : String} {each : List (String × Literal)} {key : Comparison}
      (hn : F.kind n = .update) (htable : F.Names (F.child? n "this") table)
      (nonempty : each ≠ [])
      (assigns : List.Forall₂ F.Assigns (F.children n "expressions") each)
      (hkey : F.Conditional n key) (name_eq : key.column.name = Value.keyColumn) :
      Accepts F n (.update table (settled each) key)
  | delete {table : String} {key : Comparison} (hn : F.kind n = .delete)
      (htable : F.Names (F.child? n "this") table) (hkey : F.Conditional n key)
      (name_eq : key.column.name = Value.keyColumn) : Accepts F n (.delete table key)

variable {c : Command}

/-! A statement that is made a command says it -/

theorem accepts_of_createOf (hn : F.kind n = .create) (h : F.createOf n = .ok c) :
    F.Accepts n c := by
  unfold createOf at h
  split at h
  · rename_i hkind
    obtain ⟨schema, hschema, h⟩ := Attempt.of_bind_ok h
    obtain ⟨table, htable, h⟩ := Attempt.of_bind_ok h
    obtain ⟨hschema, isSchema⟩ := only?_eq_some.mp (orRefuse_eq_ok.mp hschema)
    obtain ⟨htable, isTable⟩ := only?_eq_some.mp (orRefuse_eq_ok.mp htable)
    split at h
    · cases h
    · rename_i hsome
      obtain ⟨columns, hcolumns, h⟩ := Attempt.of_bind_ok h
      cases h
      have each := Attempt.mapM_eq_ok.mp hcolumns
      refine .createTable hn hkind hschema isSchema htable isTable ?_
        (each.imp fun _ _ => column_eq_ok.mp)
      rintro rfl
      simp [List.forall₂_nil_right_iff.mp each] at hsome
  · cases h

theorem accepts_of_dropOf (hn : F.kind n = .drop) (h : F.dropOf n = .ok c) : F.Accepts n c := by
  unfold dropOf at h
  split at h
  · rename_i hkind
    obtain ⟨table, htable, h⟩ := Attempt.of_bind_ok h
    cases h
    exact .dropTable hn hkind (table?_eq_some.mp (orRefuse_eq_ok.mp htable))
  · cases h

theorem accepts_of_insertOf (hn : F.kind n = .insert) (h : F.insertOf n = .ok c) :
    F.Accepts n c := by
  unfold insertOf at h
  split at h
  · cases h
  · obtain ⟨table, htable, h⟩ := Attempt.of_bind_ok h
    obtain ⟨values, hvalues, h⟩ := Attempt.of_bind_ok h
    obtain ⟨hvalues, isValues⟩ := only?_eq_some.mp (orRefuse_eq_ok.mp hvalues)
    split at h
    · rename_i row hrow
      obtain ⟨items, hitems, h⟩ := Attempt.of_bind_ok h
      cases h
      exact .insert hn (table?_eq_some.mp (orRefuse_eq_ok.mp htable)) hvalues isValues hrow
        ((Attempt.mapM_eq_ok.mp hitems).imp fun _ _ => literal_eq_ok.mp)
    · cases h

theorem joins_of_joinOf {left : String} {j : F.Node} (h : F.joinOf left j = .ok c) :
    ∃ right on, c = .join left right on ∧ F.Joins j right on := by
  unfold joinOf at h
  split at h
  · rename_i hwords
    obtain ⟨right, hright, h⟩ := Attempt.of_bind_ok h
    obtain ⟨e, he, h⟩ := Attempt.of_bind_ok h
    split at h
    · rename_i hcolumns
      obtain ⟨hequals, hl, hr⟩ := hcolumns
      cases h
      exact ⟨right, _, rfl, hwords, table?_eq_some.mp (orRefuse_eq_ok.mp hright),
        e, orRefuse_eq_ok.mp he, hequals, hl, hr, rfl⟩
    · cases h
  · cases h

theorem accepts_of_selectOf (hn : F.kind n = .select) (h : F.selectOf n = .ok c) :
    F.Accepts n c := by
  unfold selectOf at h
  split at h
  · rename_i hstar
    split at h
    · cases h
    · rename_i hplain
      obtain ⟨source, hsource, h⟩ := Attempt.of_bind_ok h
      obtain ⟨table, htable, h⟩ := Attempt.of_bind_ok h
      have hselects : F.Selects n table :=
        ⟨hn, hstar, by simpa using hplain, source, orRefuse_eq_ok.mp hsource,
          table?_eq_some.mp (orRefuse_eq_ok.mp htable)⟩
      unfold selection at h
      split at h
      · rename_i joins hwhere
        cases h
        exact .selectAll hselects joins hwhere
      · rename_i clause joins hwhere
        obtain ⟨condition, hcondition, h⟩ := Attempt.of_bind_ok h
        cases h
        obtain ⟨e, he, hcompares⟩ := comparison_eq_ok.mp hcondition
        exact .select hselects joins ⟨clause, e, hwhere, he, hcompares⟩
      · cases h
      · cases h
      · rename_i j joins hwhere
        obtain ⟨right, on, rfl, hj⟩ := joins_of_joinOf h
        exact .join hselects joins hwhere hj
  · cases h

theorem accepts_of_updateOf (hn : F.kind n = .update) (h : F.updateOf n = .ok c) :
    F.Accepts n c := by
  obtain ⟨table, htable, h⟩ := Attempt.of_bind_ok h
  obtain ⟨assigned, hassigned, h⟩ := Attempt.of_bind_ok h
  obtain ⟨each, heach, rfl⟩ := assignmentsOf_eq_ok.mp hassigned
  split at h
  · cases h
  · rename_i hsome
    obtain ⟨clause, hclause, h⟩ := Attempt.of_bind_ok h
    obtain ⟨key, hkey, h⟩ := Attempt.of_bind_ok h
    cases h
    obtain ⟨⟨e, he, hcompares⟩, name_eq⟩ := keyComparison_eq_ok.mp hkey
    refine .update hn (table?_eq_some.mp (orRefuse_eq_ok.mp htable)) ?_ heach
      ⟨clause, e, orRefuse_eq_ok.mp hclause, he, hcompares⟩ name_eq
    rintro rfl
    exact hsome rfl

theorem accepts_of_deleteOf (hn : F.kind n = .delete) (h : F.deleteOf n = .ok c) :
    F.Accepts n c := by
  obtain ⟨table, htable, h⟩ := Attempt.of_bind_ok h
  obtain ⟨clause, hclause, h⟩ := Attempt.of_bind_ok h
  obtain ⟨key, hkey, h⟩ := Attempt.of_bind_ok h
  cases h
  obtain ⟨⟨e, he, hcompares⟩, name_eq⟩ := keyComparison_eq_ok.mp hkey
  exact .delete hn (table?_eq_some.mp (orRefuse_eq_ok.mp htable))
    ⟨clause, e, orRefuse_eq_ok.mp hclause, he, hcompares⟩ name_eq

/-! A statement that says a command is made that command -/

theorem Conditional.keyComparison {verb : String} {missing : CommandError} {key : Comparison}
    {f : Comparison → Command} (h : F.Conditional n key)
    (name_eq : key.column.name = Value.keyColumn) :
    (do
      let condition ← orRefuse (F.child? n "where") missing
      return f (← F.keyComparison verb (F.child? condition "this")) : Narrowed Command) =
      .ok (f key) := by
  obtain ⟨clause, e, hclause, he, hcompares⟩ := h
  rw [hclause]
  show (F.keyComparison verb (F.child? clause "this") >>= _) = _
  rw [keyComparison_eq_ok.mpr ⟨⟨e, he, hcompares⟩, name_eq⟩]
  rfl

theorem Selects.selectOf {table : String} (h : F.Selects n table) :
    F.selectOf n = F.selection table (F.children n "joins") (F.child? n "where") := by
  obtain ⟨-, hstar, hplain, source, hsource, htable⟩ := h
  have hnone : foreignParts.find? (F.has n) = none := by simpa using hplain
  unfold Frontend.selectOf
  rw [if_pos hstar, hnone, hsource]
  show (orRefuse (F.table? (F.child? source "this")) .fromShape >>= _) = _
  rw [table?_eq_some.mpr htable]
  rfl

theorem Joins.joinOf {left right : String} {on : Pairing} (h : F.Joins n right on) :
    F.joinOf left n = .ok (.join left right on) := by
  obtain ⟨hwords, htable, e, he, hequals, hl, hr, rfl⟩ := h
  unfold Frontend.joinOf
  rw [if_pos hwords, table?_eq_some.mpr htable, he]
  show (if _ then _ else _) = _
  rw [if_pos ⟨hequals, hl, hr⟩]
  rfl

theorem Accepts.ofNode (h : F.Accepts n c) : F.ofNode n = .ok c := by
  unfold Frontend.ofNode
  cases h with
  | @createTable schema table columns hn hkind hschema isSchema htable isTable nonempty each =>
    have hsome : ¬(F.children schema "expressions").isEmpty = true := by
      intro hempty
      rw [List.isEmpty_iff.mp hempty] at each
      exact nonempty (List.forall₂_nil_left_iff.mp each)
    rw [hn]
    unfold createOf
    rw [if_pos hkind, only?_eq_some.mpr ⟨hschema, isSchema⟩]
    simp only [Attempt.bind_eq_ok]
    refine ⟨schema, rfl, table, orRefuse_eq_ok.mpr (only?_eq_some.mpr ⟨htable, isTable⟩),
      ?_⟩
    rw [if_neg hsome]
    exact Attempt.bind_eq_ok.mpr
      ⟨columns, Attempt.mapM_eq_ok.mpr (each.imp fun _ _ => column_eq_ok.mpr), rfl⟩
  | dropTable hn hkind htable =>
    rw [hn]
    unfold dropOf
    rw [if_pos hkind, table?_eq_some.mpr htable]
    rfl
  | @insert table values row items hn htable hvalues isValues hrow each =>
    have hschema : ¬(F.only? .schema (F.child? n "this")).isSome = true := by
      obtain ⟨-, m, hm, htable, -⟩ := htable
      simp [only?, hm, htable]
    rw [hn]
    unfold insertOf
    rw [if_neg hschema, table?_eq_some.mpr htable, only?_eq_some.mpr ⟨hvalues, isValues⟩]
    simp only [Attempt.bind_eq_ok]
    refine ⟨table, rfl, values, rfl, ?_⟩
    rw [hrow]
    exact Attempt.bind_eq_ok.mpr
      ⟨items, Attempt.mapM_eq_ok.mpr (each.imp fun _ _ => literal_eq_ok.mpr), rfl⟩
  | selectAll hn joins hwhere =>
    rw [hn.kind]
    exact hn.selectOf.trans (by rw [joins, hwhere]; rfl)
  | select hn joins hc =>
    obtain ⟨clause, e, hclause, he, hcompares⟩ := hc
    rw [hn.kind]
    refine hn.selectOf.trans ?_
    rw [joins, hclause]
    exact Attempt.bind_eq_ok.mpr ⟨_, comparison_eq_ok.mpr ⟨e, he, hcompares⟩, rfl⟩
  | join hn joins hwhere hj =>
    rw [hn.kind]
    exact hn.selectOf.trans (by rw [joins, hwhere]; exact hj.joinOf)
  | @update table each key hn htable nonempty assigns hkey name_eq =>
    have hsome : ¬(settled each).isEmpty = true := by
      simpa using settled_ne_nil nonempty
    rw [hn]
    unfold updateOf
    rw [table?_eq_some.mpr htable]
    simp only [Attempt.bind_eq_ok]
    refine ⟨table, rfl, settled each, assignmentsOf_eq_ok.mpr ⟨each, assigns, rfl⟩, ?_⟩
    rw [if_neg hsome]
    exact hkey.keyComparison name_eq
  | delete hn htable hkey name_eq =>
    rw [hn]
    unfold deleteOf
    rw [table?_eq_some.mpr htable]
    exact hkey.keyComparison name_eq

theorem ofNode_eq_ok : F.ofNode n = .ok c ↔ F.Accepts n c := by
  refine ⟨fun h => ?_, Accepts.ofNode⟩
  unfold ofNode at h
  split at h
  · exact accepts_of_createOf ‹_› h
  · exact accepts_of_dropOf ‹_› h
  · exact accepts_of_insertOf ‹_› h
  · exact accepts_of_selectOf ‹_› h
  · exact accepts_of_updateOf ‹_› h
  · exact accepts_of_deleteOf ‹_› h
  · cases h

/-! ## Texts -/

/-- A text has one statement that is not empty, and one of the known words in front. -/
structure Holds (F : Frontend) (text : String) (n : F.Node) : Prop where
  nonempty : Text.trim text ≠ ""
  known : leadingWord (Text.trim text) ∈ knownWords
  statement : ∃ found, F.read (Text.trim text) = some found ∧ found.filterMap id = [n]

theorem ofNodes_eq_ok {found : List (Option F.Node)} :
    F.ofNodes found = .ok c ↔ ∃ n, found.filterMap id = [n] ∧ F.Accepts n c := by
  unfold ofNodes
  generalize found.filterMap id = nodes
  rcases nodes with _ | ⟨n, _ | ⟨m, more⟩⟩
  · simp
  · simp [ofNode_eq_ok]
  · simp

theorem ofText_eq_ok {text : String} :
    F.ofText text = .ok c ↔ ∃ n, F.Holds text n ∧ F.Accepts n c := by
  unfold ofText
  dsimp only
  constructor
  · intro h
    split at h
    · cases h
    · rename_i nonempty
      split at h
      · cases h
      · rename_i known
        obtain ⟨found, hfound, h⟩ := Attempt.of_bind_ok h
        obtain ⟨n, hn, haccepts⟩ := ofNodes_eq_ok.mp h
        exact ⟨n, ⟨nonempty, not_not.mp known, found, orRefuse_eq_ok.mp hfound, hn⟩,
          haccepts⟩
  · rintro ⟨n, ⟨nonempty, known, found, hfound, hn⟩, haccepts⟩
    rw [if_neg nonempty, if_neg (not_not_intro known), hfound]
    exact ofNodes_eq_ok.mpr ⟨n, hn, haccepts⟩

/-! ## Parts that make no difference -/

/-- The names of the parts that are looked at, by the kind of a statement. -/
def looked : NodeKind → List String
  | .create | .drop => ["kind", "this", "exists"]
  | .insert => ["this", "expression"]
  | .select => ["expressions", "joins", "where"] ++ foreignParts
  | .update => ["this", "expressions", "where"]
  | .delete => ["this", "where"]
  | _ => []

/-- Two statements with the same parts as far as they are looked at.  Under other names they can
have different parts. -/
structure Alike (F : Frontend) (n m : F.Node) : Prop where
  kind : F.kind n = F.kind m
  typeName : F.typeName n = F.typeName m
  source : F.first? n .from = F.first? m .from
  part : ∀ part ∈ looked (F.kind n), F.child? n part = F.child? m part ∧
    F.children n part = F.children m part ∧ F.text n part = F.text m part ∧
    F.has n part = F.has m part

theorem Alike.ofNode {m : F.Node} (h : F.Alike n m) : F.ofNode n = F.ofNode m := by
  obtain ⟨kind, typeName, source, part⟩ := h
  unfold Frontend.ofNode
  rw [← kind]
  cases hn : F.kind n <;> rw [hn] at part <;> dsimp only
  case create =>
    unfold createOf
    rw [(part "kind" (by decide)).2.2.1, (part "this" (by decide)).1,
      (part "exists" (by decide)).2.2.2]
  case drop =>
    unfold dropOf
    rw [(part "kind" (by decide)).2.2.1, (part "this" (by decide)).1,
      (part "exists" (by decide)).2.2.2]
  case insert =>
    unfold insertOf
    rw [(part "this" (by decide)).1, (part "expression" (by decide)).1]
  case select =>
    have hforeign : foreignParts.find? (F.has n) = foreignParts.find? (F.has m) :=
      List.find?_congr fun name hname => (part name (List.mem_append_right _ hname)).2.2.2
    unfold selectOf
    rw [(part "expressions" (by decide)).2.1, hforeign, source, (part "joins" (by decide)).2.1,
      (part "where" (by decide)).1]
  case update =>
    unfold updateOf
    rw [(part "this" (by decide)).1, (part "expressions" (by decide)).2.1,
      (part "where" (by decide)).1]
  case delete =>
    unfold deleteOf
    rw [(part "this" (by decide)).1, (part "where" (by decide)).1]
  all_goals rw [typeName]

/-- A text is accepted as a command exactly if it holds one statement whose parts, as far as they
are looked at, say that command; what a statement has besides makes no difference. -/
theorem accepted_by_parts (F : Frontend) :
    (∀ text c, F.ofText text = .ok c ↔ ∃ n, F.Holds text n ∧ F.Accepts n c) ∧
      ∀ n m, F.Alike n m → F.ofNode n = F.ofNode m :=
  ⟨fun _ _ => ofText_eq_ok, fun _ _ => Alike.ofNode⟩

end Sql.Frontend

/-! ## A limit on a deletion -/

theorem Attempt.ok_of_toOption {ε α : Type} {x : Except ε α} {a : α}
    (h : x.toOption = some a) : x = .ok a := by
  cases x with
  | error e => cases h
  | ok b => exact congrArg Except.ok (Option.some.inj h)

/-- A deletion that is told to delete no row. -/
theorem Command.ofText_limited : Command.ofText "DELETE FROM t WHERE id = 1 LIMIT 0" =
    .ok (.delete "t" ⟨⟨none, "id"⟩, ⟨"1", false⟩⟩) := by
  have h : (Command.ofText "DELETE FROM t WHERE id = 1 LIMIT 0").toOption =
      some (.delete "t" ⟨⟨none, "id"⟩, ⟨"1", false⟩⟩) := by decide +kernel
  exact Attempt.ok_of_toOption h

/-- The limit of a deletion is not among the parts that are looked at, nor is the `QUALIFY` of a
query. -/
theorem Sql.Frontend.accepted_by_parts_limited :
    (∃ n, own.Holds "DELETE FROM t WHERE id = 1 LIMIT 0" n ∧
      own.Accepts n (.delete "t" ⟨⟨none, "id"⟩, ⟨"1", false⟩⟩)) ∧
    own.ofNode (.statement (.select (.mk [.star] none [] none [(.qualify, "x")]))) =
      own.ofNode (.statement (.select (.mk [.star] none [] none []))) := by
  obtain ⟨haccepted, halike⟩ := accepted_by_parts own
  refine ⟨(haccepted _ _).mp ((own_ofText _).trans ofText_limited),
    halike _ _ ⟨rfl, rfl, rfl, ?_⟩⟩
  intro part hpart
  change part ∈ looked .select at hpart
  simp only [looked, foreignParts, List.cons_append, List.nil_append, List.mem_cons,
    List.not_mem_nil, or_false] at hpart
  rcases hpart with rfl | rfl | rfl | rfl | rfl | rfl | rfl | rfl | rfl <;>
    exact ⟨rfl, rfl, rfl, rfl⟩

/-- A limit on a deletion makes no difference. -/
theorem Command.limit_ignored :
    Command.ofText "DELETE FROM t WHERE id = 1 LIMIT 0" =
        .ok (.delete "t" ⟨⟨none, "id"⟩, ⟨"1", false⟩⟩) ∧
      Command.ofText "DELETE FROM t WHERE id = 1" =
        .ok (.delete "t" ⟨⟨none, "id"⟩, ⟨"1", false⟩⟩) := by
  have h : (Command.ofText "DELETE FROM t WHERE id = 1").toOption =
      some (.delete "t" ⟨⟨none, "id"⟩, ⟨"1", false⟩⟩) := by decide +kernel
  exact ⟨ofText_limited, Attempt.ok_of_toOption h⟩

end Tabulary
