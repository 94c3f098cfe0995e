import Tabulary.Proofs.Command.Accepted
import Tabulary.Proofs.Command.Reading

/-!
Statements as they are written down: which command each of them asks for, which pieces it is written
with, and the tree that a library that reads SQL draws of it.  Where it draws that tree, the text is
made the command that was asked for (`ofText_of_draws`).
-/

namespace Tabulary

open Sql

/-- A name between back quotes. -/
abbrev Identifier := {s : String // IsName s}

namespace Sentence

inductive Term where
  | number (digits : {s : String // IsNumeral s})
  | negative (digits : {s : String // IsNumeral s})
  /-- A text between single quotes, without quotes and backslashes. -/
  | text (s : {s : String // '\'' ∉ s.toList ∧ '\\' ∉ s.toList})

namespace Term

def literal : Term → Literal
  | number digits => ⟨digits, false⟩
  | negative digits => ⟨"-" ++ digits, false⟩
  | text s => ⟨s, true⟩

def pieces : Term → List Piece
  | number digits => [.number digits]
  | negative digits => [.symbol '-', .number digits]
  | text s => [.text s]

end Term

/-- A column, with the name of its table before it or not. -/
structure Reference where
  table? : Option Identifier
  name : Identifier

namespace Reference

def column (r : Reference) : ColumnRef := ⟨r.table?.map (·.1), r.name⟩

def pieces (r : Reference) : List Piece :=
  match r.table? with
  | none => [.name r.name]
  | some table => [.name table, .symbol '.', .name r.name]

end Reference

/-- A column and a literal that it is compared with, in either order. -/
structure Condition where
  column : Reference
  value : Term
  literalFirst : Bool

namespace Condition

def comparison (c : Condition) : Comparison := ⟨c.column.column, c.value.literal⟩

def pieces (c : Condition) : List Piece :=
  if c.literalFirst then c.value.pieces ++ .symbol '=' :: c.column.pieces
  else c.column.pieces ++ .symbol '=' :: c.value.pieces

end Condition

inductive Rule where
  | unique
  | primaryKey
deriving DecidableEq, Repr

namespace Rule

def piece : Rule → Piece
  | unique => Column.uniquePiece
  | primaryKey => Column.keyPiece

def kind : Rule → NodeKind
  | unique => .unique
  | primaryKey => .primaryKey

theorem piece_injective : Function.Injective piece := by
  intro a b h
  cases a <;> cases b <;> first | rfl | cases h

end Rule

/-- A column of a table, with a word for its type and the rules that it keeps, each named once.
Only the key can be named as such. -/
structure Field where
  name : Identifier
  type : ColumnType
  word : String
  mem : word ∈ type.words
  rules : List Rule
  once : rules.Nodup
  key : .primaryKey ∈ rules → name.1 = Value.keyColumn

namespace Field

def column (f : Field) : Column where
  name := f.name
  type := f.type
  isKey := f.name.1 = Value.keyColumn
  isUnique := .unique ∈ f.rules

def pieces (f : Field) : List Piece :=
  .name f.name :: .word f.word :: f.rules.map Rule.piece

end Field

/-- A column and what is assigned to it. -/
structure Setting where
  column : Identifier
  value : Term

namespace Setting

def assignment (a : Setting) : String × Literal := (a.column, a.value.literal)

def pieces (a : Setting) : List Piece := .name a.column :: .symbol '=' :: a.value.pieces

end Setting

/-- Items with commas between them. -/
def separated : List (List Piece) → List Piece
  | [] => []
  | [ps] => ps
  | ps :: rest => ps ++ .symbol ',' :: separated rest

end Sentence

open Sentence

/-- A statement as it is written. -/
inductive Sentence where
  | createTable (table : Identifier) (fields : List Field) (nonempty : fields ≠ [])
      (ifNotExists : Bool)
  | dropTable (table : Identifier) (ifExists : Bool)
  | insert (table : Identifier) (values : List Term) (nonempty : values ≠ [])
  | selectAll (table : Identifier)
  | select (table : Identifier) (condition : Condition)
  | join (left right : Identifier) (inner : Bool) (onLeft onRight : Reference)
  | update (table : Identifier) (settings : List Setting) (nonempty : settings ≠ [])
      (condition : Condition) (onKey : condition.column.name.1 = Value.keyColumn)
  | delete (table : Identifier) (condition : Condition)
      (onKey : condition.column.name.1 = Value.keyColumn)

namespace Sentence

/-- What a statement asks for. -/
def command : Sentence → Command
  | createTable table fields _ ifNotExists =>
    .createTable table (fields.map Field.column) ifNotExists
  | dropTable table ifExists => .dropTable table ifExists
  | insert table values _ => .insert table (values.map Term.literal)
  | selectAll table => .select table none
  | select table condition => .select table (some condition.comparison)
  | join left right _ onLeft onRight => .join left right ⟨onLeft.column, onRight.column⟩
  | update table settings _ condition _ =>
    .update table (Command.settled (settings.map Setting.assignment)) condition.comparison
  | delete table condition _ => .delete table condition.comparison

/-- What a statement is written with. -/
def pieces : Sentence → List Piece
  | createTable table fields _ ifNotExists =>
    .word "CREATE" :: .word "TABLE" ::
      (if ifNotExists then [.word "IF", .word "NOT", .word "EXISTS"] else []) ++
      .name table :: .symbol '(' :: separated (fields.map Field.pieces) ++ [.symbol ')']
  | dropTable table ifExists =>
    .word "DROP" :: .word "TABLE" :: (if ifExists then [.word "IF", .word "EXISTS"] else []) ++
      [.name table]
  | insert table values _ =>
    .word "INSERT" :: .word "INTO" :: .name table :: .word "VALUES" :: .symbol '(' ::
      separated (values.map Term.pieces) ++ [.symbol ')']
  | selectAll table => [.word "SELECT", .symbol '*', .word "FROM", .name table]
  | select table condition =>
    .word "SELECT" :: .symbol '*' :: .word "FROM" :: .name table :: .word "WHERE" ::
      condition.pieces
  | join left right inner onLeft onRight =>
    .word "SELECT" :: .symbol '*' :: .word "FROM" :: .name left ::
      (if inner then [.word "INNER"] else []) ++ .word "JOIN" :: .name right :: .word "ON" ::
      (onLeft.pieces ++ .symbol '=' :: onRight.pieces)
  | update table settings _ condition _ =>
    .word "UPDATE" :: .name table :: .word "SET" :: separated (settings.map Setting.pieces) ++
      .word "WHERE" :: condition.pieces
  | delete table condition _ =>
    .word "DELETE" :: .word "FROM" :: .name table :: .word "WHERE" :: condition.pieces

/-! ## What is asked for is written -/

theorem Term.written (t : Term) : t.literal.Written t.pieces := by
  cases t with
  | number digits => exact .number digits.2
  | negative digits => exact .negative digits.2
  | text s => exact .text s.2

theorem Reference.written (r : Reference) : r.column.Written r.pieces := by
  obtain ⟨table?, name⟩ := r
  cases table? with
  | none => exact .bare name.2
  | some table => exact .qualified table.2 name.2

theorem Condition.written (c : Condition) : c.comparison.Written c.pieces := by
  unfold pieces
  split
  · exact .literalFirst c.column.written c.value.written
  · exact .columnFirst c.column.written c.value.written

theorem Field.written (f : Field) : f.column.Written f.pieces := by
  have hunique : (Column.uniquePiece ∈ f.rules.map Rule.piece) ↔ .unique ∈ f.rules :=
    List.mem_map_of_injective (a := .unique) Rule.piece_injective
  have hkey : (Column.keyPiece ∈ f.rules.map Rule.piece) ↔ .primaryKey ∈ f.rules :=
    List.mem_map_of_injective (a := .primaryKey) Rule.piece_injective
  have hknown : f.rules.map Rule.piece ⊆ [Column.uniquePiece, Column.keyPiece] := by
    intro p hp
    obtain ⟨rule, -, rfl⟩ := List.mem_map.mp hp
    cases rule <;> simp [Rule.piece]
  have hwritten := @Column.Written.mk f.name f.word f.type (f.rules.map Rule.piece) f.name.2 f.mem
    hknown (f.once.map Rule.piece_injective) fun h => f.key (hkey.mp h)
  simp only [hunique] at hwritten
  exact hwritten

theorem Setting.written (a : Setting) :
    Assigned a.assignment a.pieces := .mk a.column.2 a.value.written

theorem listed {α β : Type} {written : β → List Piece → Prop} {f : α → β}
    {g : α → List Piece} (h : ∀ a, written (f a) (g a)) :
    ∀ {as : List α}, as ≠ [] → Listed written (as.map f) (separated (as.map g))
  | [a], _ => .one (h a)
  | a :: b :: as, _ => .more (h a) (listed h (List.cons_ne_nil b as))

theorem written (s : Sentence) : s.command.Written s.pieces := by
  cases s with
  | createTable table fields nonempty ifNotExists =>
    exact .createTable table.2 (listed Field.written nonempty)
  | dropTable table ifExists => exact .dropTable table.2
  | insert table values nonempty => exact .insert table.2 (listed Term.written nonempty)
  | selectAll table => exact .selectAll table.2
  | select table condition => exact .select table.2 condition.written
  | join left right inner onLeft onRight =>
    exact .join left.2 right.2 (.mk onLeft.written onRight.written)
  | update table settings nonempty condition onKey =>
    exact .update table.2 (listed Setting.written nonempty) condition.written onKey
  | delete table condition onKey => exact .delete table.2 condition.written onKey

end Sentence

/-! ## Everything plain is asked for by a statement -/

theorem Literal.Plain.term {l : Literal} (h : l.Plain) : ∃ t : Term, t.literal = l := by
  obtain ⟨text, quoted⟩ := l
  cases quoted with
  | true => exact ⟨.text ⟨text, by simpa [Literal.Plain] using h⟩, rfl⟩
  | false =>
    obtain ⟨digits, hdigits, rfl | rfl⟩ := h
    · exact ⟨.number ⟨_, hdigits⟩, rfl⟩
    · exact ⟨.negative ⟨_, hdigits⟩, rfl⟩

theorem ColumnRef.Plain.reference {r : ColumnRef} (h : r.Plain) : ∃ s :
    Reference, s.column = r := by
  obtain ⟨table?, name⟩ := r
  obtain ⟨hname, htable⟩ := h
  cases table? with
  | none => exact ⟨⟨none, ⟨name, hname⟩⟩, rfl⟩
  | some table => exact ⟨⟨some ⟨table, htable table rfl⟩, ⟨name, hname⟩⟩, rfl⟩

/-- A condition can be written from either side. -/
theorem Comparison.Plain.condition {c : Comparison} (h : c.Plain) (literalFirst : Bool) :
    ∃ s : Condition, s.comparison = c ∧ s.literalFirst = literalFirst := by
  obtain ⟨column, value⟩ := c
  obtain ⟨r, rfl⟩ := h.1.reference
  obtain ⟨t, rfl⟩ := h.2.term
  exact ⟨⟨r, t, literalFirst⟩, rfl, rfl⟩

theorem Column.Plain.field {c : Column} (h : c.Plain) : ∃ f : Field, f.column = c := by
  obtain ⟨name, type, isKey, isUnique⟩ := c
  obtain ⟨hname, rfl⟩ : IsName name ∧ isKey = decide (name = Value.keyColumn) := h
  obtain ⟨word, hword⟩ : ∃ word, word ∈ type.words := by
    cases type <;> simp [ColumnType.words]
  cases isUnique with
  | true =>
    exact ⟨⟨⟨name, hname⟩, type, word, hword,
      [.unique], by simp, by simp⟩, by simp [Field.column]⟩
  | false =>
    exact ⟨⟨⟨name, hname⟩, type, word, hword,
      [], by simp, by simp⟩, by simp [Field.column]⟩

theorem Sentence.exists_map {α β : Type} {f : α → β} {bs : List β}
    (h : ∀ b ∈ bs, ∃ a, f a = b) : ∃ as : List α, as.map f = bs := by
  induction bs with
  | nil => exact ⟨[], rfl⟩
  | cons b bs ih =>
    obtain ⟨a, rfl⟩ := h b List.mem_cons_self
    obtain ⟨as, rfl⟩ := ih fun b hb => h b (List.mem_cons_of_mem _ hb)
    exact ⟨a :: as, rfl⟩

theorem Command.Plain.sentence {c : Command} (h : c.Plain) : ∃ s : Sentence, s.command = c := by
  cases c with
  | createTable table columns ifNotExists =>
    obtain ⟨ht, hne, hc⟩ := h
    obtain ⟨fields, rfl⟩ := exists_map fun c hmem => (hc c hmem).field
    exact ⟨.createTable ⟨table, ht⟩ fields (by simpa using hne) ifNotExists, rfl⟩
  | dropTable table ifExists => exact ⟨.dropTable ⟨table, h⟩ ifExists, rfl⟩
  | insert table values =>
    obtain ⟨ht, hne, hv⟩ := h
    obtain ⟨terms, rfl⟩ := exists_map fun l hmem => (hv l hmem).term
    exact ⟨.insert ⟨table, ht⟩ terms (by simpa using hne), rfl⟩
  | select table where? =>
    obtain ⟨ht, hw⟩ := h
    cases where? with
    | none => exact ⟨.selectAll ⟨table, ht⟩, rfl⟩
    | some c =>
      obtain ⟨condition, rfl, -⟩ := (hw c rfl).condition false
      exact ⟨.select ⟨table, ht⟩ condition, rfl⟩
  | join left right on =>
    obtain ⟨hl, hr, ho⟩ := h
    obtain ⟨onLeft, onRight⟩ := on
    obtain ⟨l, rfl⟩ := ho.1.reference
    obtain ⟨r, rfl⟩ := ho.2.reference
    exact ⟨.join ⟨left, hl⟩ ⟨right, hr⟩ false l r, rfl⟩
  | update table assignments key =>
    obtain ⟨ht, hne, hnodup, ha, hk, hkey⟩ := h
    have heach : ∀ a ∈ assignments, ∃ b : Setting, b.assignment = a := fun a hmem => by
      obtain ⟨column, value⟩ := a
      obtain ⟨t, rfl⟩ := (ha _ hmem).2.term
      exact ⟨⟨⟨column, (ha _ hmem).1⟩, t⟩, rfl⟩
    obtain ⟨settings, rfl⟩ := exists_map heach
    obtain ⟨condition, rfl, -⟩ := hk.condition false
    refine ⟨.update ⟨table, ht⟩ settings (by simpa using hne) condition hkey, ?_⟩
    exact congrArg (Command.update table · condition.comparison) (Command.settled_of_nodup hnodup)
  | delete table key =>
    obtain ⟨ht, hk, hkey⟩ := h
    obtain ⟨condition, rfl, -⟩ := hk.condition false
    exact ⟨.delete ⟨table, ht⟩ condition hkey, rfl⟩

/-! ## The trees of statements -/

namespace Sql.Frontend

/-- The node of a literal. -/
def DrawsTerm (F : Frontend) (n : F.Node) : Term → Prop
  | .number digits =>
    F.kind n = .literal ∧ F.text n "this" = digits ∧ F.has n "is_string" = false
  | .negative digits =>
    F.kind n = .neg ∧ ∃ m, F.child? n "this" = some m ∧ F.kind m = .literal ∧
      F.text m "this" = digits ∧ F.has m "is_string" = false
  | .text s => F.kind n = .literal ∧ F.text n "this" = s ∧ F.has n "is_string" = true

/-- The node of a column, which has no table where none stands before it. -/
structure DrawsReference (F : Frontend) (n : F.Node) (r : Reference) : Prop where
  kind : F.kind n = .column
  name : F.name n = r.name
  table : F.text n "table" = (r.column.table?.getD "")

/-- The node of a condition keeps its two sides in the order in which they are written. -/
structure DrawsCondition (F : Frontend) (n : F.Node) (c : Condition) : Prop where
  kind : F.kind n = .equals
  sides : if c.literalFirst then F.DrawsTerm (F.left n) c.value ∧
    F.DrawsReference (F.right n) c.column
    else F.DrawsReference (F.left n) c.column ∧ F.DrawsTerm (F.right n) c.value

/-- The node of a column in a definition, whose type is shown by one of its words. -/
structure DrawsField (F : Frontend) (n : F.Node) (f : Field) : Prop where
  kind : F.kind n = .columnDef
  name : F.name n = f.name
  type : ∃ t, F.child? n "kind" = some t ∧ F.print t ∈ f.type.words
  rules : List.Forall₂ (fun m rule => (F.child? m "kind").map F.kind = some (Rule.kind rule))
    (F.children n "constraints") f.rules

structure DrawsSetting (F : Frontend) (n : F.Node) (a : Setting) : Prop where
  kind : F.kind n = .equals
  column : F.kind (F.left n) = .column
  name : F.name (F.left n) = a.column
  value : F.DrawsTerm (F.right n) a.value

/-- The condition of a statement stands in a clause. -/
def DrawsWhere (F : Frontend) (n : F.Node) (c : Condition) : Prop :=
  ∃ clause e, F.child? n "where" = some clause ∧ F.child? clause "this" = some e ∧
    F.DrawsCondition e c

/-- The node of a statement. -/
def Draws (F : Frontend) (n : F.Node) : Sentence → Prop
  | .createTable table fields _ ifNotExists => F.kind n = .create ∧ F.text n "kind" = "TABLE" ∧
      F.has n "exists" = ifNotExists ∧ ∃ schema, F.child? n "this" = some schema ∧
        F.kind schema = .schema ∧ F.Names (F.child? schema "this") table ∧
        List.Forall₂ F.DrawsField (F.children schema "expressions") fields
  | .dropTable table ifExists => F.kind n = .drop ∧ F.text n "kind" = "TABLE" ∧
      F.has n "exists" = ifExists ∧ F.Names (F.child? n "this") table
  | .insert table values _ => F.kind n = .insert ∧ F.Names (F.child? n "this") table ∧
      ∃ rows row, F.child? n "expression" = some rows ∧ F.kind rows = .values ∧
        F.children rows "expressions" = [row] ∧ F.kind row = .tuple ∧
        List.Forall₂ F.DrawsTerm (F.children row "expressions") values
  | .selectAll table =>
    F.Selects n table ∧ F.children n "joins" = [] ∧ F.child? n "where" = none
  | .select table condition =>
    F.Selects n table ∧ F.children n "joins" = [] ∧ F.DrawsWhere n condition
  | .join left right inner onLeft onRight => F.Selects n left ∧ F.child? n "where" = none ∧
      ∃ j on, F.children n "joins" = [j] ∧ F.text j "side" = "" ∧
        F.text j "kind" = (if inner then "INNER" else "") ∧ F.Names (F.child? j "this") right ∧
        F.child? j "on" = some on ∧ F.kind on = .equals ∧
        F.DrawsReference (F.left on) onLeft ∧ F.DrawsReference (F.right on) onRight
  | .update table settings _ condition _ =>
    F.kind n = .update ∧ F.Names (F.child? n "this") table ∧
      List.Forall₂ F.DrawsSetting (F.children n "expressions") settings ∧
      F.DrawsWhere n condition
  | .delete table condition _ =>
    F.kind n = .delete ∧ F.Names (F.child? n "this") table ∧ F.DrawsWhere n condition

variable {F : Frontend} {n : F.Node}

theorem DrawsTerm.denotes {t : Term} (h : F.DrawsTerm n t) : F.Denotes n t.literal := by
  cases t with
  | number digits =>
    obtain ⟨hn, htext, hnumber⟩ := h
    have hdenotes := Denotes.literal (F := F) hn
    rwa [htext, hnumber] at hdenotes
  | negative digits =>
    obtain ⟨hn, m, hm, hliteral, htext, hnumber⟩ := h
    have hdenotes := Denotes.negative (F := F) hn hm hliteral hnumber
    rwa [htext] at hdenotes
  | text s =>
    obtain ⟨hn, htext, hstring⟩ := h
    have hdenotes := Denotes.literal (F := F) hn
    rwa [htext, hstring] at hdenotes

theorem DrawsTerm.not_column {t : Term} (h : F.DrawsTerm n t) : F.kind n ≠ .column := by
  have hkind : F.kind n = .literal ∨ F.kind n = .neg := by
    cases t with
    | number digits => exact .inl h.1
    | negative digits => exact .inr h.1
    | text s => exact .inl h.1
  rcases hkind with hkind | hkind <;> rw [hkind] <;> decide

theorem DrawsReference.columnRef {r : Reference} (h : F.DrawsReference n r) :
    F.columnRef n = r.column := by
  obtain ⟨-, hname, htable⟩ := h
  obtain ⟨table?, name⟩ := r
  unfold Frontend.columnRef
  rw [hname, htable]
  cases table? with
  | none => rfl
  | some table => exact congrArg (ColumnRef.mk · name.1) (if_neg table.2.1)

theorem DrawsCondition.compares {c : Condition} (h : F.DrawsCondition n c) :
    F.Compares n c.comparison := by
  obtain ⟨hkind, hsides⟩ := h
  unfold Condition.comparison
  split at hsides
  · rw [← hsides.2.columnRef]
    exact .literalFirst hkind hsides.1.not_column hsides.2.kind hsides.1.denotes
  · rw [← hsides.1.columnRef]
    exact .columnFirst hkind hsides.1.kind hsides.2.denotes

theorem DrawsWhere.conditional {c : Condition} (h : F.DrawsWhere n c) :
    F.Conditional n c.comparison := by
  obtain ⟨clause, e, hclause, he, hc⟩ := h
  exact ⟨clause, e, hclause, he, hc.compares⟩

theorem DrawsSetting.assigns {a : Setting} (h : F.DrawsSetting n a) : F.Assigns n a.assignment :=
  ⟨h.kind, h.column, h.name.symm, h.value.denotes⟩

theorem columnType_of_word {column word : String} {type : ColumnType} (h : word ∈ type.words) :
    Command.columnType column word = .ok type := by
  refine columnType_eq_ok.mpr ?_
  have hall : ∀ type : ColumnType, ∀ word ∈ type.words, ColumnType.ofWord?
      (Text.trim (String.ofList (word.toList.takeWhile (· ≠ '(')))) = some type := by
    intro type
    cases type <;> decide
  exact hall type word h

theorem marks_of_rules {column : String} {nodes : List F.Node} {rules : List Rule}
    (h : List.Forall₂ (fun m rule => (F.child? m "kind").map F.kind = some (Rule.kind rule)) nodes
      rules)
    (key : .primaryKey ∈ rules → column = Value.keyColumn) :
    F.Marks column nodes (decide (.unique ∈ rules)) := by
  induction h with
  | nil => exact .none
  | @cons m rule nodes rules hm _ ih =>
    have hrest := ih fun hmem => key (List.mem_cons_of_mem _ hmem)
    cases rule with
    | unique => simpa using Marks.unique hm hrest
    | primaryKey => simpa using Marks.primaryKey hm (key List.mem_cons_self) hrest

theorem DrawsField.defines {f : Field} (h : F.DrawsField n f) : F.Defines n f.column := by
  obtain ⟨hkind, hname, ⟨t, ht, hword⟩, hrules⟩ := h
  refine ⟨hkind, hname.symm, ⟨t, ht, columnType_of_word hword⟩, ?_, ?_⟩
  · rw [hname]
    rfl
  · rw [hname]
    exact marks_of_rules hrules f.key

theorem forall₂_map {α β γ : Type} {R : α → β → Prop}
    {S : α → γ → Prop} {f : β → γ}
    {as : List α} {bs : List β} (hall : List.Forall₂ R as bs)
    (h : ∀ {a b}, R a b → S a (f b)) : List.Forall₂ S as (bs.map f) :=
  List.forall₂_map_right_iff.mpr (hall.imp fun _ _ => h)

/-- The tree of a statement says the command that the statement asks for. -/
theorem Draws.accepts {s : Sentence} (h : F.Draws n s) : F.Accepts n s.command := by
  cases s with
  | createTable table fields nonempty ifNotExists =>
    obtain ⟨hn, hkind, rfl, schema, hschema, isSchema,
      ⟨-, m, hm, isTable, hname⟩, hfields⟩ := h
    have each := forall₂_map (f := Field.column) hfields DrawsField.defines
    have haccepts := Accepts.createTable hn (by rw [hkind]; decide) hschema isSchema hm isTable
      (by simpa using nonempty) each
    rwa [hname] at haccepts
  | dropTable table ifExists =>
    obtain ⟨hn, hkind, rfl, htable⟩ := h
    exact .dropTable hn (by rw [hkind]; decide) htable
  | insert table values nonempty =>
    obtain ⟨hn, htable, rows, row, hrows, isValues, hrow, isTuple, hvalues⟩ := h
    refine .insert hn htable hrows isValues hrow ?_
    rw [items, if_pos isTuple]
    exact forall₂_map hvalues DrawsTerm.denotes
  | selectAll table => exact .selectAll h.1 h.2.1 h.2.2
  | select table condition => exact .select h.1 h.2.1 h.2.2.conditional
  | join left right inner onLeft onRight =>
    obtain ⟨hn, hwhere, j, on, hj, hside, hkind, hright, hon, hequals, hl, hr⟩ := h
    refine .join hn hj hwhere ⟨?_, hright, on, hon, hequals, hl.kind, hr.kind, ?_⟩
    · rw [joinWords, hside, hkind]
      cases inner <;> decide
    · rw [hl.columnRef, hr.columnRef]
  | update table settings nonempty condition onKey =>
    obtain ⟨hn, htable, hsettings, hwhere⟩ := h
    exact .update hn htable (by simpa using nonempty)
      (forall₂_map hsettings DrawsSetting.assigns) hwhere.conditional onKey
  | delete table condition onKey => exact .delete h.1 h.2.1 h.2.2.conditional onKey

/-! ## Texts -/

/-- Where the tree of a statement is drawn of its text, the text is made the command that the
statement asks for, whatever blanks are around it. -/
theorem ofText_of_draws {s : Sentence} {lead body trail : List Char} (hlead : IsGap lead)
    (htrail : IsGap trail) (hbody : Writes s.pieces body)
    (hread : F.read (String.ofList body) = some [some n]) (hdraws : F.Draws n s) :
    F.ofText (String.ofList (lead ++ body ++ trail)) = .ok s.command := by
  have hlegible := s.written.legible
  have htrim := trim_of_writes hlead htrail hbody hlegible
  obtain ⟨w, ps, hpieces, hknown⟩ := s.written.first
  rw [hpieces] at hbody hlegible
  have hword := leadingWord_of_writes hbody hlegible
  have hnonempty : String.ofList body ≠ "" := by
    obtain ⟨c, tail, rfl, -⟩ := hbody.cons (hlegible _ (by simp))
    simp [-String.ofList_cons]
  refine ofText_eq_ok.mpr ⟨n, ⟨?_, ?_, [some n], ?_, rfl⟩, hdraws.accepts⟩
  · rwa [htrim]
  · rwa [htrim, hword]
  · rwa [htrim]

/-- Every plain command is asked for by a statement, and where a statement's text is drawn as its
tree, the text is made the command that the statement asks for. -/
theorem written_and_read (F : Frontend) :
    (∀ c : Command, c.Plain →
      ∃ (s : Sentence) (body : List Char), s.command = c ∧ Writes s.pieces body) ∧
    ∀ (s : Sentence) (lead body trail : List Char), IsGap lead → IsGap trail →
      Writes s.pieces body →
      (∃ n, F.read (String.ofList body) = some [some n] ∧ F.Draws n s) →
      F.ofText (String.ofList (lead ++ body ++ trail)) = .ok s.command := by
  refine ⟨fun c hc => ?_, fun s lead body trail hlead htrail hbody ⟨n, hread, hdraws⟩ =>
    ofText_of_draws hlead htrail hbody hread hdraws⟩
  obtain ⟨s, rfl⟩ := hc.sentence
  obtain ⟨w, ps, hpieces, -⟩ := s.written.first
  have hne : s.pieces ≠ [] := by simp [hpieces]
  obtain ⟨body, hbody⟩ := exists_writes hne s.written.legible
  exact ⟨s, body, rfl, hbody⟩

end Sql.Frontend

namespace Sentence

/-- A deletion whose condition is written from the other side. -/
def deletion : Sentence :=
  .delete ⟨"a b", by simp [IsName]⟩
    ⟨⟨none, ⟨"id", by simp [IsName]⟩⟩, .text ⟨"x", by simp⟩, true⟩ rfl

/-- It can be written with other capitals and blanks. -/
theorem writes_deletion :
    Writes deletion.pieces "delete FROM `a b`\tWhere 'x'= `id`".toList := by
  have hkey : Writes [.text "x", .symbol '=', .name "id"]
      ("'x'".toList ++ [] ++ (['='] ++ [' '] ++ "`id`".toList)) :=
    .next rfl (by decide) (by decide) (.next rfl (by decide) (by decide) (.last rfl))
  have htable : Writes [.name "a b", .word "WHERE", .text "x", .symbol '=', .name "id"]
      ("`a b`".toList ++ ['\t'] ++ ("Where".toList ++ [' '] ++ _)) :=
    .next rfl (by decide) (by decide)
      (.next ⟨by decide, by decide⟩ (by decide) (by decide) hkey)
  have hbody : Writes deletion.pieces
      ("delete".toList ++ [' '] ++ ("FROM".toList ++ [' '] ++ _)) :=
    .next ⟨by decide, by decide⟩ (by decide) (by decide)
      (.next ⟨by decide, by decide⟩ (by decide) (by decide) htable)
  exact hbody

/-- The table, the text and the column of a deletion whose condition is so written. -/
def turned? : List Statement → Option (QualifiedName × String × QualifiedName)
  | [.delete (some (.table t _ _)) (some (.binary .eq (.text x) (.column c)))] => some (t, x, c)
  | _ => none

/-- The tree that is drawn of it. -/
theorem read_deletion : ∃ n,
    Frontend.own.read "delete FROM `a b`\tWhere 'x'= `id`" = some [some n] ∧
      Frontend.own.Draws n deletion := by
  have hview : (Statement.read? "delete FROM `a b`\tWhere 'x'= `id`").bind turned? =
      some (⟨[], "a b", true⟩, "x", ⟨[], "id", true⟩) := by decide +kernel
  obtain ⟨found, hread, hview⟩ := Option.bind_eq_some_iff.mp hview
  unfold turned? at hview
  split at hview
  · rename_i t shown joins x c
    obtain ⟨ht, rfl, hc⟩ : t = ⟨[], "a b", true⟩ ∧ x = "x" ∧
        c = ⟨[], "id", true⟩ := by
      simpa using hview
    refine ⟨.statement (.delete (some (.table t shown joins))
      (some (.binary .eq (.text "x") (.column c)))), ?_, ?_⟩
    · have hown (text : String) : Frontend.own.read text =
          (Statement.read? text).map fun found => found.map fun s => some (Part.statement s) := rfl
      rw [hown, hread]
      rfl
    · subst ht hc
      exact ⟨rfl, ⟨by decide, _, rfl, rfl, rfl⟩, _, _, rfl, rfl, rfl,
        ⟨rfl, rfl, rfl⟩, rfl, rfl, rfl⟩
  · cases hview

end Sentence

namespace Sql.Frontend

/-- A condition that is written from the other side, with other capitals and blanks. -/
theorem written_and_read_deletion :
    own.ofText "\n delete FROM \x60a b\x60\tWhere 'x'= \x60id\x60 " =
      .ok (.delete "a b" ⟨⟨none, "id"⟩, ⟨"x", true⟩⟩) := by
  have hread := (written_and_read own).2 deletion ['\n', ' '] _ [' '] (by decide) (by decide)
    writes_deletion read_deletion
  exact (congrArg own.ofText (by decide +kernel)).trans hread

end Sql.Frontend

/-- A name that is taken for a word of the statement, though it stands between back quotes. -/
theorem Command.quoted_if_unread : ∃ s : Sentence, s.command = .dropTable "if" false ∧
    Writes s.pieces "DROP TABLE \x60if\x60".toList ∧
    Command.ofText "DROP TABLE \x60if\x60" = .error (.command .unparsable) := by
  refine ⟨.dropTable ⟨"if", by simp [IsName]⟩ false, rfl, ?_, ?_⟩
  · have hname : Writes [.word "TABLE", .name "if"]
      ("TABLE".toList ++ [' '] ++ "\x60if\x60".toList) :=
      .next ⟨by decide, by decide⟩ (by decide) (by decide) (.last rfl)
    have hbody : Writes [.word "DROP", .word "TABLE", .name "if"] ("DROP".toList ++ [' '] ++ _) :=
      .next ⟨by decide, by decide⟩ (by decide) (by decide) hname
    exact hbody
  · have hread : Statement.read? "DROP TABLE \x60if\x60" = none := by
      rw [← Option.isNone_iff_eq_none]
      decide +kernel
    have htrim : Text.trim "DROP TABLE \x60if\x60" = "DROP TABLE \x60if\x60" := by decide +kernel
    have hword : Command.leadingWord "DROP TABLE \x60if\x60" = "DROP" := by decide +kernel
    rw [Command.ofText, htrim, hread]
    simp only [hword]
    rfl

end Tabulary
