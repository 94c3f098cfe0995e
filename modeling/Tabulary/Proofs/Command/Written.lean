import Mathlib.Data.List.Induction
import Tabulary.Command.Reader
import Tabulary.Proofs.Keyed
import Tabulary.Proofs.Sql.Spelling

/-!
How a command is written: the pieces of the statements that ask for it.  Names stand between back
quotes; a literal is a number with or without a minus sign, or a text between single quotes.  What
each command can be written with is a relation, since a condition can be written from either side, a
type has several names, and so on.
-/

namespace Tabulary

open Sql

/-- What can stand between back quotes as a name. -/
def IsName (s : String) : Prop := s ≠ "" ∧ '\x60' ∉ s.toList

def IsNumeral (s : String) : Prop := s ≠ "" ∧ ∀ c ∈ s.toList, c.isDigit = true

/-- Items with commas between them. -/
inductive Listed {α : Type} (written : α → List Piece → Prop) :
    List α → List Piece → Prop
  | one {a : α} {ps : List Piece} (h : written a ps) : Listed written [a] ps
  | more {a : α} {as : List α} {ps qs : List Piece} (h : written a ps)
      (rest : Listed written as qs) : Listed written (a :: as) (ps ++ .symbol ',' :: qs)

namespace Literal

/-- The texts of a literal: digits, with a minus sign before them or not, or between quotes a text
without quotes and backslashes. -/
def Plain (l : Literal) : Prop :=
  if l.quoted then '\'' ∉ l.text.toList ∧ '\\' ∉ l.text.toList
  else ∃ digits, IsNumeral digits ∧ (l.text = digits ∨ l.text = "-" ++ digits)

inductive Written : Literal → List Piece → Prop
  | number {digits : String} (h : IsNumeral digits) : Written ⟨digits, false⟩ [.number digits]
  | negative {digits : String} (h : IsNumeral digits) :
      Written ⟨"-" ++ digits, false⟩ [.symbol '-', .number digits]
  | text {s : String} (h : '\'' ∉ s.toList ∧ '\\' ∉ s.toList) :
      Written ⟨s, true⟩ [.text s]

end Literal

namespace ColumnRef

def Plain (r : ColumnRef) : Prop := IsName r.name ∧ ∀ t ∈ r.table?, IsName t

inductive Written : ColumnRef → List Piece → Prop
  | bare {name : String} (h : IsName name) : Written ⟨none, name⟩ [.name name]
  | qualified {table name : String} (ht : IsName table) (h : IsName name) :
      Written ⟨some table, name⟩ [.name table, .symbol '.', .name name]

end ColumnRef

namespace Comparison

def Plain (c : Comparison) : Prop := c.column.Plain ∧ c.value.Plain

inductive Written : Comparison → List Piece → Prop
  | columnFirst {c : ColumnRef} {l : Literal} {ps qs : List Piece} (hc : c.Written ps)
      (hl : l.Written qs) : Written ⟨c, l⟩ (ps ++ .symbol '=' :: qs)
  | literalFirst {c : ColumnRef} {l : Literal} {ps qs : List Piece} (hc : c.Written ps)
      (hl : l.Written qs) : Written ⟨c, l⟩ (qs ++ .symbol '=' :: ps)

end Comparison

namespace Pairing

def Plain (p : Pairing) : Prop := p.left.Plain ∧ p.right.Plain

inductive Written : Pairing → List Piece → Prop
  | mk {l r : ColumnRef} {ps qs : List Piece} (hl : l.Written ps) (hr : r.Written qs) :
      Written ⟨l, r⟩ (ps ++ .symbol '=' :: qs)

end Pairing

namespace ColumnType

/-- The words for each type. -/
def words : ColumnType → List String
  | integer => ["INT", "INTEGER", "BIGINT"]
  | text => ["STRING", "TEXT", "VARCHAR"]

end ColumnType

namespace Column

/-- The key is the column with the name of the key. -/
def Plain (c : Column) : Prop := IsName c.name ∧ c.isKey = decide (c.name = Value.keyColumn)

def uniquePiece : Piece := .word "UNIQUE"

def keyPiece : Piece := .pair "PRIMARY" "KEY"

/-- A column is written with its name, its type, and the rules it keeps.  The key may be named as
such. -/
inductive Written : Column → List Piece → Prop
  | mk {name word : String} {type : ColumnType} {rules : List Piece} (h : IsName name)
      (mem : word ∈ type.words) (known : rules ⊆ [uniquePiece, keyPiece]) (once : rules.Nodup)
      (key : keyPiece ∈ rules → name = Value.keyColumn) :
      Written ⟨name, type, name = Value.keyColumn, uniquePiece ∈ rules⟩
      (.name name :: .word word :: rules)

end Column

/-- A column and the literal that is assigned to it. -/
inductive Assigned : String × Literal → List Piece → Prop
  | mk {name : String} {l : Literal} {qs : List Piece} (h : IsName name) (hl : l.Written qs) :
      Assigned (name, l) (.name name :: .symbol '=' :: qs)

namespace Command

/-- Assignments one after the other: of several to a column the last one counts, in the place of the
first. -/
def settled (found : List (String × Literal)) : List (String × Literal) :=
  found.foldl (fun done a => Keyed.set a.1 a.2 done) []

/-- The commands that can be written. -/
def Plain : Command → Prop
  | createTable table columns _ => IsName table ∧ columns ≠ [] ∧ ∀ c ∈ columns, c.Plain
  | dropTable table _ => IsName table
  | insert table values => IsName table ∧ values ≠ [] ∧ ∀ l ∈ values, l.Plain
  | select table where? => IsName table ∧ ∀ c ∈ where?, c.Plain
  | join left right on => IsName left ∧ IsName right ∧ on.Plain
  | update table assignments key =>
    IsName table ∧ assignments ≠ [] ∧ (Keyed.keys assignments).Nodup ∧
      (∀ a ∈ assignments, IsName a.1 ∧ a.2.Plain) ∧ key.Plain ∧
      key.column.name = Value.keyColumn
  | delete table key => IsName table ∧ key.Plain ∧ key.column.name = Value.keyColumn

inductive Written : Command → List Piece → Prop
  | createTable {table : String} {columns : List Column} {ifNotExists : Bool} {ps : List Piece}
      (ht : IsName table) (hc : Listed Column.Written columns ps) :
      Written (.createTable table columns ifNotExists)
        (.word "CREATE" :: .word "TABLE" ::
          (if ifNotExists then [.word "IF", .word "NOT", .word "EXISTS"] else []) ++
          .name table :: .symbol '(' :: ps ++ [.symbol ')'])
  | dropTable {table : String} {ifExists : Bool} (ht : IsName table) :
      Written (.dropTable table ifExists)
        (.word "DROP" :: .word "TABLE" :: (if ifExists then [.word "IF", .word "EXISTS"] else []) ++
          [.name table])
  | insert {table : String} {values : List Literal} {ps : List Piece} (ht : IsName table)
      (hv : Listed Literal.Written values ps) :
      Written (.insert table values)
        (.word "INSERT" :: .word "INTO" :: .name table :: .word "VALUES" :: .symbol '(' :: ps ++
          [.symbol ')'])
  | selectAll {table : String} (ht : IsName table) :
      Written (.select table none) [.word "SELECT", .symbol '*', .word "FROM", .name table]
  | select {table : String} {c : Comparison} {ps : List Piece} (ht : IsName table)
      (hc : c.Written ps) : Written (.select table (some c))
        (.word "SELECT" :: .symbol '*' :: .word "FROM" :: .name table :: .word "WHERE" :: ps)
  | join {left right : String} {on : Pairing} {inner : Bool} {ps : List Piece} (hl : IsName left)
      (hr : IsName right) (ho : on.Written ps) :
      Written (.join left right on)
        (.word "SELECT" :: .symbol '*' :: .word "FROM" :: .name left ::
          (if inner then [.word "INNER"] else []) ++ .word "JOIN" :: .name right :: .word "ON" ::
          ps)
  | update {table : String} {found : List (String × Literal)} {key : Comparison}
      {ps qs : List Piece} (ht : IsName table) (ha : Listed Assigned found ps) (hk : key.Written qs)
      (name_eq : key.column.name = Value.keyColumn) :
      Written (.update table (settled found) key)
        (.word "UPDATE" :: .name table :: .word "SET" :: ps ++ .word "WHERE" :: qs)
  | delete {table : String} {key : Comparison} {qs : List Piece} (ht : IsName table)
      (hk : key.Written qs) (name_eq : key.column.name = Value.keyColumn) :
      Written (.delete table key)
        (.word "DELETE" :: .word "FROM" :: .name table :: .word "WHERE" :: qs)

end Command

namespace Command

/-! ## Assignments -/

theorem settled_concat (found : List (String × Literal)) (a : String × Literal) :
    settled (found ++ [a]) = Keyed.set a.1 a.2 (settled found) := by simp [settled]

/-- The last value of a column is the one that it is given. -/
theorem lookup_settled (found : List (String × Literal)) (name : String) :
    (settled found).lookup name = found.reverse.lookup name := by
  induction found using List.reverseRecOn with
  | nil => rfl
  | append_singleton found a ih =>
    obtain ⟨k, v⟩ := a
    rw [settled_concat, Keyed.lookup_set, ih, List.reverse_concat, Keyed.lookup_cons_eq]

/-- Each column stands where it is named first. -/
theorem keys_settled (found : List (String × Literal)) :
    Keyed.keys (settled found) = (Keyed.keys found).eraseDups := by
  induction found using List.reverseRecOn with
  | nil => rfl
  | append_singleton found a ih =>
    obtain ⟨k, v⟩ := a
    have hkeys : Keyed.keys (found ++ [(k, v)]) = Keyed.keys found ++ [k] := by simp [Keyed.keys]
    rw [settled_concat, hkeys, List.eraseDups_append, ← ih]
    by_cases hk : k ∈ Keyed.keys (settled found)
    · have hseen : [k].removeAll (Keyed.keys found) = [] := by
        rw [ih, List.mem_eraseDups] at hk
        simp [List.removeAll, hk]
      simp [Keyed.keys_set_of_mem hk, hseen]
    · have hnew : [k].removeAll (Keyed.keys found) = [k] := by
        rw [ih, List.mem_eraseDups] at hk
        simp [List.removeAll, hk]
      rw [Keyed.set_of_not_mem hk, hnew]
      simp [Keyed.keys, List.eraseDups_cons]

theorem settled_ne_nil {found : List (String × Literal)} (h : found ≠ []) :
    settled found ≠ [] := by
  intro hnil
  have hkeys := keys_settled found
  obtain ⟨a, found, rfl⟩ := List.exists_cons_of_ne_nil h
  simp [hnil, Keyed.keys, List.eraseDups_cons] at hkeys

/-- Assignments to different columns stand for themselves. -/
theorem settled_of_nodup {as : List (String × Literal)} (h : (Keyed.keys as).Nodup) :
    settled as = as := by
  induction as using List.reverseRecOn with
  | nil => rfl
  | append_singleton as a ih =>
    obtain ⟨k, v⟩ := a
    have hkeys : Keyed.keys (as ++ [(k, v)]) = Keyed.keys as ++ [k] := by simp [Keyed.keys]
    rw [hkeys, List.nodup_append] at h
    have hmem : k ∉ Keyed.keys as := fun hk => h.2.2 k hk k (by simp) rfl
    rw [settled_concat, ih h.1, Keyed.set_of_not_mem hmem]

end Command

/-! ## What is written consists of pieces that can be told apart -/

/-- Every piece can be told apart from what follows it. -/
def Legible (ps : List Piece) : Prop := ∀ p ∈ ps, p.Valid

@[simp] theorem legible_nil : Legible [] := by simp [Legible]

@[simp] theorem legible_cons {p : Piece} {ps : List Piece} :
    Legible (p :: ps) ↔ p.Valid ∧ Legible ps := List.forall_mem_cons

@[simp] theorem legible_append {ps qs : List Piece} :
    Legible (ps ++ qs) ↔ Legible ps ∧ Legible qs := List.forall_mem_append

/-- The words and symbols of the statements. -/
def fixedPieces : List Piece :=
  ["CREATE", "TABLE", "IF", "NOT", "EXISTS", "DROP", "INSERT", "INTO", "VALUES", "SELECT", "FROM",
    "WHERE", "INNER", "JOIN", "ON", "UPDATE", "SET", "DELETE", "UNIQUE", "INT", "INTEGER", "BIGINT",
    "STRING", "TEXT",
    "VARCHAR"].map .word ++ [.pair "PRIMARY" "KEY"] ++
    ['(', ')', ',', '=', '.', '*', '-'].map .symbol

theorem valid_of_fixed : ∀ p ∈ fixedPieces, p.Valid := by decide

theorem IsName.valid {s : String} (h : IsName s) : (Piece.name s).Valid := h.2

theorem IsNumeral.valid {s : String} (h : IsNumeral s) : (Piece.number s).Valid := h

section Legible

variable {ps : List Piece}

theorem Listed.legible {α : Type} {written : α → List Piece → Prop}
    (hw : ∀ a ps, written a ps → Legible ps) {as : List α} (h : Listed written as ps) :
    Legible ps := by
  induction h with
  | one h => exact hw _ _ h
  | more h rest ih => simpa using ⟨hw _ _ h, valid_of_fixed (.symbol ',') (by decide), ih⟩

theorem Literal.Written.legible {l : Literal} (h : l.Written ps) : Legible ps := by
  cases h with
  | number h => simpa using h.valid
  | negative h => simpa using ⟨valid_of_fixed (.symbol '-') (by decide), h.valid⟩
  | text h => simpa [Piece.Valid] using h

theorem ColumnRef.Written.legible {r : ColumnRef} (h : r.Written ps) : Legible ps := by
  cases h with
  | bare h => simpa using h.valid
  | qualified ht h => simpa using ⟨ht.valid, valid_of_fixed (.symbol '.') (by decide), h.valid⟩

theorem Comparison.Written.legible {c : Comparison} (h : c.Written ps) : Legible ps := by
  have hsymbol := valid_of_fixed (.symbol '=') (by decide)
  cases h with
  | columnFirst hc hl => simpa using ⟨hc.legible, hsymbol, hl.legible⟩
  | literalFirst hc hl => simpa using ⟨hl.legible, hsymbol, hc.legible⟩

theorem Pairing.Written.legible {on : Pairing} (h : on.Written ps) : Legible ps := by
  obtain ⟨hl, hr⟩ := h
  simpa using ⟨hl.legible, valid_of_fixed (.symbol '=') (by decide), hr.legible⟩

theorem Assigned.legible {a : String × Literal} (h : Assigned a ps) : Legible ps := by
  obtain ⟨hname, hl⟩ := h
  simpa using ⟨hname.valid, valid_of_fixed (.symbol '=') (by decide), hl.legible⟩

theorem Column.Written.legible {c : Column} (h : c.Written ps) : Legible ps := by
  obtain ⟨hname, hmem, hknown, -, -⟩ := h
  rename_i word type rules
  have hword : (Piece.word word).Valid := by
    refine valid_of_fixed _ ?_
    have hall : ∀ type : ColumnType, ∀ word ∈ type.words,
        Piece.word word ∈ fixedPieces := by
      intro type
      cases type <;> decide
    exact hall type word hmem
  have hfixed : ∀ p ∈ [uniquePiece, keyPiece], p ∈ fixedPieces := by decide
  have hrules : Legible rules := fun p hp => valid_of_fixed p (hfixed p (hknown hp))
  simpa using ⟨hname.valid, hword, hrules⟩

theorem Command.Written.legible {c : Command} (h : c.Written ps) : Legible ps := by
  cases h with
  | createTable ht hc =>
    rename_i ifNotExists ps
    have hcolumns := hc.legible fun _ _ => Column.Written.legible
    cases ifNotExists <;> simp [ht.valid, hcolumns, valid_of_fixed, fixedPieces]
  | dropTable ht =>
    rename_i ifExists
    cases ifExists <;> simp [ht.valid, valid_of_fixed, fixedPieces]
  | insert ht hv =>
    have hvalues := hv.legible fun _ _ => Literal.Written.legible
    simp [ht.valid, hvalues, valid_of_fixed, fixedPieces]
  | selectAll ht => simp [ht.valid, valid_of_fixed, fixedPieces]
  | select ht hc => simp [ht.valid, hc.legible, valid_of_fixed, fixedPieces]
  | join hl hr ho =>
    rename_i inner ps
    cases inner <;> simp [hl.valid, hr.valid, ho.legible, valid_of_fixed, fixedPieces]
  | update ht ha hk name_eq =>
    have hassigned := ha.legible fun _ _ => Assigned.legible
    simp [ht.valid, hassigned, hk.legible, valid_of_fixed, fixedPieces]
  | delete ht hk name_eq => simp [ht.valid, hk.legible, valid_of_fixed, fixedPieces]

end Legible
end Tabulary
