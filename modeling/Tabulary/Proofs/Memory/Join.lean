import Mathlib.Data.List.Perm.Basic
import Mathlib.Data.List.Rotate
import Tabulary.Proofs.Catalog.Definition

/-!
Joins of two tables.  A reference names a column of one of the tables if it could not be to the
other one, and a condition links the tables if its references name a column of each.  It does not
matter in which order they are written, and exchanging the tables exchanges the two halves of each
pair.
-/

namespace Tabulary

/-- The reference names this column of a table, and could not be to the other table. -/
def ColumnRef.Names (ref : ColumnRef) (own other : Schema) (c : Column) : Prop :=
  own.column? ref.name = some c ∧
    match ref.table? with
    | some t => t = own.name
    | none => other.column? ref.name = none

namespace Pairing

/-- The condition with its sides exchanged. -/
def swap (on : Pairing) : Pairing := ⟨on.right, on.left⟩

/-- The condition is about this column of the left table and this column of the right one, whichever
it names first. -/
def Links (on : Pairing) (left right : Schema) (c d : Column) : Prop :=
  on.left.Names left right c ∧ on.right.Names right left d ∨
    on.left.Names right left d ∧ on.right.Names left right c

end Pairing

namespace Database

variable {left right s : Schema} {ref : ColumnRef} {c : Column}

/-! ## References -/

theorem resolveSide_none (h : ref.table? = none) : resolveSide left right ref =
    match left.column? ref.name, right.column? ref.name with
    | some c, none => .ok (left, c)
    | none, some c => .ok (right, c)
    | none, none => .error (.unknownJoinColumn ref.print)
    | some _, some _ => .error (.ambiguousJoinColumn ref.print) := by
  unfold resolveSide
  simp only [h]
  cases hl : left.column? ref.name <;> cases hr : right.column? ref.name <;>
    simp only [pure_bind, List.filterMap_cons, List.filterMap_nil, hl, hr, Option.map_none,
      Option.map_some] <;>
    rfl

theorem resolveSide_some (hne : left.name ≠ right.name) {t : String} (h : ref.table? = some t) :
    resolveSide left right ref =
      if t = left.name then (left.column? ref.name).elim (.error (.unknownJoinColumn ref.print))
        fun c =>
        .ok (left, c)
      else if t = right.name then
        (right.column? ref.name).elim (.error (.unknownJoinColumn ref.print)) fun c =>
          .ok (right, c)
      else .error (.unknownJoinTable t) := by
  unfold resolveSide
  simp only [h]
  by_cases hl : t = left.name
  · have hfilter : [left, right].filter (·.name = t) = [left] := by simp [hl, hne.symm]
    rw [hfilter, if_pos hl]
    cases hc : left.column? ref.name <;>
      simp only [pure_bind, List.filterMap_cons, List.filterMap_nil, hc, Option.map_none,
        Option.map_some] <;> rfl
  · rw [if_neg hl]
    by_cases hr : t = right.name
    · have hfilter : [left, right].filter (·.name = t) = [right] := by simp [hr, hne]
      rw [hfilter, if_pos hr]
      cases hc : right.column? ref.name <;>
        simp only [pure_bind, List.filterMap_cons, List.filterMap_nil, hc, Option.map_none,
          Option.map_some] <;> rfl
    · have hfilter : [left, right].filter (·.name = t) = [] := by simp [Ne.symm hl, Ne.symm hr]
      rw [hfilter, if_neg hr]
      rfl

/-- A reference resolves to the column that it names. -/
theorem resolveSide_eq_ok_iff (hne : left.name ≠ right.name) :
    resolveSide left right ref = .ok (s, c) ↔
      s = left ∧ ref.Names left right c ∨ s = right ∧ ref.Names right left c := by
  unfold ColumnRef.Names
  cases htable : ref.table? with
  | none =>
    rw [resolveSide_none htable]
    cases left.column? ref.name <;> cases right.column? ref.name <;> simp [eq_comm]
  | some t =>
    rw [resolveSide_some hne htable]
    dsimp only
    split
    · rename_i hl
      cases left.column? ref.name <;> simp [hl, hne, eq_comm]
    · rename_i hl
      split
      · rename_i hr
        cases right.column? ref.name <;> simp [hr, hne.symm, eq_comm]
      · rename_i hr
        simp [hl, hr]

/-- It does not matter which of the two tables is the left one. -/
theorem resolveSide_comm (hne : left.name ≠ right.name) (ref : ColumnRef) :
    resolveSide right left ref = resolveSide left right ref := by
  cases htable : ref.table? with
  | none =>
    rw [resolveSide_none htable, resolveSide_none htable]
    cases left.column? ref.name <;> cases right.column? ref.name <;> rfl
  | some t =>
    rw [resolveSide_some hne htable, resolveSide_some hne.symm htable]
    by_cases hl : t = left.name
    · rw [if_neg (hl ▸ hne), if_pos hl, if_pos hl]
    · rw [if_neg hl, if_neg hl]

theorem isSyntax_of_resolveSide (hne : left.name ≠ right.name) {e : CommandError}
    (h : resolveSide left right ref = .error e) : e.isSyntax = true := by
  cases htable : ref.table? with
  | none =>
    rw [resolveSide_none htable] at h
    cases hl : left.column? ref.name <;> cases hr : right.column? ref.name <;> rw [hl, hr] at h <;>
      cases h <;> rfl
  | some t =>
    rw [resolveSide_some hne htable] at h
    split at h
    · cases hc : left.column? ref.name <;> rw [hc] at h <;> cases h
      rfl
    · split at h
      · cases hc : right.column? ref.name <;> rw [hc] at h <;> cases h
        rfl
      · cases h
        rfl

end Database

namespace Memory.Tables

open Database

variable {left right : Schema} {on : Pairing} {c d : Column}

/-! ## Conditions -/

theorem joinColumns_of_error_left {e : CommandError}
    (hl : resolveSide left right on.left = .error e) : joinColumns left right on = .error e := by
  unfold joinColumns
  rw [hl]
  rfl

theorem joinColumns_of_error_right {x : Schema × Column} {e : CommandError}
    (hl : resolveSide left right on.left = .ok x)
    (hr : resolveSide left right on.right = .error e) : joinColumns left right on = .error e := by
  unfold joinColumns
  rw [hl, hr]
  rfl

theorem joinColumns_of_ok {s t : Schema} (hl : resolveSide left right on.left = .ok (s, c))
    (hr : resolveSide left right on.right = .ok (t, d)) : joinColumns left right on =
      if s.name = left.name ∧ t.name = right.name then .ok (c, d)
      else if s.name = right.name ∧ t.name = left.name then .ok (d, c)
      else .error .joinSides := by
  unfold joinColumns
  rw [hl, hr]
  rfl

/-- The columns that are compared are those that the condition links. -/
theorem joinColumns_eq_ok_iff (hne : left.name ≠ right.name) :
    joinColumns left right on = .ok (c, d) ↔ on.Links left right c d := by
  have hiff {s : Schema} {ref : ColumnRef} {c : Column} :
      resolveSide left right ref = .ok (s, c) ↔
      s = left ∧ ref.Names left right c ∨ s = right ∧ ref.Names right left c :=
      resolveSide_eq_ok_iff hne
  constructor
  · intro h
    cases hl : resolveSide left right on.left with
    | error e =>
      rw [joinColumns_of_error_left hl] at h
      cases h
    | ok x =>
      cases hr : resolveSide left right on.right with
      | error e =>
        rw [joinColumns_of_error_right hl hr] at h
        cases h
      | ok y =>
        rw [joinColumns_of_ok hl hr] at h
        rcases hiff.mp hl with ⟨hs, hnames⟩ | ⟨hs, hnames⟩ <;>
          rcases hiff.mp hr with ⟨ht, hnames'⟩ | ⟨ht, hnames'⟩ <;>
          simp [hs, ht, hne, hne.symm] at h
        · exact .inl ⟨h.1 ▸ hnames, h.2 ▸ hnames'⟩
        · exact .inr ⟨h.2 ▸ hnames, h.1 ▸ hnames'⟩
  · rintro (⟨hl, hr⟩ | ⟨hl, hr⟩)
    · rw [joinColumns_of_ok (hiff.mpr (.inl ⟨rfl, hl⟩)) (hiff.mpr (.inr ⟨rfl, hr⟩)),
        if_pos ⟨rfl, rfl⟩]
    · rw [joinColumns_of_ok (hiff.mpr (.inr ⟨rfl, hl⟩)) (hiff.mpr (.inl ⟨rfl, hr⟩)),
        if_neg fun h => hne h.2, if_pos ⟨rfl, rfl⟩]

theorem joinColumns_comm (hne : left.name ≠ right.name) (on : Pairing) :
    joinColumns right left on = (joinColumns left right on).map Prod.swap := by
  have hcomm := resolveSide_comm hne
  cases hl : resolveSide left right on.left with
  | error e =>
    rw [joinColumns_of_error_left hl, joinColumns_of_error_left ((hcomm _).trans hl), Except.map]
  | ok x =>
    cases hr : resolveSide left right on.right with
    | error e =>
      rw [joinColumns_of_error_right hl hr,
        joinColumns_of_error_right ((hcomm _).trans hl) ((hcomm _).trans hr), Except.map]
    | ok y =>
      rw [joinColumns_of_ok hl hr, joinColumns_of_ok ((hcomm _).trans hl) ((hcomm _).trans hr)]
      rcases (resolveSide_mem hl).1 with hs | hs <;> rcases (resolveSide_mem hr).1 with ht | ht <;>
        simp [hs, ht, hne, hne.symm, Except.map]

/-- With the sides of the condition exchanged the same columns are compared, or the refusal is of
the same kind. -/
theorem joinColumns_swap (hne : left.name ≠ right.name) (on : Pairing) :
    (joinColumns left right on.swap).mapError CommandError.isSyntax =
      (joinColumns left right on).mapError CommandError.isSyntax := by
  cases hl : resolveSide left right on.left with
  | error e =>
    have hl' : resolveSide left right on.swap.right = .error e := hl
    rw [joinColumns_of_error_left hl]
    cases hr : resolveSide left right on.swap.left with
    | error e' =>
      rw [joinColumns_of_error_left hr]
      simp only [Except.mapError, isSyntax_of_resolveSide hne hl, isSyntax_of_resolveSide hne hr]
    | ok y => rw [joinColumns_of_error_right hr hl']
  | ok x =>
    have hl' : resolveSide left right on.swap.right = .ok x := hl
    cases hr : resolveSide left right on.right with
    | error e =>
      have hr' : resolveSide left right on.swap.left = .error e := hr
      rw [joinColumns_of_error_right hl hr, joinColumns_of_error_left hr']
    | ok y =>
      have hr' : resolveSide left right on.swap.left = .ok y := hr
      rw [joinColumns_of_ok hl hr, joinColumns_of_ok hr' hl']
      rcases (resolveSide_mem hl).1 with hs | hs <;> rcases (resolveSide_mem hr).1 with ht | ht <;>
        simp [hs, ht, hne, hne.symm]

end Memory.Tables

/-! ## Pairs -/

namespace ResultRow

/-- The first columns put behind the other ones. -/
def rotate (n : Nat) (r : ResultRow) : ResultRow := ⟨r.columns.rotate n, r.values.rotate n⟩

theorem rotate_append {n : Nat} {a : ResultRow} (hcolumns : a.columns.length = n)
    (hvalues : a.values.length = n) (b : ResultRow) : (a.append b).rotate n = b.append a := by
  subst hcolumns
  unfold rotate append
  dsimp only
  rw [List.rotate_append_length_eq, ← hvalues, List.rotate_append_length_eq]

end ResultRow

/-- The pairs that agree, one list or the other going first. -/
theorem flatMap_filter_perm {α β γ : Type} (p : α → β → Bool)
    (f : α → β → γ) (xs : List α)
    (ys : List β) : (xs.flatMap fun x => (ys.filter (p x)).map (f x)).Perm
      (ys.flatMap fun y => (xs.filter fun x => p x y).map fun x => f x y) := by
  induction xs with
  | nil => simp
  | cons x xs ih =>
    have hhead : (ys.filter (p x)).map (f x) = ys.flatMap fun y => if p x y then [f x y]
        else [] := by
      clear ih
      induction ys with
      | nil => rfl
      | cons y ys ihy =>
        rw [List.flatMap_cons, ← ihy, List.filter_cons]
        split <;> rfl
    have hsplit (y : β) : ((x :: xs).filter fun x => p x y).map (fun x => f x y) =
        (if p x y then [f x y] else []) ++ (xs.filter fun x => p x y).map fun x => f x y := by
      rw [List.filter_cons]
      split <;> rfl
    simp only [hsplit]
    rw [List.flatMap_cons, hhead]
    exact (ih.append_left _).trans (List.flatMap_append_perm ys _ _)

namespace Memory.Tables

variable {m : Memory.Tables} {left right : String} {on : Pairing}

theorem pairs_perm (l r : Table) (c d : Column) :
    (pairs r l d c).Perm ((pairs l r c d).map (ResultRow.rotate l.schema.columnNames.length)) := by
  have hrotate (x y : Row) :
    ((ResultRow.ofRow l.schema true x).append (ResultRow.ofRow r.schema true y)).rotate
      l.schema.columnNames.length =
        (ResultRow.ofRow r.schema true y).append (ResultRow.ofRow l.schema true x) :=
    ResultRow.rotate_append (by simp [ResultRow.ofRow]) (by simp [ResultRow.ofRow]) _
  unfold pairs
  simp only [List.map_flatMap, List.map_map, Function.comp_def, hrotate]
  have hperm := flatMap_filter_perm (fun y x => decide (Row.held y d.name = Row.held x c.name))
    (fun y x => (ResultRow.ofRow r.schema true y).append (ResultRow.ofRow l.schema true x)) r.rows
    l.rows
  simpa only [eq_comm] using hperm

/-! ## What a join comes to -/

/-- The pairs of two tables as the result of a query. -/
def paired (l r : Table) (c d : Column) : Result :=
  .query (l.schema.columnNames.map (ResultRow.label l.schema true) ++
    r.schema.columnNames.map (ResultRow.label r.schema true)) (pairs l r c d)

def joined (m : Memory.Tables) (left right : String) (on : Pairing) : Except EngineError Result :=
  if right = left then .error (.command .selfJoin)
  else match m.lookup left, m.lookup right with
    | none, _ => .error (.noTable left)
    | some _, none => .error (.noTable right)
    | some l, some r =>
      ((joinColumns l.schema r.schema on).mapError EngineError.command).map fun x =>
        paired l r x.1 x.2

theorem run_join (m : Memory.Tables) (left right : String) (on : Pairing) :
    (join left right on).run m = ((joined m left right on).mapError Fault.engine, m) := by
  unfold join joined
  split
  · rfl
  · cases hl : m.lookup left with
    | none => exact Attempt.run_bind_of_error (Database.run_find_none hl)
    | some l =>
      cases hr : m.lookup right with
      | none =>
        exact (Attempt.run_bind_of_ok (Database.run_find hl)).trans
          (Attempt.run_bind_of_error (Database.run_find_none hr))
      | some r =>
        refine (Attempt.run_bind_of_ok (Database.run_find hl)).trans
          ((Attempt.run_bind_of_ok (Database.run_find hr)).trans ?_)
        dsimp only
        cases joinColumns l.schema r.schema on <;> rfl

section joined

variable {l r : Table} (hnamed : ∀ table t, m.lookup table = some t → t.schema.name = table)

include hnamed

theorem names_ne (hne : left ≠ right) (hl : m.lookup left = some l)
    (hr : m.lookup right = some r) : l.schema.name ≠ r.schema.name := by
  rwa [hnamed left l hl, hnamed right r hr]

theorem joined_eq_ok_iff {res : Result} : joined m left right on = .ok res ↔
    left ≠ right ∧ ∃ l r c d, m.lookup left = some l ∧ m.lookup right = some r ∧
      on.Links l.schema r.schema c d ∧ res = paired l r c d := by
  unfold joined
  constructor
  · intro h
    split at h
    · cases h
    · rename_i hne
      cases hl : m.lookup left with
      | none =>
        rw [hl] at h
        cases h
      | some l =>
        cases hr : m.lookup right with
        | none =>
          rw [hl, hr] at h
          cases h
        | some r =>
          rw [hl, hr] at h
          dsimp only at h
          cases hcolumns : joinColumns l.schema r.schema on with
          | error e =>
            rw [hcolumns] at h
            cases h
          | ok x =>
            rw [hcolumns] at h
            cases h
            have hnames := names_ne hnamed (Ne.symm hne) hl hr
            exact ⟨Ne.symm hne, l, r, x.1, x.2, rfl, rfl,
              (joinColumns_eq_ok_iff hnames).mp hcolumns, rfl⟩
  · rintro ⟨hne, l, r, c, d, hl, hr, hlinks, rfl⟩
    have hnames := names_ne hnamed hne hl hr
    rw [if_neg hne.symm, hl, hr]
    dsimp only
    rw [(joinColumns_eq_ok_iff hnames).mpr hlinks]
    rfl

/-- With the sides of the condition exchanged a join comes to the same, or is refused in the same
way. -/
theorem joined_swap (left right : String) (on : Pairing) :
    (joined m left right on.swap).mapError EngineError.kind =
      (joined m left right on).mapError EngineError.kind := by
  unfold joined
  split
  · rfl
  · rename_i hne
    cases hl : m.lookup left with
    | none => rfl
    | some l =>
      cases hr : m.lookup right with
      | none => rfl
      | some r =>
        have hswap := joinColumns_swap (names_ne hnamed (Ne.symm hne) hl hr) on
        dsimp only
        generalize joinColumns l.schema r.schema on.swap = first at hswap ⊢
        generalize joinColumns l.schema r.schema on = second at hswap ⊢
        cases first with
        | error e =>
          cases second with
          | error e' =>
            have hsyntax : e.isSyntax = e'.isSyntax := Except.error.inj hswap
            simp only [Except.mapError, Except.map, EngineError.kind, hsyntax]
          | ok x => cases hswap
        | ok x =>
          cases second with
          | error e' => cases hswap
          | ok x' =>
            cases hswap
            rfl

/-- With the tables exchanged a join comes to the same pairs the other way round, or is refused in
the same way. -/
theorem joined_comm (left right : String) (on : Pairing) :
    (∃ e e', joined m left right on = .error e ∧ joined m right left on = .error e' ∧
      e.kind = e'.kind) ∨
      ∃ l r c d, m.lookup left = some l ∧ joined m left right on = .ok (paired l r c d) ∧
        joined m right left on = .ok (paired r l d c) := by
  by_cases hne : left = right
  · subst hne
    have hself : joined m left left on = .error (.command .selfJoin) := if_pos rfl
    exact .inl ⟨_, _, hself, hself, rfl⟩
  · unfold joined
    rw [if_neg hne, if_neg (Ne.symm hne)]
    cases hl : m.lookup left with
    | none => cases m.lookup right <;> exact .inl ⟨_, _, rfl, rfl, rfl⟩
    | some l =>
      cases hr : m.lookup right with
      | none => exact .inl ⟨_, _, rfl, rfl, rfl⟩
      | some r =>
        have hcomm := joinColumns_comm (names_ne hnamed hne hl hr) on
        dsimp only
        rw [hcomm]
        cases joinColumns l.schema r.schema on with
        | error e => exact .inl ⟨_, _, rfl, rfl, rfl⟩
        | ok x => exact .inr ⟨l, r, x.1, x.2, rfl, rfl, rfl⟩

end joined

end Memory.Tables
end Tabulary
