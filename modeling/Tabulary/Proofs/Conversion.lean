import Tabulary.Execution
import Tabulary.Proofs.Attempt
import Tabulary.Proofs.Record.Image
import Tabulary.Proofs.Table.Rows
import Tabulary.Proofs.Text.Numeral

/-!
Literals as values.  An integer column takes just the texts that denote an integer of 64 bits, and
refuses any other text by its type, but it gives up on a numeral of too many digits
(`Column.convert_eq_ok_iff`, `Column.convert_eq_error_iff`).  A row that fits is written unless one
of its texts is too long, so whatever stops a row that is made of literals is an error of the engine
or comes of the size of one of them.
-/

namespace Tabulary

open Text

namespace Column

variable {c : Column} {t : String} {v : Value} {f : Fault}

theorem inRange_iff {n : Int} : Value.inRange n = true ↔ Value.minInt ≤ n ∧
    n ≤ Value.maxInt := by
  simp [Value.inRange]

theorem convert_integer (hc : c.type = .integer) (t : String) :
    c.convert (.text t) = c.integerOfText t := by
  unfold convert
  rw [hc]

/-- What an integer column makes of a text, by the numeral that is read from it. -/
inductive Converts (c : Column) (t : String) : Except Fault Value → Prop
  | taken {ds : List Nat} {n : Int} (denotes : Denotes t ds n) (few : ds.length ≤ Text.maxDigits)
      (range : Value.minInt ≤ n ∧ n ≤ Value.maxInt) : Converts c t (.ok (.int n))
  | outside {ds : List Nat} {n : Int} (denotes : Denotes t ds n)
      (few : ds.length ≤ Text.maxDigits) (range : ¬(Value.minInt ≤ n ∧ n ≤ Value.maxInt)) :
      Converts c t (.error (.engine (.typeMismatch c.name (.text t) .integer)))
  | other (none : ∀ ds n, ¬Denotes t ds n) :
      Converts c t (.error (.engine (.typeMismatch c.name (.text t) .integer)))
  | long {ds : List Nat} {n : Int} (denotes : Denotes t ds n) (many : Text.maxDigits < ds.length) :
      Converts c t (.error (.digitLimit ds.length))

theorem converts_integer (hc : c.type = .integer) (t : String) :
    Converts c t (c.convert (.text t)) := by
  rw [convert_integer hc, integerOfText]
  cases hread : Numeral.read? (trim t).toList with
  | none =>
    refine .other fun ds n h => ?_
    obtain ⟨m, hm, -⟩ := denotes_iff.mp h
    rw [hread] at hm
    cases hm
  | some m =>
    have hdenotes : Denotes t m.digits m.value := denotes_iff.mpr ⟨m, hread, rfl, rfl⟩
    dsimp only
    split
    · rename_i hfew
      split
      · rename_i hrange
        exact .taken hdenotes hfew (inRange_iff.mp hrange)
      · rename_i hrange
        exact .outside hdenotes hfew fun h => hrange (inRange_iff.mpr h)
    · rename_i hmany
      exact .long hdenotes (Nat.not_le.mp hmany)

theorem denotes_unique {ds ds' : List Nat} {n n' : Int} (h : Denotes t ds n)
    (h' : Denotes t ds' n') : ds = ds' ∧ n = n' := by
  obtain ⟨m, hread, rfl, rfl⟩ := denotes_iff.mp h
  obtain ⟨m', hread', rfl, rfl⟩ := denotes_iff.mp h'
  rw [hread] at hread'
  cases hread'
  exact ⟨rfl, rfl⟩

theorem convert_eq_ok_iff (hc : c.type = .integer) : c.convert (.text t) = .ok v ↔
    ∃ ds n, Denotes t ds n ∧ ds.length ≤ Text.maxDigits ∧
      (Value.minInt ≤ n ∧ n ≤ Value.maxInt) ∧ v = .int n := by
  have h := converts_integer hc t
  generalize c.convert (.text t) = result at h
  constructor
  · rintro rfl
    cases h with
    | taken denotes few range => exact ⟨_, _, denotes, few, range, rfl⟩
  · rintro ⟨ds, n, hdenotes, hfew, hrange, rfl⟩
    cases h with
    | taken denotes few range =>
      obtain ⟨-, rfl⟩ := denotes_unique denotes hdenotes
      rfl
    | outside denotes few range =>
      obtain ⟨-, rfl⟩ := denotes_unique denotes hdenotes
      exact absurd hrange range
    | other none => exact absurd hdenotes (none ds n)
    | long denotes many =>
      obtain ⟨rfl, -⟩ := denotes_unique denotes hdenotes
      omega

theorem convert_eq_error_iff (hc : c.type = .integer) : c.convert (.text t) = .error f ↔
    (∃ ds n, Denotes t ds n ∧ Text.maxDigits < ds.length ∧ f = .digitLimit ds.length) ∨
      f = .engine (.typeMismatch c.name (.text t) .integer) ∧ ∀ ds n, Denotes t ds n →
        ds.length ≤ Text.maxDigits ∧ ¬(Value.minInt ≤ n ∧ n ≤ Value.maxInt) := by
  have h := converts_integer hc t
  generalize c.convert (.text t) = result at h
  constructor
  · rintro rfl
    cases h with
    | outside denotes few range =>
      refine Or.inr ⟨rfl, fun ds n hdenotes => ?_⟩
      obtain ⟨rfl, rfl⟩ := denotes_unique denotes hdenotes
      exact ⟨few, range⟩
    | other none => exact Or.inr ⟨rfl, fun ds n hdenotes => absurd hdenotes (none ds n)⟩
    | long denotes many => exact Or.inl ⟨_, _, denotes, many, rfl⟩
  · rintro (⟨ds, n, hdenotes, hmany, rfl⟩ | ⟨rfl, hnone⟩)
    · cases h with
      | taken denotes few _ | outside denotes few _ =>
        obtain ⟨rfl, -⟩ := denotes_unique denotes hdenotes
        omega
      | other none => exact absurd hdenotes (none ds n)
      | long denotes many =>
        obtain ⟨rfl, -⟩ := denotes_unique denotes hdenotes
        rfl
    · cases h with
      | taken denotes few range => exact absurd range (hnone _ _ denotes).2
      | outside | other => rfl
      | long denotes many => exact absurd (hnone _ _ denotes).1 (Nat.not_le.mpr many)

/-- A value that a column makes of a text is an integer of 64 bits or the text itself. -/
theorem convert_text_ok (h : c.convert (.text t) = .ok v) :
    v.writable = true ∧ (v.Short ∨ v = .text t) := by
  cases hc : c.type with
  | text =>
    unfold convert at h
    rw [hc] at h
    cases h
    exact ⟨rfl, .inr rfl⟩
  | integer =>
    obtain ⟨ds, n, -, -, hrange, rfl⟩ := (convert_eq_ok_iff hc).mp h
    exact ⟨Value.writable_of_inRange (inRange_iff.mpr hrange), .inl trivial⟩

end Column

/-! ## Literals that are too large -/

/-- A literal has more digits than are read, where an integer is asked for, or more bytes than the
record of a text counts. -/
inductive Literal.Oversized (l : Literal) : Fault → Prop
  | digits {ds : List Nat} {n : Int} (denotes : Denotes l.text ds n)
      (many : Text.maxDigits < ds.length) : Oversized l (.digitLimit ds.length)
  | bytes (long : ¬(Value.text l.text).Short) : Oversized l .notInteger

/-- A failure is an error of the engine, or it comes of the size of one of these literals. -/
def Literal.Accounts (ls : List Literal) (f : Fault) : Prop :=
  (∃ e, f = .engine e) ∨ ∃ l ∈ ls, l.Oversized f

variable {c : Column} {l : Literal} {ls : List Literal} {v : Value} {f : Fault} {s : Schema}

theorem Literal.Accounts.mono {ls' : List Literal} (h : Accounts ls f) (hsub : ls ⊆ ls') :
    Accounts ls' f := by
  rcases h with h | ⟨l, hl, h⟩
  · exact .inl h
  · exact .inr ⟨l, hsub hl, h⟩

open Literal

theorem Column.accounts_convert (h : c.convert (.text l.text) = .error f) (hl : l ∈ ls) :
    Accounts ls f := by
  cases hc : c.type with
  | text =>
    unfold convert at h
    rw [hc] at h
    cases h
  | integer =>
    rcases (convert_eq_error_iff hc).mp h with ⟨ds, n, hdenotes, hmany, rfl⟩ | ⟨rfl, -⟩
    · exact .inr ⟨l, hl, .digits hdenotes hmany⟩
    · exact .inl ⟨_, rfl⟩

namespace Database

/-- All of the values can be shown, and whatever of them is not short is one of the literals. -/
def Copied (ls : List Literal) (values : List (String × Value)) : Prop :=
  ∀ p ∈ values, p.2.writable = true ∧ (p.2.Short ∨ ∃ l ∈ ls, p.2 = .text l.text)

theorem accounts_convertAll {columns : List Column} (h : convertAll columns ls = .error f) :
    Accounts ls f := by
  induction columns generalizing ls with
  | nil => cases h
  | cons c columns ih =>
    cases ls with
    | nil => cases h
    | cons l ls =>
      rcases Attempt.of_bind_error h with h | ⟨v, -, h⟩
      · exact Column.accounts_convert h List.mem_cons_self
      · rcases Attempt.of_bind_error h with h | ⟨values, -, h⟩
        · exact (ih h).mono (List.subset_cons_self l ls)
        · cases h

theorem copied_convertAll {columns : List Column} {values : List (String × Value)}
    (h : convertAll columns ls = .ok values) : Copied ls values := by
  induction columns generalizing ls values with
  | nil =>
    cases h
    exact fun p hp => nomatch hp
  | cons c columns ih =>
    cases ls with
    | nil =>
      cases h
      exact fun p hp => nomatch hp
    | cons l ls =>
      obtain ⟨v, hv, h⟩ := Attempt.of_bind_ok h
      obtain ⟨values', hvalues, h⟩ := Attempt.of_bind_ok h
      cases h
      intro p hp
      rcases List.mem_cons.mp hp with rfl | hp
      · exact (Column.convert_text_ok hv).imp id
          (Or.imp id fun heq => ⟨l, List.mem_cons_self, heq⟩)
      · exact (ih hvalues p hp).imp id
          (Or.imp id fun ⟨l', hl', heq⟩ => ⟨l', List.mem_cons_of_mem l hl', heq⟩)

theorem accounts_resolve {x : Comparison} (h : resolve s x = .error f) : Accounts [x.value] f := by
  have hcolumn (hrest : resolve s ⟨⟨none, x.column.name⟩, x.value⟩ = .error f) :
      Accounts [x.value] f := by
    unfold resolve at hrest
    dsimp only at hrest
    split at hrest
    · cases hrest
      exact .inl ⟨_, rfl⟩
    · rcases Attempt.of_bind_error hrest with hrest | ⟨v, -, hrest⟩
      · exact Column.accounts_convert hrest List.mem_cons_self
      · cases hrest
  unfold resolve at h
  dsimp only at h
  split at h
  · split at h
    · cases h
      exact .inl ⟨_, rfl⟩
    · exact hcolumn h
  · exact hcolumn h

section changes

variable {table : String} {assignments : List (String × Literal)}
  {changes : List (String × Value)}

theorem accounts_changesOf (h : changesOf s table assignments = .error f) :
    Accounts (assignments.map (·.2)) f := by
  obtain ⟨a, ha, h⟩ := Attempt.of_mapM_error h
  dsimp only at h
  split at h
  · cases h
    exact .inl ⟨_, rfl⟩
  · split at h
    · cases h
      exact .inl ⟨_, rfl⟩
    · rcases Attempt.of_bind_error h with h | ⟨v, -, h⟩
      · exact Column.accounts_convert h (List.mem_map_of_mem ha)
      · cases h

theorem copied_changesOf (h : changesOf s table assignments = .ok changes) :
    Copied (assignments.map (·.2)) changes := by
  intro p hp
  obtain ⟨a, ha, h⟩ := Attempt.of_mapM_ok h p hp
  dsimp only at h
  split at h
  · cases h
  · split at h
    · cases h
    · obtain ⟨v, hv, h⟩ := Attempt.of_bind_ok h
      cases h
      exact (Column.convert_text_ok hv).imp id
        (Or.imp id fun heq => ⟨a.2, List.mem_map_of_mem ha, heq⟩)

end changes

end Database

/-! ## Rows that have no record -/

namespace Record

variable {r : Row}

theorem encodeColumns_eq_error {cs : List Column}
    (hr : ∀ c ∈ cs, c.accepts (r.held c.name) = true)
    (h : encodeColumns r cs = .error f) : f = .notInteger := by
  induction cs with
  | nil => cases h
  | cons c cs ih =>
    have hc := hr c List.mem_cons_self
    rw [encodeColumns, Row.get_eq_ok_held hc] at h
    rcases Attempt.of_bind_error h with h | ⟨v, hv, h⟩
    · cases h
    cases hv
    rcases Attempt.of_bind_error h with h | ⟨bytes, -, h⟩
    · cases ht : c.type with
      | integer =>
        obtain ⟨n, hheld, hn⟩ := (Column.accepts_integer_iff ht _).mp hc
        rw [ht, hheld, encodeValue, encodeInt_eq_ok rfl hn] at h
        cases h
      | text =>
        obtain ⟨x, hheld⟩ := (Column.accepts_text_iff ht _).mp hc
        rw [ht, hheld] at h
        simp only [encodeValue, encodeText] at h
        split at h
        · cases h
        · cases h
          rfl
    · rcases Attempt.of_bind_error h with h | ⟨more, -, h⟩
      · exact ih (fun d hd => hr d (List.mem_cons_of_mem c hd)) h
      · cases h

/-- Only the length of a text keeps a row that fits from being recorded. -/
theorem encode_eq_error {deleted : Bool} (hr : r.Fits s) (h : encode s r deleted = .error f) :
    f = .notInteger ∧ ¬r.Short := by
  refine ⟨?_, fun hshort => ?_⟩
  · obtain ⟨n, hheld, hrange⟩ := hr.key_eq_int
    obtain ⟨m, hheld', hid⟩ := hr.id_key?
    rw [hheld] at hheld'
    cases hheld'
    rw [encode, encodeInt_eq_ok hid hrange] at h
    rcases Attempt.of_bind_error h with h | ⟨key, -, h⟩
    · cases h
    · rcases Attempt.of_bind_error h with h | ⟨columns, -, h⟩
      · exact encodeColumns_eq_error (fun c hc => hr.accepted c (s.mem_columns_of_data hc)) h
      · cases h
  · obtain ⟨tail, henc, -⟩ := exists_encode hr hshort
    rw [henc] at h
    cases h

end Record

/-- A row that fits is recorded, unless one of its values copies a literal that is too large. -/
theorem Row.accounts_recorded {α : Type} {r : Row} {a : α} (hr : r.Fits s)
    (hcopied : ∀ p ∈ r.values, p.2.Short ∨ ∃ l ∈ ls, p.2 = .text l.text)
    (h : r.recorded s a = .error f) : Accounts ls f := by
  rcases Attempt.of_bind_error h with h | ⟨_, -, h⟩
  · obtain ⟨rfl, hshort⟩ := Record.encode_eq_error hr h
    obtain ⟨p, hp, hlong⟩ : ∃ p ∈ r.values, ¬p.2.Short := by simpa [Row.Short] using hshort
    rcases hcopied p hp with hp | ⟨l, hl, heq⟩
    · exact absurd hp hlong
    · exact .inr ⟨l, hl, .bytes (heq ▸ hlong)⟩
  · cases h

end Tabulary
