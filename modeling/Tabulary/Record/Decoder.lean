import Tabulary.Attempt
import Tabulary.Record.Word
import Tabulary.Row
import Tabulary.Schema.Basic
import Tabulary.Text.Utf8

/-!
Reading records.  A decoder takes bytes off a cursor, and leaves the cursor where it stopped also
when it fails.  Main statement: no decoder gives bytes back, and a record takes at least one.
-/

namespace Tabulary
namespace Record

/-- A place in a run of bytes: its position and the bytes from there on. -/
structure Cursor where
  position : Nat
  rest : List UInt8
deriving DecidableEq, Repr

abbrev Decoder (α : Type) := Attempt RecordError Cursor α

structure Stored where
  offset : Nat
  length : Nat
  row : Row
deriving DecidableEq, Repr

namespace Stored

def isLive (r : Stored) : Bool := !r.row.deleted

def stop (r : Stored) : Nat := r.offset + r.length

end Stored

namespace Decoder

/-- The next `n` bytes; where there are fewer the cursor goes to the end. -/
def bytes (n : Nat) : Decoder (List UInt8) := do
  let c ← get
  let front := c.rest.take n
  set (⟨c.position + front.length, c.rest.drop n⟩ : Cursor)
  if front.length = n then return front else throw (.truncated n front.length)

def integer : Decoder Int := do
  return ofIntBytes (← bytes 8)

def text (column : String) (offset : Nat) : Decoder String := do
  let count ← bytes 4
  let content ← bytes (ofBigEndian count)
  match Text.ofBytes? content with
  | some s => return s
  | none => throw (.notUtf8 column offset)

def column (offset : Nat) (c : Column) : Decoder (String × Value) := do
  match c.type with
  | .integer => return (c.name, .int (← integer))
  | .text => return (c.name, .text (← text c.name offset))

def columns (offset : Nat) : List Column → Decoder (List (String × Value))
  | [] => return []
  | c :: rest => do
    let v ← column offset c
    let vs ← columns offset rest
    return v :: vs

def body (s : Schema) (offset : Nat) (deleted : Bool) : Decoder Row := do
  let id ← integer
  let fields ← columns offset s.dataColumns
  return { id := .int id, values := (Value.keyColumn, .int id) :: fields, deleted }

/-- The record at the cursor, or nothing at a clean end. -/
def record (s : Schema) : Decoder (Option Stored) := do
  let c ← get
  match c.rest with
  | [] => return none
  | flag :: rest =>
    set (⟨c.position + 1, rest⟩ : Cursor)
    if flag ≠ 0 ∧ flag ≠ 1 then throw (.unknownFlag flag.toNat c.position)
    else do
      let row ← body s c.position (flag = 1)
      let stop ← get
      return some ⟨c.position, stop.position - c.position, row⟩

/-- A decoder that never gives bytes back. -/
def Consumes {α : Type} (d : Decoder α) : Prop :=
  ∀ c, (d.run c).2.rest.length ≤ c.rest.length

theorem consumes_pure {α : Type} (x : α) : Consumes (pure x : Decoder α) :=
  fun _ => Nat.le_refl _

theorem consumes_throw {α : Type} (e : RecordError) : Consumes (throw e : Decoder α) :=
  fun _ => Nat.le_refl _

theorem Consumes.bind {α β : Type} {d : Decoder α} {f : α → Decoder β} (hd : Consumes d)
    (hf : ∀ x, Consumes (f x)) : Consumes (d >>= f) := by
  intro c
  have h := hd c
  rw [Attempt.run_bind]
  cases hr : d.run c with
  | mk r c' =>
    rw [hr] at h
    cases r with
    | ok x => exact Nat.le_trans (hf x c') h
    | error e => exact h

theorem consumes_bytes (n : Nat) : Consumes (bytes n) := by
  intro c
  have : (c.rest.drop n).length ≤ c.rest.length := by simp
  simp only [bytes, Attempt.run_bind, Attempt.run_get, Attempt.run_set]
  split <;> exact this

theorem consumes_integer : Consumes integer :=
  (consumes_bytes 8).bind fun _ => consumes_pure _

theorem consumes_text (column : String) (offset : Nat) : Consumes (text column offset) := by
  refine (consumes_bytes 4).bind fun count => (consumes_bytes _).bind fun content => ?_
  split
  · exact consumes_pure _
  · exact consumes_throw _

theorem consumes_column (offset : Nat) (c : Column) : Consumes (column offset c) := by
  unfold column
  split
  · exact consumes_integer.bind fun _ => consumes_pure _
  · exact (consumes_text c.name offset).bind fun _ => consumes_pure _

theorem consumes_columns (offset : Nat) (cs : List Column) : Consumes (columns offset cs) := by
  induction cs with
  | nil => exact consumes_pure _
  | cons c rest ih =>
    exact (consumes_column offset c).bind fun _ => ih.bind fun _ => consumes_pure _

theorem consumes_body (s : Schema) (offset : Nat) (deleted : Bool) :
    Consumes (body s offset deleted) :=
  consumes_integer.bind fun _ => (consumes_columns offset _).bind fun _ => consumes_pure _

theorem record_shrinks {s : Schema} {c c' : Cursor} {r : Stored}
    (h : (record s).run c = (.ok (some r), c')) : c'.rest.length < c.rest.length := by
  simp only [record, Attempt.run_bind, Attempt.run_get] at h
  cases hc : c.rest with
  | nil => rw [hc] at h; cases h
  | cons flag rest =>
    rw [hc] at h
    have hb := consumes_body s c.position (decide (flag = 1)) ⟨c.position + 1, rest⟩
    simp only [Attempt.run_bind, Attempt.run_set] at h
    split at h
    · cases h
    · rw [Attempt.run_bind] at h
      split at h
      · rename_i row c₂ hr
        rw [hr] at hb
        cases h
        exact Nat.lt_succ_of_le hb
      · cases h

end Decoder
end Record
end Tabulary
