import Tabulary.Keyed
import Tabulary.Record.Scan

/-!
What a table keeps in memory: where each live row begins, which values its unique columns have in
use, and where the next record goes.  All of it can be computed from the records of the table's
file.
-/

namespace Tabulary

/-- Values without repetition. -/
abbrev ValueSet := List Value

namespace ValueSet

def insert (s : ValueSet) (v : Value) : ValueSet := if v ∈ s then s else s ++ [v]

def erase (s : ValueSet) (v : Value) : ValueSet := s.filter (· ≠ v)

end ValueSet

structure Index where
  offsets : List (Int × Nat)
  /-- The values that live rows hold in each unique column. -/
  used : List (String × ValueSet)
  /-- The position after the last record. -/
  stop : Nat
deriving DecidableEq, Repr

namespace Index

def empty (s : Schema) : Index := ⟨[], s.uniqueColumns.map fun c => (c.name, []), 0⟩

def offset? (x : Index) (id : Value) : Option Nat := id.key?.bind fun k => x.offsets.lookup k

def usedIn (x : Index) (column : String) : ValueSet := (x.used.lookup column).getD []

/-- Applies a change to the values in use, column by column, with the value that the row holds
there. -/
def touch (f : ValueSet → Value → ValueSet) (r : Row) (used : List (String × ValueSet)) :
    List (String × ValueSet) :=
  used.map fun u => match r.value? u.1 with
    | some v => (u.1, f u.2 v)
    | none => u

def enter (x : Index) (r : Row) (offset : Nat) : Index :=
  { x with
    offsets := match r.id.key? with
      | some k => Keyed.set k offset x.offsets
      | none => x.offsets
    used := touch ValueSet.insert r x.used }

def leave (x : Index) (r : Row) : Index :=
  { x with
    offsets := match r.id.key? with
      | some k => Keyed.erase k x.offsets
      | none => x.offsets
    used := touch ValueSet.erase r x.used }

/-- Enters a record unless it is deleted, and moves the stop behind it. -/
def record (x : Index) (r : Record.Stored) : Index :=
  let x := if r.isLive then x.enter r.row r.offset else x
  { x with stop := r.stop }

/-- The index of a file that holds these records. -/
def ofRecords (s : Schema) (records : List Record.Stored) : Index :=
  records.foldl record (empty s)

end Index
end Tabulary
