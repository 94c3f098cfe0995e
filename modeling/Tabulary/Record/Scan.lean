import Tabulary.Record.Decoder

/-!
Reading records one after another.
-/

namespace Tabulary
namespace Record

/-- The records read, the error that ended the reading unless the bytes ended cleanly, and the place
where it ended. -/
structure Scan where
  records : List Stored
  failure : Option RecordError
  cursor : Cursor
deriving DecidableEq, Repr

/-- Reads from the cursor on, and begins no record at or after the position `stop`. -/
def scan (s : Schema) (stop : Option Nat) (c : Cursor) : Scan :=
  if stop.any (· ≤ c.position) then ⟨[], none, c⟩
  else match _h : (Decoder.record s).run c with
    | (.error e, c') => ⟨[], some e, c'⟩
    | (.ok none, c') => ⟨[], none, c'⟩
    | (.ok (some r), c') =>
      let rest := scan s stop c'
      { rest with records := r :: rest.records }
termination_by c.rest.length
decreasing_by exact Decoder.record_shrinks _h

namespace Scan

/-- The failure of a scan in which a record cut short counts as absent. -/
def corruption (x : Scan) : Option RecordError :=
  x.failure.filter fun e => !e.isTruncation

def stop (x : Scan) : Nat := (x.records.getLast?.map (·.stop)).getD 0

def liveRows (x : Scan) : List Row := (x.records.filter (·.isLive)).map (·.row)

end Scan

/-- The row of the one record that the bytes begin with. -/
def decode (s : Schema) (bytes : List UInt8) : Except RecordError Row :=
  match ((Decoder.record s).run ⟨0, bytes⟩).1 with
  | .ok (some r) => .ok r.row
  | .ok none => .error .nothing
  | .error e => .error e

end Record
end Tabulary
