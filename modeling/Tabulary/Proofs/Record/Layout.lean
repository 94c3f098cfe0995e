import Tabulary.Proofs.Record.Image
import Tabulary.Record.Scan

/-!
Runs of records.  Bytes in which records lie one after another are read back as these records,
whatever follows them, and any bytes at all begin with the records that are read from them.
-/

namespace Tabulary
namespace Record

/-- The bytes are these records one after another, the first of which begins at a position. -/
inductive Laid (s : Schema) : Nat → List Stored → List UInt8 → Prop
  | nil (start : Nat) : Laid s start [] []
  | cons {start : Nat} {r : Row} {front : List UInt8} {records : List Stored}
      {more : List UInt8} (image : Image s r front)
      (tail : Laid s (start + front.length) records more) :
      Laid s start (⟨start, front.length, r⟩ :: records) (front ++ more)

variable {s : Schema}

/-- A record with its flag set. -/
def Stored.retired (x : Stored) : Stored := { x with row := { x.row with deleted := true } }

namespace Laid

variable {start : Nat} {records xs ys : List Stored} {x : Stored} {bytes : List UInt8}

theorem singleton {r : Row} (start : Nat) (h : Image s r bytes) :
    Laid s start [⟨start, bytes.length, r⟩] bytes := by
  have hone := Laid.cons h (Laid.nil (start + bytes.length))
  rwa [List.append_nil] at hone

theorem append {front more : List UInt8} (hx : Laid s start xs front)
    (hy : Laid s (start + front.length) ys more) : Laid s start (xs ++ ys) (front ++ more) := by
  induction hx with
  | nil start => simpa using hy
  | @cons start r front xs rest image tail ih =>
    rw [List.length_append, ← Nat.add_assoc] at hy
    rw [List.cons_append, List.append_assoc]
    exact Laid.cons image (ih hy)

theorem of_append (h : Laid s start (xs ++ ys) bytes) :
    ∃ front more, bytes = front ++ more ∧ Laid s start xs front ∧
      Laid s (start + front.length) ys more := by
  induction xs generalizing start bytes with
  | nil => exact ⟨[], bytes, rfl, Laid.nil start, h⟩
  | cons x xs ih =>
    cases h with
    | @cons _ r front _ more image tail =>
      obtain ⟨front', more', rfl, hx, hy⟩ := ih tail
      refine ⟨front ++ front', more', (List.append_assoc ..).symm, Laid.cons image hx, ?_⟩
      rwa [List.length_append, ← Nat.add_assoc]

/-- The bytes before a record, its own, and those after it. -/
theorem of_append_cons (h : Laid s start (xs ++ x :: ys) bytes) :
    ∃ front own more, bytes = front ++ (own ++ more) ∧ Laid s start xs front ∧
      x = ⟨start + front.length, own.length, x.row⟩ ∧ Image s x.row own ∧
      Laid s (start + front.length + own.length) ys more := by
  obtain ⟨front, rest, rfl, hx, hrest⟩ := h.of_append
  cases hrest with
  | @cons _ r own _ more image tail => exact ⟨front, own, more, rfl, hx, rfl, image, tail⟩

theorem image_of_mem (h : Laid s start records bytes) (hx : x ∈ records) :
    ∃ own, Image s x.row own := by
  obtain ⟨xs, ys, rfl⟩ := List.append_of_mem hx
  obtain ⟨front, own, more, -, -, -, image, -⟩ := h.of_append_cons
  exact ⟨own, image⟩

theorem fits_of_mem (h : Laid s start records bytes) (hx : x ∈ records) : x.row.Fits s := by
  obtain ⟨own, image⟩ := h.image_of_mem hx
  exact image.fits

theorem short_of_mem (h : Laid s start records bytes) (hx : x ∈ records) : x.row.Short := by
  obtain ⟨own, image⟩ := h.image_of_mem hx
  exact image.short

/-- A record begins with its flag, and setting the flag deletes its row and moves nothing. -/
theorem retire (h : Laid s 0 (xs ++ x :: ys) bytes) :
    bytes[x.offset]? = some (flagByte x.row.deleted) ∧
      Laid s 0 (xs ++ x.retired :: ys) (bytes.set x.offset (flagByte true)) := by
  obtain ⟨front, own, more, rfl, hxs, hplace, image, hys⟩ := h.of_append_cons
  obtain ⟨tail, rfl, marked⟩ := image.delete
  have hoffset : x.offset = front.length := by
    rw [hplace]
    exact Nat.zero_add _
  have hx : x.retired = ⟨0 + front.length, (flagByte true :: tail).length,
      { x.row with deleted := true }⟩ := by
    rw [hplace]
    rfl
  have hset : (front ++ (flagByte x.row.deleted :: tail ++ more)).set front.length (flagByte true) =
      front ++ (flagByte true :: tail ++ more) := by
    rw [List.set_append_right _ _ (Nat.le_refl _), Nat.sub_self]
    rfl
  rw [hoffset, hset, hx, List.getElem?_append_right (Nat.le_refl _), Nat.sub_self]
  exact ⟨rfl, hxs.append (Laid.cons marked hys)⟩

theorem offset_lt (h : Laid s 0 (xs ++ x :: ys) bytes) : x.offset < bytes.length :=
  (List.getElem?_eq_some_iff.mp h.retire.1).1

theorem run_record (h : Laid s 0 (xs ++ x :: ys) bytes) :
    ∃ c, (Decoder.record s).run ⟨x.offset, bytes.drop x.offset⟩ = (.ok (some x), c) := by
  obtain ⟨front, own, more, rfl, -, hplace, image, -⟩ := h.of_append_cons
  refine ⟨⟨x.offset + own.length, more⟩, ?_⟩
  rw [Nat.zero_add] at hplace
  rw [hplace, List.drop_left]
  exact image.run_record front.length more

/-- The last record ends where the bytes end. -/
theorem stop_eq (h : Laid s start records bytes) :
    (records.getLast?.map (·.stop)).getD start = start + bytes.length := by
  rcases List.eq_nil_or_concat records with rfl | ⟨xs, x, rfl⟩
  · cases h
    rfl
  · rw [List.concat_eq_append] at h ⊢
    obtain ⟨front, own, more, rfl, -, heq, -, hnil⟩ := h.of_append_cons
    cases hnil
    rw [List.getLast?_append, List.getLast?_singleton, heq]
    simp only [Option.some_or, Option.map_some, Option.getD_some, Stored.stop, List.length_append,
      List.append_nil, Nat.add_assoc]

theorem nine_mul_length_le (h : Laid s start records bytes) :
    9 * records.length ≤ bytes.length := by
  induction h with
  | nil start => exact Nat.le_refl 0
  | cons image tail ih =>
    have hnine := image.nine_le_length
    rw [List.length_cons, List.length_append]
    omega

end Laid

/-! ## Scanning -/

section scan

variable {stop : Option Nat} {c c' : Cursor}

theorem scan_stopped (h : stop.any (· ≤ c.position) = true) :
    scan s stop c = ⟨[], none, c⟩ := by
  rw [scan, if_pos h]

theorem scan_of_error {e : RecordError} (hs : ¬stop.any (· ≤ c.position) = true)
    (h : (Decoder.record s).run c = (.error e, c')) : scan s stop c = ⟨[], some e, c'⟩ := by
  rw [scan, if_neg hs]
  split <;> simp_all

theorem scan_of_none (hs : ¬stop.any (· ≤ c.position) = true)
    (h : (Decoder.record s).run c = (.ok none, c')) : scan s stop c = ⟨[], none, c'⟩ := by
  rw [scan, if_neg hs]
  split <;> simp_all

theorem scan_of_some {x : Stored} (hs : ¬stop.any (· ≤ c.position) = true)
    (h : (Decoder.record s).run c = (.ok (some x), c')) :
    scan s stop c =
      { scan s stop c' with records := x :: (scan s stop c').records } := by
  rw [scan, if_neg hs]
  split <;> simp_all

end scan

/-- A reading that stops no sooner than some records end begins with these records. -/
theorem Laid.scan_append {start : Nat} {records : List Stored} {bytes : List UInt8}
    (h : Laid s start records bytes) (stop : Option Nat)
    (hstop : ∀ n ∈ stop, start + bytes.length ≤ n) (tail : List UInt8) :
    scan s stop ⟨start, bytes ++ tail⟩ =
      { scan s stop ⟨start + bytes.length, tail⟩ with
        records := records ++ (scan s stop ⟨start + bytes.length, tail⟩).records } := by
  induction h with
  | nil start => rfl
  | @cons start r front records more image rest ih =>
    have hgo : ¬stop.any (· ≤ start) = true := by
      cases stop with
      | none => simp
      | some n =>
        have hn := hstop n rfl
        have hnine := image.nine_le_length
        simp only [List.length_append] at hn
        simp only [Option.any_some, decide_eq_true_eq]
        omega
    have hrest : ∀ n ∈ stop, start + front.length + more.length ≤ n := fun n hn => by
      have hle := hstop n hn
      rwa [List.length_append, ← Nat.add_assoc] at hle
    have hrun := image.run_record start (more ++ tail)
    rw [List.append_assoc, scan_of_some hgo hrun, ih hrest, List.length_append, ← Nat.add_assoc]
    rfl

/-- The records of a file are what reading the file gives. -/
theorem Laid.scan {records : List Stored} {bytes : List UInt8} (h : Laid s 0 records bytes) :
    scan s none ⟨0, bytes⟩ = ⟨records, none, ⟨bytes.length, []⟩⟩ := by
  have hall := h.scan_append none (fun n hn => nomatch hn) []
  rw [List.append_nil, Nat.zero_add,
    scan_of_none (by simp) (Decoder.run_record_nil bytes.length)] at hall
  rw [hall, List.append_nil]

/-- Reading no further than to where a file's records end gives the same. -/
theorem Laid.scan_stop {records : List Stored} {bytes : List UInt8}
    (h : Laid s 0 records bytes) :
    Record.scan s (some bytes.length) ⟨0, bytes⟩ =
    ⟨records, none, ⟨bytes.length, []⟩⟩ := by
  have hall := h.scan_append (some bytes.length)
    (fun n hn => by rw [Option.mem_some] at hn; omega) []
  rw [List.append_nil, Nat.zero_add, scan_stopped (c := ⟨bytes.length, []⟩) (by simp)] at hall
  rw [hall, List.append_nil]

/-- Any bytes begin with the records that are read from them, and the reading ends either behind
the last byte or before bytes that are no record. -/
theorem laid_scan (s : Schema) (start : Nat) (bytes : List UInt8) :
    ∃ front rest, bytes = front ++ rest ∧
      Laid s start (Record.scan s none ⟨start, bytes⟩).records front ∧
      match (Record.scan s none ⟨start, bytes⟩).failure with
      | none => rest = []
      | some e => rest ≠ [] ∧ Arises s (start + front.length) e := by
  have hgo (n : Nat) : ¬(none : Option Nat).any (· ≤ n) = true := by simp
  induction hn : bytes.length using Nat.strongRecOn generalizing start bytes with
  | ind n ih =>
    subst hn
    cases hrun : (Decoder.record s).run ⟨start, bytes⟩ with
    | mk result c =>
      match result with
      | .error e =>
        rw [scan_of_error (hgo start) hrun]
        obtain ⟨harises, hrest⟩ := Decoder.arises_of_run_record hrun
        exact ⟨[], bytes, rfl, Laid.nil start, hrest, harises⟩
      | .ok none =>
        rw [scan_of_none (hgo start) hrun]
        exact ⟨[], bytes, rfl, Laid.nil start, (Decoder.rest_of_run_record_none hrun).1⟩
      | .ok (some x) =>
        rw [scan_of_some (hgo start) hrun]
        obtain ⟨own, hbytes, hpos, hoffset, hlength, himage⟩ :=
          Decoder.image_of_run_record hrun
        obtain ⟨position, left⟩ := c
        obtain ⟨offset, length, r⟩ := x
        simp only at hbytes hpos hoffset hlength himage
        subst hbytes hpos hoffset hlength
        have hlt : left.length < (own ++ left).length := by
          have hnine := himage.nine_le_length
          rw [List.length_append]
          omega
        obtain ⟨front, rest, hleft, hlaid, hend⟩ :=
          ih left.length hlt (offset + own.length) left rfl
        refine ⟨own ++ front, rest, ?_, Laid.cons himage hlaid, ?_⟩
        · rw [hleft, List.append_assoc]
        · rwa [List.length_append, ← Nat.add_assoc]

end Record
end Tabulary
