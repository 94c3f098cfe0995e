import Tabulary.Proofs.Record.Layout

/-!
The two round trips of a table file.  Rows that are written one after another are read back, each
at its place, and a record that is cut short is found truncated (`scan_encode`).  In the other
direction any bytes are tiled from their start by the records read from them, and every record is
written again as the very bytes it was read from (`encode_scan`).
-/

namespace Tabulary
namespace Record

/-- Rows with their bytes as records, one after another from a position. -/
def place : Nat → List Row → List (List UInt8) → List Stored
  | start, r :: rows, bytes :: pieces =>
    ⟨start, bytes.length, r⟩ :: place (start + bytes.length) rows pieces
  | _, [], _ => []
  | _, _ :: _, [] => []

theorem length_place {rows : List Row} {pieces : List (List UInt8)}
    (h : rows.length = pieces.length) (start : Nat) :
    (place start rows pieces).length = rows.length := by
  induction rows generalizing start pieces with
  | nil => rfl
  | cons r rows ih =>
    cases pieces with
    | nil => cases h
    | cons bytes pieces =>
      rw [place, List.length_cons, List.length_cons, ih (Nat.succ.inj h)]

/-- The record of the row at an index begins behind the bytes of all rows before it. -/
theorem getElem?_place {rows : List Row} {pieces : List (List UInt8)} {i : Nat} {r : Row}
    {bytes : List UInt8} (hr : rows[i]? = some r) (hb : pieces[i]? = some bytes) (start : Nat) :
    (place start rows pieces)[i]? =
      some ⟨start + (pieces.take i).flatten.length, bytes.length, r⟩ := by
  induction rows generalizing i start pieces with
  | nil => cases hr
  | cons r' rows ih =>
    cases pieces with
    | nil => cases hb
    | cons bytes' pieces =>
      cases i with
      | zero =>
        cases hr
        cases hb
        rfl
      | succ i =>
        rw [List.getElem?_cons_succ] at hr hb
        rw [place, List.getElem?_cons_succ, ih hr hb, List.take_succ_cons, List.flatten_cons,
          List.length_append, Nat.add_assoc]

variable {s : Schema}

/-- Rows that fit can be written, and what is written is laid out in their order. -/
theorem exists_laid_encode {rows : List (Row × Bool)}
    (h : ∀ p ∈ rows, p.1.Fits s ∧ p.1.Short) :
    ∃ pieces, rows.mapM (fun p => encode s p.1 p.2) = .ok pieces ∧
      pieces.length = rows.length ∧ (∀ bytes ∈ pieces, ∃ r, Image s r bytes) ∧
      ∀ start, Laid s start (place start (rows.map fun p => p.1.stored s p.2) pieces)
        pieces.flatten := by
  induction rows with
  | nil =>
    exact ⟨[], rfl, rfl, fun bytes hb => (List.not_mem_nil hb).elim,
      fun start => Laid.nil start⟩
  | cons p rows ih =>
    obtain ⟨hf, hs⟩ := h p List.mem_cons_self
    obtain ⟨bytes, henc, image⟩ := exists_image hf hs p.2
    obtain ⟨pieces, hmap, hlen, himages, hlaid⟩ :=
      ih fun q hq => h q (List.mem_cons_of_mem p hq)
    refine ⟨bytes :: pieces, ?_, ?_, ?_, fun start => Laid.cons image (hlaid _)⟩
    · rw [List.mapM_cons, henc, hmap]
      rfl
    · rw [List.length_cons, List.length_cons, hlen]
    · intro b hb
      rcases List.mem_cons.mp hb with rfl | hb
      · exact ⟨_, image⟩
      · exact himages b hb

/-- Records that lie one after another are the encodings of their rows. -/
theorem Laid.exists_pieces {start : Nat} {records : List Stored} {bytes : List UInt8}
    (h : Laid s start records bytes) :
    ∃ pieces, records.mapM (fun x => encode s x.row x.row.deleted) = .ok pieces ∧
      pieces.flatten = bytes ∧ place start (records.map (·.row)) pieces = records := by
  induction h with
  | nil start => exact ⟨[], rfl, rfl, rfl⟩
  | @cons start r front records more image tail ih =>
    obtain ⟨pieces, hmap, hflat, hplace⟩ := ih
    refine ⟨front :: pieces, ?_, ?_, ?_⟩
    · rw [List.mapM_cons, image.encoded, hmap]
      rfl
    · rw [List.flatten_cons, hflat]
    · rw [List.map_cons, place, hplace]

/-- Rows written one after another are read back in order, each with its flag, at the place where
it was written; and no proper front of one record is taken for a record or for a damaged one. -/
theorem scan_encode (s : Schema) (rows : List (Row × Bool))
    (h : ∀ p ∈ rows, p.1.Fits s ∧ p.1.Short) :
    ∃ pieces, rows.mapM (fun p => encode s p.1 p.2) = .ok pieces ∧
      (∃ records : List Stored,
        scan s none ⟨0, pieces.flatten⟩ = ⟨records, none, ⟨pieces.flatten.length, []⟩⟩ ∧
        records.length = rows.length ∧
        ∀ (i : Nat) r deleted bytes, rows[i]? = some (r, deleted) → pieces[i]? = some bytes →
          ∃ row, records[i]? = some ⟨(pieces.take i).flatten.length, bytes.length, row⟩ ∧
            row.deleted = deleted ∧ row.Same r) ∧
      ∀ bytes ∈ pieces, ∀ front, front <+: bytes → front ≠ [] → front ≠ bytes → ∀ start,
        ∃ expected found c,
          (Decoder.record s).run ⟨start, front⟩ = (.error (.truncated expected found), c) := by
  obtain ⟨pieces, hmap, hlen, himages, hlaid⟩ := exists_laid_encode h
  refine ⟨pieces, hmap, ⟨_, (hlaid 0).scan, ?_, ?_⟩, ?_⟩
  · rw [length_place _ 0, List.length_map]
    rw [List.length_map, hlen]
  · intro i r deleted bytes hr hb
    have hfit : r.Fits s := (h (r, deleted) (List.mem_of_getElem? hr)).1
    have hrow : (rows.map fun p => p.1.stored s p.2)[i]? = some (r.stored s deleted) := by
      rw [List.getElem?_map, hr]
      rfl
    refine ⟨r.stored s deleted, ?_, Row.deleted_stored s r deleted, hfit.stored_same deleted⟩
    rw [getElem?_place hrow hb, Nat.zero_add]
  · intro bytes hb front hfront hne hcut start
    obtain ⟨r, image⟩ := himages bytes hb
    exact image.run_record_cut start hfront hne hcut

/-- Both limits of the integers, an empty text and one of several bytes a character. -/
theorem scan_encode_limits :
    let rows :=
      [(Sample.person Value.minInt "é€" Value.maxInt, true), (Sample.person 0 "" (-1), false)]
    (∀ p ∈ rows, p.1.Fits Sample.people ∧ p.1.Short) ∧
    ∃ pieces, rows.mapM (fun p => encode Sample.people p.1 p.2) = .ok pieces ∧
      ∃ records,
        scan Sample.people none ⟨0, pieces.flatten⟩ =
          ⟨records, none, ⟨pieces.flatten.length, []⟩⟩ ∧ records.length = 2 := by
  intro rows
  have h : ∀ p ∈ rows, p.1.Fits Sample.people ∧ p.1.Short := by decide
  obtain ⟨pieces, hmap, ⟨records, hscan, hlen, -⟩, -⟩ := scan_encode Sample.people rows h
  exact ⟨h, pieces, hmap, records, hscan, hlen⟩

/-! ## From bytes to rows and back -/

/-- Each record begins where the one before it ends, the first at a position, and holds at least
its flag and its key. -/
def Tiles : Nat → List Stored → Prop
  | _, [] => True
  | start, x :: rest => x.offset = start ∧ 9 ≤ x.length ∧ Tiles x.stop rest

theorem Laid.tiles {start : Nat} {records : List Stored} {bytes : List UInt8}
    (h : Laid s start records bytes) : Tiles start records := by
  induction h with
  | nil start => trivial
  | cons image tail ih => exact ⟨rfl, image.nine_le_length, ih⟩

theorem Laid.encode_of_mem {records : List Stored} {bytes : List UInt8} (h : Laid s 0 records bytes)
    {x : Stored} (hx : x ∈ records) (rest : List UInt8) :
    x.stop ≤ bytes.length ∧
      encode s x.row x.row.deleted = .ok (((bytes ++ rest).drop x.offset).take x.length) := by
  obtain ⟨xs, ys, rfl⟩ := List.append_of_mem hx
  obtain ⟨before, own, after, hbytes, -, hplace, image, -⟩ := h.of_append_cons
  rw [Nat.zero_add] at hplace
  have hown : ((bytes ++ rest).drop x.offset).take x.length = own := by
    rw [hbytes, hplace, List.append_assoc, List.drop_left, List.append_assoc, List.take_left]
  refine ⟨?_, hown.symm ▸ image.encoded⟩
  rw [hplace, hbytes, List.length_append, List.length_append]
  show before.length + own.length ≤ _
  omega

/-- Whatever the bytes are, the records read from them tile the bytes from the start and are
written again as the bytes they were read from, and the reading ends in one of three ways: behind
the last byte, inside a record that is cut short, or before a record that is damaged. -/
theorem encode_scan (s : Schema) (bytes : List UInt8) :
    Tiles 0 (scan s none ⟨0, bytes⟩).records ∧
    9 * (scan s none ⟨0, bytes⟩).records.length ≤ bytes.length ∧
    (∀ x ∈ (scan s none ⟨0, bytes⟩).records, x.stop ≤ bytes.length ∧
      encode s x.row x.row.deleted = .ok ((bytes.drop x.offset).take x.length)) ∧
    match (scan s none ⟨0, bytes⟩).failure with
    | none => (scan s none ⟨0, bytes⟩).stop = bytes.length
    | some (.truncated expected found) =>
      found < expected ∧ (scan s none ⟨0, bytes⟩).stop < bytes.length
    | some (.unknownFlag flag offset) =>
      1 < flag ∧ offset = (scan s none ⟨0, bytes⟩).stop ∧ offset < bytes.length
    | some (.notUtf8 column offset) =>
      (∃ c ∈ s.dataColumns, c.name = column ∧ c.type = .text) ∧
        offset = (scan s none ⟨0, bytes⟩).stop ∧ offset < bytes.length
    | some .nothing => False := by
  obtain ⟨front, rest, hbytes, hlaid, hend⟩ := laid_scan s 0 bytes
  generalize scan s none ⟨0, bytes⟩ = found at hlaid hend ⊢
  have hstop : found.stop = front.length := by
    rw [Scan.stop, hlaid.stop_eq, Nat.zero_add]
  have hlen : bytes.length = front.length + rest.length := by
    rw [hbytes, List.length_append]
  refine ⟨hlaid.tiles, ?_, fun x hx => ?_, ?_⟩
  · have hnine := hlaid.nine_mul_length_le
    omega
  · obtain ⟨hend, hencode⟩ := hlaid.encode_of_mem hx rest
    rw [hbytes]
    exact ⟨by rw [List.length_append]; omega, hencode⟩
  · have hrest (hne : rest ≠ []) : 0 < rest.length := List.length_pos_iff.mpr hne
    rw [hstop]
    cases hfail : found.failure with
    | none =>
      rw [hfail] at hend
      rw [hlen, show rest = [] from hend, List.length_nil, Nat.add_zero]
    | some e =>
      rw [hfail] at hend
      obtain ⟨hne, harises⟩ := hend
      rw [Nat.zero_add] at harises
      have hpos := hrest hne
      cases e with
      | truncated expected found => exact ⟨harises, by omega⟩
      | nothing => exact harises
      | unknownFlag flag offset =>
        obtain ⟨hoffset, hflag, -⟩ := harises
        exact ⟨hflag, hoffset, by omega⟩
      | notUtf8 column offset =>
        obtain ⟨hoffset, hcolumn⟩ := harises
        exact ⟨hcolumn, hoffset, by omega⟩

end Record
end Tabulary
