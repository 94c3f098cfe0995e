import Tabulary.Proofs.Record.Reads
import Tabulary.Proofs.Record.Yields

/-!
Records and rows correspond: the bytes of a stored row are read back as that row, and bytes that
are read as a row are the bytes of that row.  A record whose bytes are cut short is always found
truncated.
-/

namespace Tabulary
namespace Record

/-- The bytes are the record of a row in stored form, with the row's own flag. -/
structure Image (s : Schema) (r : Row) (bytes : List UInt8) : Prop where
  fits : r.Fits s
  short : r.Short
  arranged : r.stored s r.deleted = r
  encoded : encode s r r.deleted = .ok bytes

theorem flagByte_cases (deleted : Bool) :
    ¬(flagByte deleted ≠ 0 ∧ flagByte deleted ≠ 1) ∧
      decide (flagByte deleted = 1) = deleted := by
  cases deleted <;> decide

theorem encodeInt_eq_ok {v : Value} {n : Int} (hk : v.key? = some n)
    (hn : Value.inRange n = true) : encodeInt v = .ok (intBytes n) := by
  simp only [encodeInt, hk, if_pos hn]

theorem encodeColumns_congr {r r' : Row} (h : ∀ column, r.value? column = r'.value? column)
    (cs : List Column) : encodeColumns r cs = encodeColumns r' cs := by
  induction cs with
  | nil => rfl
  | cons c rest ih => rw [encodeColumns, encodeColumns, Row.get, Row.get, h, ih]

variable {s : Schema}

/-- The bytes of a record depend on what the row holds in each column and on what its key counts
as. -/
theorem encode_congr {r r' : Row} (hid : r.id.key? = r'.id.key?)
    (h : ∀ column, r.value? column = r'.value? column) (deleted : Bool) :
    encode s r deleted = encode s r' deleted := by
  rw [encode, encode, encodeInt, encodeInt, hid, encodeColumns_congr h]

theorem stored_values (r : Row) (deleted : Bool) :
    (r.stored s deleted).values = (Value.keyColumn, r.held Value.keyColumn) ::
      s.dataColumns.map fun c => (c.name, r.held c.name) := by
  rw [Row.stored, Schema.columnNames, ← s.key_cons_dataColumns, List.map_cons, s.key_name,
    List.map_cons, List.map_map]
  rfl

/-- A row that fits has a record, of which only the first byte depends on the flag. -/
theorem exists_encode {r : Row} (hf : r.Fits s) (hs : r.Short) :
    ∃ tail, (∀ deleted, encode s r deleted = .ok (flagByte deleted :: tail)) ∧
      ∀ offset deleted,
        Decoder.Reads (Decoder.body s offset deleted) tail (r.stored s deleted) := by
  obtain ⟨n, hheld, hrange⟩ := hf.key_eq_int
  obtain ⟨m, hheld', hid⟩ := hf.id_key?
  have hmn : m = n := by
    rw [hheld] at hheld'
    exact (Value.int.inj hheld').symm
  subst hmn
  have hdata : ∀ c ∈ s.dataColumns, c.accepts (r.held c.name) = true :=
    fun c hc => hf.accepted c (s.mem_columns_of_data hc)
  obtain ⟨xs, hx, -⟩ := Decoder.reads_columns 0 hs hdata
  refine ⟨intBytes m ++ xs, fun deleted => ?_, fun offset deleted => ?_⟩
  · simp only [encode, encodeInt_eq_ok hid hrange, hx, bind, Except.bind]
    rfl
  · obtain ⟨ys, hy, hread⟩ := Decoder.reads_columns offset hs hdata
    have hxy : ys = xs := by
      rw [hx] at hy
      exact (Except.ok.inj hy).symm
    subst hxy
    have hrow : r.stored s deleted =
        { id := .int m,
          values := (Value.keyColumn, .int m) :: s.dataColumns.map fun c => (c.name, r.held c.name),
          deleted } := by
      rw [← hheld, ← stored_values r deleted]
      rfl
    rw [hrow]
    exact (Decoder.reads_integer hrange).bind (hread.map _)

/-- A row and its stored form have the same record. -/
theorem encode_stored {r : Row} (hf : r.Fits s) (again deleted : Bool) :
    encode s (r.stored s again) deleted = encode s r deleted := by
  obtain ⟨n, hheld, hid⟩ := hf.id_key?
  have hkey : (r.stored s again).id.key? = r.id.key? := by
    rw [Row.id_stored, hheld, hid]
    rfl
  exact encode_congr hkey (hf.value?_stored_eq again) deleted

/-- The record of a stored row, live or deleted. -/
theorem exists_image {r : Row} (hf : r.Fits s) (hs : r.Short) (deleted : Bool) :
    ∃ bytes, encode s r deleted = .ok bytes ∧ Image s (r.stored s deleted) bytes := by
  obtain ⟨tail, henc, -⟩ := exists_encode hf hs
  refine ⟨flagByte deleted :: tail, henc deleted, hf.stored deleted, hs.stored deleted, ?_, ?_⟩
  · rw [Row.deleted_stored, Row.stored_stored]
  · rw [Row.deleted_stored, encode_stored hf, henc]

theorem short_of_encodeValue {t : ColumnType} {v : Value} {bytes : List UInt8}
    (h : encodeValue t v = .ok bytes) : v.Short := by
  cases v with
  | text x =>
    cases t with
    | integer => cases h
    | text =>
      simp only [encodeValue, encodeText] at h
      split at h
      · assumption
      · cases h
  | int n => trivial
  | bool b => trivial
  | null => trivial

theorem held_short_of_encodeColumns {r : Row} {cs : List Column} {bytes : List UInt8}
    (h : encodeColumns r cs = .ok bytes) {c : Column} (hc : c ∈ cs) : (r.held c.name).Short := by
  induction cs generalizing bytes with
  | nil => cases hc
  | cons d rest ih =>
    unfold encodeColumns Row.get at h
    cases hv : r.value? d.name with
    | none =>
      rw [hv] at h
      cases h
    | some v =>
      have hheld : r.held d.name = v := by rw [Row.held, hv, Option.getD_some]
      simp only [hv, bind, Except.bind] at h
      split at h
      · cases h
      · rename_i own hown
        split at h
        · cases h
        · rename_i more hmore
          rcases List.mem_cons.mp hc with rfl | hc
          · exact hheld ▸ short_of_encodeValue hown
          · exact ih hmore hc

/-- Bytes that were written for a row are the record of its stored form. -/
theorem image_of_encode {r : Row} (hf : r.Fits s) {deleted : Bool} {bytes : List UInt8}
    (h : encode s r deleted = .ok bytes) : Image s (r.stored s deleted) bytes := by
  have hdata : ∀ c ∈ s.dataColumns, (r.held c.name).Short := by
    intro c hc
    unfold encode at h
    simp only [bind, Except.bind] at h
    split at h
    · cases h
    · split at h
      · cases h
      · rename_i hcols
        exact held_short_of_encodeColumns hcols hc
  have hshort : (r.stored s false).Short := by
    intro f hmem
    rw [stored_values] at hmem
    rcases List.mem_cons.mp hmem with rfl | hmem
    · obtain ⟨n, hn, -⟩ := hf.key_eq_int
      show (r.held Value.keyColumn).Short
      rw [hn]
      trivial
    · obtain ⟨c, hc, rfl⟩ := List.mem_map.mp hmem
      exact hdata c hc
  obtain ⟨bytes', henc, image⟩ := exists_image (hf.stored false) hshort deleted
  rw [encode_stored hf, h] at henc
  cases henc
  rwa [Row.stored_stored] at image

namespace Decoder

theorem run_record_nil (start : Nat) :
    (record s).run ⟨start, []⟩ = (.ok none, ⟨start, []⟩) := rfl

theorem run_record_cons (start : Nat) (flag : UInt8) (rest : List UInt8) :
    (record s).run ⟨start, flag :: rest⟩ =
      if flag ≠ 0 ∧ flag ≠ 1 then (.error (.unknownFlag flag.toNat start),
        ⟨start + 1, rest⟩)
      else match (body s start (flag = 1)).run ⟨start + 1, rest⟩ with
        | (.ok row, c) => (.ok (some ⟨start, c.position - start, row⟩), c)
        | (.error e, c) => (.error e, c) := by
  simp only [record, Attempt.run_bind, Attempt.run_get, Attempt.run_set]
  split
  · rfl
  · rw [Attempt.run_bind]
    generalize (body s start (decide (flag = 1))).run ⟨start + 1, rest⟩ = outcome
    obtain ⟨result, c⟩ := outcome
    cases result <;> rfl

end Decoder

namespace Image

variable {r : Row} {bytes : List UInt8}

theorem split (h : Image s r bytes) :
    ∃ tail, bytes = flagByte r.deleted :: tail ∧
      ∀ offset, Decoder.Reads (Decoder.body s offset r.deleted) tail r := by
  obtain ⟨tail, henc, hread⟩ := exists_encode h.fits h.short
  have hb := h.encoded
  rw [henc] at hb
  refine ⟨tail, (Except.ok.inj hb).symm, fun offset => ?_⟩
  have hr := hread offset r.deleted
  rwa [h.arranged] at hr

theorem run_record (h : Image s r bytes) (start : Nat) (rest : List UInt8) :
    (Decoder.record s).run ⟨start, bytes ++ rest⟩ =
      (.ok (some ⟨start, bytes.length, r⟩), ⟨start + bytes.length, rest⟩) := by
  obtain ⟨tail, rfl, hread⟩ := h.split
  obtain ⟨hflag, hdel⟩ := flagByte_cases r.deleted
  have hlen : start + 1 + tail.length = start + (tail.length + 1) := by omega
  have hsub : start + (tail.length + 1) - start = tail.length + 1 := by omega
  rw [List.cons_append, Decoder.run_record_cons, if_neg hflag, hdel, (hread start).whole]
  simp only [List.length_cons, hlen, hsub]

/-- A record cut short after its first byte is found truncated. -/
theorem run_record_cut (h : Image s r bytes) (start : Nat) {front : List UInt8}
    (hp : front <+: bytes) (hnil : front ≠ []) (hne : front ≠ bytes) :
    ∃ expected found c,
      (Decoder.record s).run ⟨start, front⟩ = (.error (.truncated expected found), c) := by
  obtain ⟨tail, rfl, hread⟩ := h.split
  obtain ⟨hflag, hdel⟩ := flagByte_cases r.deleted
  obtain ⟨b, more, rfl⟩ := List.exists_cons_of_ne_nil hnil
  obtain ⟨rfl, hmore⟩ := List.cons_prefix_cons.mp hp
  have hcut : more ≠ tail := fun heq => hne (by rw [heq])
  obtain ⟨expected, found, c, hrun⟩ := (hread start).cut (start + 1) more hmore hcut
  refine ⟨expected, found, c, ?_⟩
  rw [Decoder.run_record_cons, if_neg hflag, hdel, hrun]

/-- The key of a stored row is an integer. -/
theorem id_eq_int (h : Image s r bytes) : ∃ n, r.id = .int n ∧ Value.inRange n = true := by
  obtain ⟨n, hheld, hrange⟩ := h.fits.key_eq_int
  refine ⟨n, ?_, hrange⟩
  rw [← h.arranged, Row.id_stored, hheld]

/-- A record holds at least its flag and its key. -/
theorem nine_le_length (h : Image s r bytes) : 9 ≤ bytes.length := by
  obtain ⟨n, hid, hrange⟩ := h.id_eq_int
  have henc := h.encoded
  rw [encode, encodeInt_eq_ok (by rw [hid]; rfl) hrange] at henc
  cases hcols : encodeColumns r s.dataColumns with
  | error e =>
    rw [hcols] at henc
    cases henc
  | ok xs =>
    rw [hcols] at henc
    cases henc
    rw [List.length_cons, List.length_append, length_intBytes]
    omega

/-- Setting the flag byte of a record deletes its row and changes nothing else. -/
theorem delete (h : Image s r bytes) :
    ∃ tail, bytes = flagByte r.deleted :: tail ∧
      Image s { r with deleted := true } (flagByte true :: tail) := by
  obtain ⟨tail, henc, -⟩ := exists_encode h.fits h.short
  have hb := h.encoded
  rw [henc] at hb
  refine ⟨tail, (Except.ok.inj hb).symm, ⟨h.fits.columns, h.fits.key, h.fits.accepted⟩,
    h.short, ?_, ?_⟩
  · exact congrArg (fun x : Row => { x with deleted := true }) h.arranged
  · rw [← henc true]
    apply encode_congr
    · rfl
    · exact fun _ => rfl

end Image

/-! ## Bytes that are read as a row -/

theorem stored_of_keys {r : Row} (hk : Keyed.keys r.values = s.columnNames)
    (hid : r.id = r.held Value.keyColumn) : r.stored s r.deleted = r := by
  obtain ⟨id, values, deleted⟩ := r
  simp only [Row.stored, Row.mk.injEq, and_true]
  refine ⟨hid.symm, ?_⟩
  simp only [← hk, Keyed.keys, List.map_map]
  refine (List.map_congr_left fun f hf => ?_).trans (List.map_id values)
  have hnodup : (Keyed.keys values).Nodup := by
    have h := s.nodup_columnNames
    rwa [← hk] at h
  have hv : values.lookup f.1 = some f.2 := Keyed.lookup_of_mem hnodup hf
  simp only [Function.comp_apply, Row.held, Row.value?, hv, Option.getD_some, id_eq]

namespace Decoder

theorem yields_body (start : Nat) (deleted : Bool) :
    Yields (Arises s start) (body s start deleted) fun taken r =>
      r.deleted = deleted ∧ Image s r (flagByte deleted :: taken) := by
  refine (yields_integer.bind fun n =>
    (yields_columns (s := s) fun c hc => hc).map fun fields => _).mono ?_
  rintro _ _ ⟨_, taken, n, rfl, ⟨hn, rfl⟩, fields, rfl, hkeys, hshort, hrow⟩
  refine ⟨rfl, ?_⟩
  have hnames : Keyed.keys ((Value.keyColumn, Value.int n) :: fields) = s.columnNames := by
    rw [Schema.columnNames, ← s.key_cons_dataColumns, List.map_cons, s.key_name, ← hkeys]
    rfl
  have hlook : ∀ f ∈ (Value.keyColumn, Value.int n) :: fields,
      ((Value.keyColumn, Value.int n) :: fields).lookup f.1 = some f.2 := by
    have hnodup := s.nodup_columnNames
    rw [← hnames] at hnodup
    exact fun f hf => Keyed.lookup_of_mem hnodup hf
  obtain ⟨hacc, henc⟩ := hrow
    { id := .int n, values := (Value.keyColumn, .int n) :: fields, deleted }
    fun f hf => hlook f (List.mem_cons_of_mem _ hf)
  refine ⟨⟨fun name => by rw [hnames], Value.looseEq_refl _, fun c hc => ?_⟩, fun f hf => ?_,
    stored_of_keys hnames rfl, ?_⟩
  · rw [← s.key_cons_dataColumns] at hc
    rcases List.mem_cons.mp hc with rfl | hc
    · rw [s.key_name]
      exact (Column.accepts_integer_iff s.key_type _).mpr ⟨n, rfl, hn⟩
    · exact hacc c hc
  · rcases List.mem_cons.mp hf with rfl | hf
    · trivial
    · exact hshort f hf
  · simp only [encode, encodeInt_eq_ok (v := .int n) rfl hn, henc, bind, Except.bind]
    rfl

/-- A record that was read is the record of its row. -/
theorem image_of_run_record {c c' : Cursor} {x : Stored}
    (h : (record s).run c = (.ok (some x), c')) :
    ∃ taken, c.rest = taken ++ c'.rest ∧ c'.position = c.position + taken.length ∧
      x.offset = c.position ∧ x.length = taken.length ∧ Image s x.row taken := by
  obtain ⟨start, rest⟩ := c
  cases rest with
  | nil => cases h
  | cons flag rest =>
    rw [run_record_cons] at h
    split at h
    · cases h
    · rename_i hflag
      split at h
      · rename_i row c₁ hrun
        cases h
        obtain ⟨taken, hrest, hpos, -, himage⟩ := (yields_body start _).ok hrun
        have hbyte : flagByte (decide (flag = 1)) = flag := by
          by_cases h1 : flag = 1
          · rw [h1]
            rfl
          · rw [decide_eq_false h1]
            exact (Decidable.byContradiction fun h0 => hflag ⟨fun he => h0 he.symm, h1⟩)
        rw [hbyte] at himage
        refine ⟨flag :: taken, ?_, ?_, rfl, ?_, himage⟩
        · exact congrArg (flag :: ·) hrest
        · simp only [hpos, List.length_cons]
          omega
        · simp only [hpos, List.length_cons]
          omega
      · cases h

/-- The clean end: nothing is left to read. -/
theorem rest_of_run_record_none {c c' : Cursor} (h : (record s).run c = (.ok none, c')) :
    c.rest = [] ∧ c' = c := by
  obtain ⟨start, rest⟩ := c
  cases rest with
  | nil =>
    cases h
    exact ⟨rfl, rfl⟩
  | cons flag rest =>
    rw [run_record_cons] at h
    split at h
    · cases h
    · split at h <;> cases h

theorem arises_of_run_record {c c' : Cursor} {e : RecordError}
    (h : (record s).run c = (.error e, c')) : Arises s c.position e ∧ c.rest ≠ [] := by
  obtain ⟨start, rest⟩ := c
  cases rest with
  | nil => cases h
  | cons flag rest =>
    refine ⟨?_, List.cons_ne_nil flag rest⟩
    rw [run_record_cons] at h
    split at h
    · rename_i hflag
      cases h
      have h0 : flag.toNat ≠ 0 := fun he => hflag.1 (UInt8.toNat_inj.mp he)
      have h1 : flag.toNat ≠ 1 := fun he => hflag.2 (UInt8.toNat_inj.mp he)
      have hlt := flag.toNat_lt
      exact ⟨rfl, by omega, hlt⟩
    · split at h
      · cases h
      · rename_i hrun
        cases h
        exact (yields_body start _).error hrun

end Decoder
end Record
end Tabulary
