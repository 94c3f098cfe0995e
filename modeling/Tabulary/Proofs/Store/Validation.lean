import Tabulary.Proofs.Keyed
import Tabulary.Proofs.Store.History
import Tabulary.Proofs.Table.Separate
import Tabulary.Proofs.Text.Decimal

/-!
Rows that a caller offers to a table.  An operation that puts a row into a table takes values of any
kind: too few columns or too many, integers of any size, truth values, `null`, a key that is not the
value of `id`.  Main statement: every such operation is refused by a rule of the schema or of the
rows that are there, or the row that it offers fits the schema, and its record is read back with
exactly the values that were offered (`put_validated`).  So what is asked of a row before it is
encoded is all that the encoding needs.
-/

namespace Tabulary

open Record

/-- The rules of a schema that a row breaks, each with the error that says so. -/
inductive Row.Breaks (s : Schema) (r : Row) : EngineError → Prop
  | columns (differ : ¬∀ name, name ∈ Keyed.keys r.values ↔ name ∈ s.columnNames) :
      Breaks s r (.schema
        (.rowColumns ((Keyed.keys r.values).mergeSort fun a b => a ≤ b) s.name s.columnNames))
  | key (differs : (r.held Value.keyColumn).looseEq r.id = false) :
      Breaks s r (.schema (.rowKeyDiffers r.id))
  | type {c : Column} (mem : c ∈ s.columns) (refused : c.accepts (r.held c.name) = false) :
      Breaks s r (.typeMismatch c.name (r.held c.name) c.type)

namespace Operation

/-- Whether an operation writes a row. -/
def putsRow : Operation → Bool
  | insert _ | update _ | updateValues _ _ => true
  | delete _ | select _ | selectAll | rowCount | rebuild | reopen => false

/-- The key of the row that an operation puts another in the place of. -/
def replaced? : Operation → Option Value
  | update r => some r.id
  | updateValues id _ => some id
  | _ => none

/-- The row that an operation offers to a table of these rows. -/
inductive Offers (rows : Rows) : Operation → Row → Prop
  | insert (r : Row) : Offers rows (.insert r) r
  | update (r : Row) : Offers rows (.update r) r
  | updateValues {x : Row} {id : Value} (changes : List (String × Value)) (mem : x ∈ rows)
      (key : x.id.looseEq id = true) : Offers rows (.updateValues id changes) (x.changed changes)

/-- The rules by which a table of these rows refuses an operation, each with the error that says
so. -/
inductive Refuses (s : Schema) (rows : Rows) : Operation → EngineError → Prop
  | breaks {op : Operation} {r : Row} {e : EngineError} (offers : op.Offers rows r)
      (breaks : r.Breaks s e) : Refuses s rows op e
  | duplicate {r x : Row} (mem : x ∈ rows) (key : x.id.looseEq r.id = true) :
      Refuses s rows (.insert r) (.duplicateKey r.id)
  | absent {op : Operation} {id : Value} (replaced : op.replaced? = some id)
      (none : ∀ x ∈ rows, x.id.looseEq id = false) : Refuses s rows op (.noRecord id)
  | keyChange {x : Row} {id : Value} {changes : List (String × Value)} (mem : x ∈ rows)
      (key : x.id.looseEq id = true) (differs : (x.changed changes).id.looseEq x.id = false) :
      Refuses s rows (.updateValues id changes) (.schema (.keyChange x.id))
  | taken {op : Operation} {r x : Row} {c : Column} (offers : op.Offers rows r)
      (unique : c ∈ s.uniqueColumns)
      (mem : x ∈ rows) (stays : ∀ id, op.replaced? = some id → x.id.looseEq id = false)
      (same : x.held c.name = r.held c.name) :
      Refuses s rows op (.valueTaken c.name (r.held c.name))

end Operation

/-! ## Why an operation on rows fails -/

section

variable {s : Schema} {rows : Rows} {r x : Row} {id : Value} {e : EngineError} {f : Fault}

theorem refuse_eq_error {found : Option EngineError} (h : refuse found = .error f) :
    ∃ e, f = .raised e ∧ found = some e := by
  cases found with
  | none => cases h
  | some e =>
    cases h
    exact ⟨e, rfl, rfl⟩

theorem Row.breaks_of_fault? (h : r.fault? s = some e) : r.Breaks s e := by
  unfold fault? at h
  split at h
  · rename_i hnames
    cases h
    refine .columns fun hsame => ?_
    rw [(sameNames_iff _ _).mpr hsame] at hnames
    cases hnames
  · split at h
    · rename_i hkey
      cases h
      exact .key hkey
    · obtain ⟨c, hfind, rfl⟩ := Option.map_eq_some_iff.mp h
      refine .type (List.mem_of_find?_eq_some hfind) ?_
      simpa using List.find?_some hfind

namespace Rows

/-- A row finds no place behind others only if one of them has its value in a unique column. -/
theorem append_eq_error (h : rows.append s r = .error f) :
    ∃ c ∈ s.uniqueColumns, ∃ x ∈ rows, x.held c.name = r.held c.name ∧
      f = .raised (.valueTaken c.name (r.held c.name)) := by
  rcases Attempt.of_bind_error h with h | ⟨_, -, h⟩
  · obtain ⟨e, rfl, htaken⟩ := refuse_eq_error h
    obtain ⟨c, hfind, rfl⟩ := Option.map_eq_some_iff.mp htaken
    obtain ⟨x, hx, hsame⟩ := List.any_eq_true.mp
      (List.find?_some (p := fun c : Column => rows.any fun x => x.held c.name = r.held c.name)
        hfind)
    exact ⟨c, List.mem_of_find?_eq_some hfind, x, hx, of_decide_eq_true hsame, rfl⟩
  · cases h

end Rows

namespace Operation

theorem refuses_insert (h : rows.insert s r = .error f) :
    ∃ e, f = .raised e ∧ Refuses s rows (.insert r) e := by
  rcases Attempt.of_bind_error h with h | ⟨_, -, h⟩
  · obtain ⟨e, rfl, hfault⟩ := refuse_eq_error h
    exact ⟨e, rfl, .breaks (.insert r) (Row.breaks_of_fault? hfault)⟩
  · unfold Rows.add at h
    cases hfind : rows.find r.id with
    | some x =>
      rw [hfind] at h
      cases h
      exact ⟨_, rfl, .duplicate (List.mem_of_find?_eq_some hfind)
        (List.find?_some (p := fun y : Row => y.id.looseEq r.id) hfind)⟩
    | none =>
      rw [hfind] at h
      obtain ⟨c, hc, x, hx, hsame, rfl⟩ := Rows.append_eq_error h
      exact ⟨_, rfl, .taken (.insert r) hc hx (fun id hid => nomatch hid) hsame⟩

theorem refuses_update (h : rows.update s r = .error f) :
    ∃ e, f = .raised e ∧ Refuses s rows (.update r) e := by
  rcases Attempt.of_bind_error h with h | ⟨_, -, h⟩
  · obtain ⟨e, rfl, hfault⟩ := refuse_eq_error h
    exact ⟨e, rfl, .breaks (.update r) (Row.breaks_of_fault? hfault)⟩
  · rcases Attempt.of_bind_error h with h | ⟨x, hget, h⟩
    · obtain ⟨rfl, hnone⟩ := Rows.get_eq_error h
      exact ⟨_, rfl, .absent rfl hnone⟩
    · obtain ⟨c, hc, y, hy, hsame, rfl⟩ := Rows.append_eq_error h
      obtain ⟨hmem, hother⟩ := Rows.mem_without hy (Rows.get_eq_ok hget).2
      refine ⟨_, rfl, .taken (.update r) hc hmem (fun id hid => ?_) hsame⟩
      cases hid
      exact hother

theorem refuses_updateValues {changes : List (String × Value)}
    (h : rows.updateValues s id changes = .error f) :
    ∃ e, f = .raised e ∧ Refuses s rows (.updateValues id changes) e := by
  rcases Attempt.of_bind_error h with h | ⟨x, hget, h⟩
  · obtain ⟨rfl, hnone⟩ := Rows.get_eq_error h
    exact ⟨_, rfl, .absent rfl hnone⟩
  obtain ⟨hx, hkey⟩ := Rows.get_eq_ok hget
  rcases Attempt.of_bind_error h with h | ⟨r, hchange, h⟩
  · rcases Attempt.of_bind_error h with h | ⟨_, -, h⟩
    · obtain ⟨e, rfl, hfault⟩ := refuse_eq_error h
      exact ⟨e, rfl, .breaks (.updateValues changes hx hkey) (Row.breaks_of_fault? hfault)⟩
    · cases hsame : (x.changed changes).id.looseEq x.id with
      | true =>
        rw [hsame] at h
        cases h
      | false =>
        rw [hsame] at h
        cases h
        exact ⟨_, rfl, .keyChange hx hkey hsame⟩
  · obtain ⟨rfl, -, -⟩ := Row.change_eq_ok hchange
    rcases Attempt.of_bind_error h with h | ⟨_, -, h⟩
    · obtain ⟨c, hc, y, hy, hsame, rfl⟩ := Rows.append_eq_error h
      obtain ⟨hmem, hother⟩ := Rows.mem_without hy hkey
      refine ⟨_, rfl, .taken (.updateValues changes hx hkey) hc hmem (fun id hid => ?_) hsame⟩
      cases hid
      exact hother
    · cases h

theorem exists_target {op : Operation} (h : op.putsRow = true) : ∃ id, op.target? = some id := by
  cases op with
  | insert r | update r => exact ⟨r.id, rfl⟩
  | updateValues id changes => exact ⟨id, rfl⟩
  | delete | select | selectAll | rowCount | rebuild | reopen => cases h

/-- Where a row is put, only a rule refuses it. -/
theorem refuses_of_onRows {op : Operation} (hop : op.putsRow = true)
    (h : op.onRows s rows = .error f) : ∃ e, f = .raised e ∧ Refuses s rows op e := by
  cases op with
  | insert r => exact refuses_insert (Attempt.of_map_error h)
  | update r => exact refuses_update (Attempt.of_map_error h)
  | updateValues id changes => exact refuses_updateValues (Attempt.of_map_error h)
  | delete | select | selectAll | rowCount | rebuild | reopen => cases hop

theorem Refuses.kind_mem {op : Operation} (h : Refuses s rows op e) :
    e.kind ∈ ["SchemaValidation", "TypeMismatch", "DuplicateKey", "UniqueConstraintViolation",
      "RecordNotFound"] := by
  cases h with
  | breaks _ breaks => cases breaks <;> simp [EngineError.kind]
  | duplicate | absent | keyChange | taken => simp [EngineError.kind]

end Operation

end

/-! ## What a refusal shows -/

/-- No value of the row is an integer that is too long to be written. -/
structure Row.Writable (r : Row) : Prop where
  id : r.id.writable = true
  held : ∀ column, (r.held column).writable = true

section

variable {s : Schema} {rows : Rows} {r x : Row} {e : EngineError}

theorem Column.writable_of_accepts {c : Column} {v : Value} (h : c.accepts v = true) :
    v.writable = true := by
  cases ht : c.type with
  | integer =>
    obtain ⟨n, rfl, hn⟩ := (accepts_integer_iff ht v).mp h
    exact Value.writable_of_inRange hn
  | text =>
    obtain ⟨t, rfl⟩ := (accepts_text_iff ht v).mp h
    rfl

theorem Row.Fits.writable (h : r.Fits s) : r.Writable where
  id := by
    obtain ⟨n, hheld, hrange⟩ := h.key_eq_int
    obtain ⟨m, hheld', hid⟩ := h.id_key?
    rw [hheld] at hheld'
    cases hheld'
    cases hkey : r.id with
    | int k =>
      rw [hkey] at hid
      cases hid
      exact Value.writable_of_inRange hrange
    | bool | text | null => rfl
  held column := by
    cases hlookup : r.values.lookup column with
    | none =>
      rw [Row.held, Row.value?, hlookup]
      rfl
    | some v =>
      have hmem := (h.columns column).mp (Keyed.mem_keys_of_lookup hlookup)
      obtain ⟨c, hc, rfl⟩ := List.mem_map.mp hmem
      exact Column.writable_of_accepts (h.accepted c hc)

theorem Row.Writable.changed (hx : x.Writable) {changes : List (String × Value)}
    (hchanges : ∀ p ∈ changes, p.2.writable = true) : (x.changed changes).Writable := by
  have hheld (column : String) : ((x.changed changes).held column).writable = true := by
    rw [Row.held, Row.value?_changed]
    cases hlookup : changes.reverse.lookup column with
    | none => exact hx.held column
    | some v =>
      obtain ⟨xs, ys, heq, -⟩ := List.lookup_eq_some_iff.mp hlookup
      exact hchanges (column, v) (List.mem_reverse.mp (heq ▸ by simp))
  exact ⟨hheld Value.keyColumn, hheld⟩

theorem Row.writable_of_ofValues {values : List (String × Value)} (h : Row.ofValues values = .ok r)
    (hvalues : ∀ p ∈ values, p.2.writable = true) : r.Writable := by
  have hheld (column : String) : ((values.lookup column).getD .null).writable = true := by
    cases hlookup : values.lookup column with
    | none => rfl
    | some v =>
      obtain ⟨xs, ys, rfl, -⟩ := List.lookup_eq_some_iff.mp hlookup
      exact hvalues (column, v) (by simp)
  unfold Row.ofValues at h
  cases hkey : values.lookup Value.keyColumn with
  | none =>
    rw [hkey] at h
    cases h
  | some id =>
    have hid := hheld Value.keyColumn
    rw [hkey] at h hid
    cases h
    exact ⟨hid, hheld⟩

/-- A refusal shows a value of the row that is offered, a key that is asked for or the key of a row
that is there. -/
theorem Operation.Refuses.raised_eq {op : Operation} (h : op.Refuses s rows e)
    (hrows : ∀ x ∈ rows, x.Writable) (hkey : ∀ id, op.replaced? = some id →
      id.writable = true)
    (hoffers : ∀ r, op.Offers rows r → r.Writable) : Fault.raised e = .engine e := by
  refine Fault.raised_of_writable ?_
  cases h with
  | breaks offers breaks =>
    cases breaks with
    | columns => rfl
    | key => exact (hoffers _ offers).id
    | type => exact (hoffers _ offers).held _
  | duplicate => exact (hoffers _ (.insert _)).id
  | absent replaced => exact hkey _ replaced
  | keyChange mem => exact (hrows _ mem).id
  | taken offers => exact (hoffers _ offers).held _

end

/-! ## The record of a row that is taken -/

namespace Store

open Operation

/-- The bytes behind a file are the record of a row. -/
structure Appends (s : Schema) (file bytes : Bytes) (row : Row) (file' : Bytes) : Prop where
  behind : ∃ front, front.length = file.length ∧ file' = front ++ bytes
  decoded : decode s bytes = .ok row
  found : ∃ before, scan s none ⟨0, file'⟩ =
    ⟨before ++ [⟨file.length, bytes.length, row⟩], none, ⟨file'.length, []⟩⟩

variable {s : Schema} {path : Path} {st st' : Store} {h : Handle} {w w' : World}
  {records : List Stored}
  {r : Row} {file front bytes : Bytes} {op : Operation} {result : Except Fault Answer}

theorem decode_image (image : Image s r bytes) : decode s bytes = .ok r := by
  have hrun := image.run_record 0 []
  rw [List.append_nil] at hrun
  rw [decode, hrun]

theorem appends_of_laid (hl : Laid s 0 records front) (hlength : front.length = file.length)
    (hr : r.Fits s)
    (henc : encode s r false = .ok bytes) : Appends s file bytes (r.stored s false)
    (front ++ bytes) where
  behind := ⟨front, hlength, rfl⟩
  decoded := decode_image (image_of_encode hr henc)
  found := by
    have hscan := (laid_appended hl hr henc).scan
    rw [Nat.zero_add, hlength] at hscan
    exact ⟨records, hscan⟩

/-- An operation that has put a row has written the record of the row that it offered. -/
theorem Writes.appends {a : Answer} {file' : Bytes} (hw : Writes s file records op (.ok a) file')
    (hl : Laid s 0 records file) (hop : op.putsRow = true) :
    ∃ r bytes, op.Offers (liveRows records) r ∧ r.Fits s ∧
    Appends s file bytes (r.stored s false) file' := by
  have hset {x : Stored} : (file.set x.offset 1).length = file.length := List.length_set
  cases hw with
  | asked a reads =>
    obtain ⟨id, htarget⟩ := exists_target hop
    rw [htarget] at reads
    cases reads
  | inserted fits encoded => exact ⟨_, _, .insert _, fits, appends_of_laid hl rfl fits encoded⟩
  | deleted => cases hop
  | updated mem key fits encoded =>
    obtain ⟨xs, ys, rfl, -⟩ := split_of_mem_live mem
    exact ⟨_, _, .update _, fits, appends_of_laid hl.retire.2 hset fits encoded⟩
  | @changed id changes x bytes mem key fits encoded =>
    have hoffers := Offers.updateValues changes (List.mem_map_of_mem (f := (·.row)) mem) key
    obtain ⟨xs, ys, rfl, -⟩ := split_of_mem_live mem
    exact ⟨_, _, hoffers, fits, appends_of_laid hl.retire.2 hset fits encoded⟩

/-- An operation that puts a row is refused by a rule and leaves the file, or takes the row that it
offers. -/
theorem Opened.puts (ho : Opened s path st h w.files records) (hop : op.putsRow = true)
    (hs : op.Short) (hrun : op.run.run (st, w) = (result, (st', w'))) :
    ∃ file', w'.files.read path = .ok file' ∧
      ((∃ e, result = .error (.raised e) ∧ Refuses s (liveRows records) op e ∧
          file' = w.files.nodeBytes h.node) ∨
        ∃ a r bytes, result = .ok a ∧ op.Offers (liveRows records) r ∧ r.Fits s ∧
          Appends s (w.files.nodeBytes h.node) bytes (r.stored s false) file') := by
  obtain ⟨h', records', ho', hwrites⟩ := ho.writes hrun
  have hread := ho'.read_eq
  rw [ho'.place] at hread
  refine ⟨_, hread, ?_⟩
  have hresult := (run_ends ho hs).result_eq
  rw [hrun] at hresult
  cases hwrites' : result with
  | error f =>
    rw [hwrites'] at hwrites hresult
    obtain ⟨e, rfl, hrefuses⟩ := refuses_of_onRows hop (Attempt.of_map_error hresult.symm)
    refine Or.inl ⟨e, rfl, hrefuses, ?_⟩
    generalize w'.files.nodeBytes h'.node = file' at hwrites ⊢
    cases hwrites
    rfl
  | ok a =>
    rw [hwrites'] at hwrites
    obtain ⟨r, bytes, hoffers, hfits, happends⟩ := hwrites.appends ho.laid hop
    exact Or.inr ⟨a, r, bytes, rfl, hoffers, hfits, happends⟩

end Store

namespace Sample

/-- A person whose age is out of range has no other fault. -/
theorem fault?_person {id age : Int} (name : String) (hid : Value.inRange id = true)
    (hage : Value.inRange age = false) :
    (person id name age).fault? people = some (.typeMismatch "age" (.int age) .integer) := by
  have hnames : Table.sameNames (Keyed.keys (person id name age).values) people.columnNames =
      true := by
    show Table.sameNames ["id", "name", "age"] ["id", "name", "age"] = true
    decide
  have hkey : ((person id name age).held Value.keyColumn).looseEq (person id name age).id = true :=
    Value.looseEq_refl (.int id)
  rw [Row.fault?, hnames, hkey, if_neg (by decide), if_neg (by decide)]
  -- the columns are looked at in their order
  have htaken : (⟨"id", .integer, true, false⟩ : Column).accepts
    ((person id name age).held "id") = true := hid
  have hname : (⟨"name", .text, false, true⟩ : Column).accepts
    ((person id name age).held "name") = true := rfl
  have hrefused : (⟨"age", .integer, false, false⟩ : Column).accepts
      ((person id name age).held "age") = false :=
    hage
  show (List.find? (fun c : Column => !c.accepts ((person id name age).held c.name)) [_, _, _]).map
    _ = _
  rw [List.find?_cons_of_neg (by simpa using htaken), List.find?_cons_of_neg (by simpa using hname),
    List.find?_cons_of_pos (by simpa using hrefused)]
  rfl

theorem short_person (id age : Int) : (Operation.insert (person id "ann" age)).Short := by
  intro f hf
  simp only [person, List.mem_cons, List.not_mem_nil, or_false] at hf
  rcases hf with rfl | rfl | rfl
  · exact trivial
  · decide
  · exact trivial

/-- Too few columns, an integer beyond 64 bits, a truth value for an integer, one for a key, and
changes of several kinds. -/
def offers : List Operation :=
  [.insert ⟨.int 5, [("id", .int 5), ("name", .text "eve")], false⟩,
    .insert (person 5 "eve" (Value.maxInt + 1)),
    .insert ⟨.int 5, [("id", .int 5), ("name", .text "eve"), ("age", .bool true)], false⟩,
    .insert ⟨.bool true, (person 1 "eve" 4).values, false⟩, .update (person 2 "" Value.minInt),
    .updateValues (.text "1") [("age", .null)], .updateValues (.int 2) [("id", .bool false)]]

end Sample

namespace Store

open Operation

/-- Whatever operations brought a table from a missing or empty file to its state: an operation that
puts a row, whatever its values are, is refused by one of the rules and leaves the file, or the row
that it offers fits the schema and its record, the last of the file, is read back with the same
value in every column.  A refusal is one of five kinds, unless it is to show an integer that is too
long to be written. -/
theorem put_validated (s : Schema) (path : Path) (w : World) (hv : w.files.Vacant path)
    (ops : List Operation) :
    ∃ st w₁ answers st' w' file records,
      (openFile s path : Work Unit Store).run ((), w) = (.ok st, ((), w₁)) ∧
      (runAll ops).run (st, w₁) = (.ok answers, (st', w')) ∧
      w'.files.read path = .ok file ∧
      scan s none ⟨0, file⟩ = ⟨records, none, ⟨file.length, []⟩⟩ ∧
      ∀ op : Operation, op.putsRow = true → op.Short →
        ∃ file', (op.run.run (st', w')).2.2.files.read path = .ok file' ∧
          ((∃ e, file' = file ∧ Refuses s (liveRows records) op e ∧
              ((op.run.run (st', w')).1 = .error (.engine e) ∨
                ∃ n, e.value? = some (.int n) ∧
                  Text.maxDigits < (Nat.toDigits 10 n.natAbs).length ∧
                  (op.run.run (st', w')).1 = .error .unwritten) ∧
              e.kind ∈ ["SchemaValidation", "TypeMismatch", "DuplicateKey",
                "UniqueConstraintViolation", "RecordNotFound"]) ∨
            ∃ a r bytes row, (op.run.run (st', w')).1 = .ok a ∧
              op.Offers (liveRows records) r ∧ r.Fits s ∧
              Appends s file bytes row file' ∧ row.deleted = false ∧
              Keyed.keys row.values = s.columnNames ∧ row.Same r) := by
  obtain ⟨st, h, w₁, hopen, ho⟩ := exists_opened s hv
  obtain ⟨answers, st', h', w', records, hrun, ho'⟩ := runAll_opened ho ops
  have hread := ho'.read_eq
  rw [ho'.place] at hread
  refine ⟨st, w₁, answers, st', w', _, records, hopen, hrun, hread, ho'.laid.scan,
    fun op hop hs => ?_⟩
  generalize hresult : op.run.run (st', w') = ending
  obtain ⟨result, st'', w''⟩ := ending
  obtain ⟨file', hread', hputs⟩ := ho'.puts hop hs hresult
  refine ⟨file', hread', ?_⟩
  rcases hputs with ⟨e, he, hrefuses, hfile⟩ | ⟨a, r, bytes, ha, hoffers, hfits, happends⟩
  · refine Or.inl ⟨e, hfile, hrefuses, ?_, hrefuses.kind_mem⟩
    rcases Fault.raised_cases e with hraised | ⟨n, hvalue, hlong, hraised⟩
    · exact .inl (hraised ▸ he)
    · exact .inr ⟨n, hvalue, hlong, hraised ▸ he⟩
  · exact Or.inr ⟨a, r, bytes, r.stored s false, ha, hoffers, hfits, happends,
      Row.deleted_stored s r false, Row.keys_stored s r false, hfits.stored_same false⟩

theorem put_validated_offers :
    Sample.world.files.Vacant Sample.table ∧
    (∀ op ∈ Sample.offers, op.putsRow = true ∧ op.Short) ∧
    ∃ st w₁ answers st' w' file records,
      (openFile Sample.people Sample.table : Work Unit Store).run ((), Sample.world) =
        (.ok st, ((), w₁)) ∧
      (runAll Sample.errands).run (st, w₁) = (.ok answers, (st', w')) ∧
      w'.files.read Sample.table = .ok file ∧
      scan Sample.people none ⟨0, file⟩ = ⟨records, none, ⟨file.length, []⟩⟩ ∧
      ∀ op ∈ Sample.offers,
        ∃ file', (op.run.run (st', w')).2.2.files.read Sample.table = .ok file' ∧
          ((∃ e, file' = file ∧ Refuses Sample.people (liveRows records) op e ∧
              ((op.run.run (st', w')).1 = .error (.engine e) ∨
                ∃ n, e.value? = some (.int n) ∧
                  Text.maxDigits < (Nat.toDigits 10 n.natAbs).length ∧
                  (op.run.run (st', w')).1 = .error .unwritten) ∧
              e.kind ∈ ["SchemaValidation", "TypeMismatch", "DuplicateKey",
                "UniqueConstraintViolation", "RecordNotFound"]) ∨
            ∃ a r bytes row, (op.run.run (st', w')).1 = .ok a ∧
              op.Offers (liveRows records) r ∧
              r.Fits Sample.people ∧ Appends Sample.people file bytes row file' ∧
              row.deleted = false ∧
              Keyed.keys row.values = Sample.people.columnNames ∧ row.Same r) := by
  have hoffers : ∀ op ∈ Sample.offers, op.putsRow = true ∧ op.Short := by decide
  obtain ⟨st, w₁, answers, st', w', file, records, hopen, hrun, hread, hscan, hputs⟩ :=
    put_validated Sample.people Sample.table Sample.world Sample.vacant Sample.errands
  exact ⟨Sample.vacant, hoffers, st, w₁, answers, st', w', file, records, hopen,
    hrun, hread, hscan, fun op hop => hputs op (hoffers op hop).1 (hoffers op hop).2⟩

/-- An integer that is too long to be written is refused, and by no error of those kinds. -/
theorem insert_unwritten {n : Int} (hlong : Text.maxDigits < (Nat.toDigits 10 n.natAbs).length) :
    ∃ st w₁, (openFile Sample.people Sample.table : Work Unit Store).run ((), Sample.world) =
        (.ok st, ((), w₁)) ∧
      ((Operation.insert (Sample.person 1 "ann" n)).run.run (st, w₁)).1 = .error .unwritten := by
  obtain ⟨st, h, w₁, hopen, ho⟩ := exists_opened Sample.people Sample.vacant
  have hwritable : ¬(Value.int n).writable = true := by
    simpa [Value.writable, Text.writable] using hlong
  have houtside : Value.inRange n = false :=
    Bool.eq_false_iff.mpr fun h => hwritable (Value.writable_of_inRange h)
  have hraised : Fault.raised (.typeMismatch "age" (.int n) .integer) = .unwritten :=
    if_neg hwritable
  refine ⟨st, w₁, hopen, (run_ends ho (Sample.short_person 1 n)).result_eq.trans ?_⟩
  have hfault := Sample.fault?_person "ann" (by decide : Value.inRange 1 = true) houtside
  simp only [onRows, Rows.insert, hfault, refuse, hraised]
  rfl

/-- Every power of ten beyond those that are written is such an integer. -/
theorem put_unwritten (k : Nat) (hk : Text.maxDigits ≤ k) :
    ∃ st w₁, (openFile Sample.people Sample.table : Work Unit Store).run ((), Sample.world) =
        (.ok st, ((), w₁)) ∧
      ((Operation.insert (Sample.person 1 "ann" (Nat.pow 10 k : Nat))).run.run (st, w₁)).1 =
        .error .unwritten :=
  insert_unwritten (Nat.lt_of_le_of_lt hk (Text.lt_length_toDigits_pow k))

/-- The least of them in a column of integers. -/
theorem age_unwritten :
    ∃ st w₁, (openFile Sample.people Sample.table : Work Unit Store).run ((), Sample.world) =
        (.ok st, ((), w₁)) ∧
      ((Operation.insert (Sample.person 1 "ann" (Nat.pow 10 Text.maxDigits : Nat))).run.run
        (st, w₁)).1 = .error .unwritten :=
  put_unwritten Text.maxDigits (Nat.le_refl Text.maxDigits)

end Store
end Tabulary
