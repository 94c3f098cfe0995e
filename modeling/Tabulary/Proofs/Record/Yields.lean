import Tabulary.Proofs.Record.Word
import Tabulary.Proofs.Row
import Tabulary.Record.Decoder

/-!
What a decoder can give on any bytes at all.  Whatever value comes out, the bytes taken for it are
the ones that would be written for it, and a failure is one of three kinds.
-/

namespace Tabulary
namespace Record

/-- The failures that reading a record of a schema at a position can meet. -/
def Arises (s : Schema) (start : Nat) : RecordError → Prop
  | .truncated expected found => found < expected
  | .nothing => False
  | .unknownFlag flag offset => offset = start ∧ 1 < flag ∧ flag < 256
  | .notUtf8 column offset =>
    offset = start ∧ ∃ c ∈ s.dataColumns, c.name = column ∧ c.type = .text

namespace Decoder

/-- A decoder that takes off the cursor the bytes it gives a value for, and no others, and fails
in known ways. -/
structure Yields {α : Type} (E : RecordError → Prop) (d : Decoder α)
    (P : List UInt8 → α → Prop) : Prop where
  ok : ∀ {c x c'}, d.run c = (.ok x, c') →
    ∃ taken, c.rest = taken ++ c'.rest ∧ c'.position = c.position + taken.length ∧ P taken x
  error : ∀ {c e c'}, d.run c = (.error e, c') → E e

variable {α β : Type} {E : RecordError → Prop} {P : List UInt8 → α → Prop}

theorem yields_pure (x : α) : Yields E (pure x) fun taken y => taken = [] ∧ y = x where
  ok h := by
    cases h
    exact ⟨[], rfl, rfl, rfl, rfl⟩
  error h := by cases h

theorem yields_throw {e : RecordError} (he : E e) : Yields E (throw e : Decoder α) P where
  ok h := by cases h
  error h := by
    cases h
    exact he

theorem Yields.mono {d : Decoder α} {Q : List UInt8 → α → Prop} (h : Yields E d P)
    (hpq : ∀ taken x, P taken x → Q taken x) : Yields E d Q where
  ok hr := by
    obtain ⟨taken, hrest, hpos, hp⟩ := h.ok hr
    exact ⟨taken, hrest, hpos, hpq taken _ hp⟩
  error := h.error

theorem Yields.bind {d : Decoder α} {f : α → Decoder β} {Q : α → List UInt8 → β → Prop}
    (hd : Yields E d P) (hf : ∀ x, Yields E (f x) (Q x)) :
    Yields E (d >>= f) fun taken y => ∃ xs ys x, taken = xs ++ ys ∧ P xs x ∧ Q x ys y where
  ok {c y c'} h := by
    rw [Attempt.run_bind] at h
    split at h
    · rename_i x c₁ hx
      obtain ⟨xs, hrest, hpos, hp⟩ := hd.ok hx
      obtain ⟨ys, hrest', hpos', hq⟩ := (hf x).ok h
      refine ⟨xs ++ ys, ?_, ?_, xs, ys, x, rfl, hp, hq⟩
      · rw [hrest, hrest', List.append_assoc]
      · rw [hpos', hpos, List.length_append, Nat.add_assoc]
    · cases h
  error h := by
    rw [Attempt.run_bind] at h
    split at h
    · exact (hf _).error h
    · rename_i hx
      cases h
      exact hd.error hx

theorem Yields.map {d : Decoder α} (hd : Yields E d P) (g : α → β) :
    Yields E (d >>= fun a => pure (g a)) fun taken y => ∃ x, y = g x ∧ P taken x :=
  (hd.bind fun x => yields_pure (g x)).mono fun _ _ ⟨xs, _, x, ht, hp, hys, hy⟩ =>
    ⟨x, hy, by rwa [ht, hys, List.append_nil]⟩

theorem yields_bytes {n : Nat} (hE : ∀ found, found < n → E (.truncated n found)) :
    Yields E (bytes n) fun taken x => taken = x ∧ x.length = n where
  ok {c x c'} h := by
    simp only [bytes, Attempt.run_bind, Attempt.run_get, Attempt.run_set] at h
    split at h
    · rename_i hlen
      cases h
      exact ⟨c.rest.take n, (List.take_append_drop n c.rest).symm, rfl, rfl, hlen⟩
    · cases h
  error {c e c'} h := by
    simp only [bytes, Attempt.run_bind, Attempt.run_get, Attempt.run_set] at h
    split at h
    · cases h
    · rename_i hlen
      cases h
      refine hE _ ?_
      have hle := List.length_take_le n c.rest
      omega

variable {s : Schema} {start : Nat}

theorem yields_bytes_arises (n : Nat) :
    Yields (Arises s start) (bytes n) fun taken x => taken = x ∧ x.length = n :=
  yields_bytes fun _ h => h

theorem yields_integer :
    Yields (Arises s start) integer fun taken n => Value.inRange n = true ∧ intBytes n = taken :=
  ((yields_bytes_arises 8).map ofIntBytes).mono fun taken n ⟨xs, hn, ht, hlen⟩ => by
    subst hn ht
    exact ⟨inRange_ofIntBytes hlen, intBytes_ofIntBytes hlen⟩

theorem yields_text {column : String} {offset : Nat}
    (hE : Arises s start (.notUtf8 column offset)) :
    Yields (Arises s start) (text column offset) fun taken t =>
      (Text.toBytes t).length < capacity 4 ∧
        bigEndian 4 (Text.toBytes t).length ++ Text.toBytes t = taken := by
  refine ((yields_bytes_arises 4).bind (Q := fun count taken t =>
    Text.toBytes t = taken ∧ taken.length = ofBigEndian count) fun count => ?_).mono ?_
  · -- What follows the count: as many bytes as it says, and those of a text.
    refine ((yields_bytes_arises (ofBigEndian count)).bind (Q := fun content taken t =>
      taken = [] ∧ Text.ofBytes? content = some t) fun content => ?_).mono ?_
    · split
      · rename_i t ht
        exact (yields_pure t).mono fun _ _ ⟨hnil, heq⟩ => ⟨hnil, heq ▸ ht⟩
      · exact yields_throw hE
    · rintro taken t ⟨xs, ys, content, rfl, ⟨rfl, hlen⟩, rfl, ht⟩
      rw [List.append_nil]
      exact ⟨Text.toBytes_of_ofBytes? ht, hlen⟩
  · rintro taken t ⟨count, content, x, rfl, ⟨rfl, hcount⟩, rfl, hlen⟩
    have hlt := ofBigEndian_lt count
    rw [hcount] at hlt
    rw [hlen]
    exact ⟨hlt, congrArg (· ++ Text.toBytes t) (bigEndian_ofBigEndian_of_length hcount)⟩

theorem yields_column {c : Column} (hc : c ∈ s.dataColumns) :
    Yields (Arises s start) (column start c) fun taken f =>
      f.1 = c.name ∧ c.accepts f.2 = true ∧ f.2.Short ∧
        encodeValue c.type f.2 = .ok taken := by
  cases ht : c.type with
  | integer =>
    simp only [column, ht]
    refine (yields_integer.map fun n => (c.name, Value.int n)).mono ?_
    rintro taken f ⟨n, rfl, hn, rfl⟩
    exact ⟨rfl, (Column.accepts_integer_iff ht _).mpr ⟨n, rfl, hn⟩, trivial, if_pos hn⟩
  | text =>
    simp only [column, ht]
    refine ((yields_text ⟨rfl, c, hc, rfl, ht⟩).map fun t => (c.name, Value.text t)).mono ?_
    rintro taken f ⟨t, rfl, hlen, rfl⟩
    exact ⟨rfl, (Column.accepts_text_iff ht _).mpr ⟨t, rfl⟩, hlen, if_pos hlen⟩

/-- The fields of some columns, as any row that holds them would write them. -/
def FieldsOf (cs : List Column) (taken : List UInt8) (fields : List (String × Value)) : Prop :=
  Keyed.keys fields = cs.map (·.name) ∧ (∀ f ∈ fields, f.2.Short) ∧
    ∀ r : Row, (∀ f ∈ fields, r.value? f.1 = some f.2) →
      (∀ c ∈ cs, c.accepts (r.held c.name) = true) ∧ encodeColumns r cs = .ok taken

theorem fieldsOf_nil : FieldsOf [] [] [] :=
  ⟨rfl, fun _ hf => absurd hf List.not_mem_nil, fun _ _ =>
    ⟨fun _ hc => absurd hc List.not_mem_nil, rfl⟩⟩

theorem FieldsOf.cons {c : Column} {cs : List Column} {xs ys : List UInt8} {v : Value}
    {fields : List (String × Value)} (ha : c.accepts v = true) (hs : v.Short)
    (he : encodeValue c.type v = .ok xs) (hf : FieldsOf cs ys fields) :
    FieldsOf (c :: cs) (xs ++ ys) ((c.name, v) :: fields) := by
  obtain ⟨hkeys, hshort, hrow⟩ := hf
  refine ⟨?_, fun f hf => ?_, fun r hr => ?_⟩
  · rw [List.map_cons, ← hkeys]
    rfl
  · rcases List.mem_cons.mp hf with rfl | hf
    · exact hs
    · exact hshort f hf
  · have hv : r.value? c.name = some v := hr (c.name, v) List.mem_cons_self
    have hheld : r.held c.name = v := by rw [Row.held, hv, Option.getD_some]
    obtain ⟨hacc, henc⟩ := hrow r fun f hf => hr f (List.mem_cons_of_mem _ hf)
    refine ⟨fun d hd => ?_, ?_⟩
    · rcases List.mem_cons.mp hd with rfl | hd
      · rwa [hheld]
      · exact hacc d hd
    · simp only [encodeColumns, Row.get, hv, bind, Except.bind, he, henc]
      rfl

theorem yields_columns {cs : List Column} (hcs : ∀ c ∈ cs, c ∈ s.dataColumns) :
    Yields (Arises s start) (columns start cs) (FieldsOf cs) := by
  induction cs with
  | nil =>
    refine (yields_pure []).mono ?_
    rintro _ _ ⟨rfl, rfl⟩
    exact fieldsOf_nil
  | cons c rest ih =>
    have hrest := ih fun d hd => hcs d (List.mem_cons_of_mem c hd)
    refine ((yields_column (hcs c List.mem_cons_self)).bind fun f =>
      hrest.map fun fs => f :: fs).mono ?_
    rintro _ _ ⟨xs, ys, f, rfl, ⟨hname, ha, hs, he⟩, fs, rfl, hfs⟩
    obtain ⟨name, v⟩ := f
    cases hname
    exact FieldsOf.cons ha hs he hfs

end Decoder
end Record
end Tabulary
