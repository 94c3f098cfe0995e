import Tabulary.Proofs.Record.Word
import Tabulary.Proofs.Row
import Tabulary.Record.Decoder

/-!
What a decoder reads.  A decoder that reads some bytes as a value takes exactly those bytes
wherever they stand and whatever follows them, and misses bytes when they are cut short
anywhere.  Reading is closed under sequencing, so it need only be shown of the two kinds of field.
-/

namespace Tabulary
namespace Record
namespace Decoder

/-- The decoder takes these bytes for this value. -/
structure Reads {α : Type} (d : Decoder α) (bytes : List UInt8) (x : α) : Prop where
  whole : ∀ start rest, d.run ⟨start, bytes ++ rest⟩ =
    (.ok x, ⟨start + bytes.length, rest⟩)
  cut : ∀ start front, front <+: bytes → front ≠ bytes →
    ∃ expected found c, d.run ⟨start, front⟩ = (.error (.truncated expected found), c)

variable {α β : Type}

theorem reads_pure (x : α) : Reads (pure x) [] x where
  whole _ _ := rfl
  cut _ _ hp hne := absurd (List.prefix_nil.mp hp) hne

/-- A cut through two readings in a row falls into the first or leaves the first whole. -/
theorem Reads.bind {d : Decoder α} {f : α → Decoder β} {xs ys : List UInt8} {x : α} {y : β}
    (hd : Reads d xs x) (hf : Reads (f x) ys y) : Reads (d >>= f) (xs ++ ys) y where
  whole start rest := by
    rw [List.append_assoc, Attempt.run_bind_of_ok (hd.whole start (ys ++ rest)), hf.whole,
      List.length_append, Nat.add_assoc]
  cut start front hp hne := by
    rcases List.prefix_or_prefix_of_prefix hp (List.prefix_append xs ys) with hx | ⟨more, rfl⟩
    · by_cases heq : front = xs
      · subst heq
        have hys : ([] : List UInt8) ≠ ys := by
          rintro rfl
          exact hne (List.append_nil front).symm
        obtain ⟨expected, found, c, hrun⟩ :=
          hf.cut (start + front.length) [] (List.nil_prefix) hys
        have hw := hd.whole start []
        rw [List.append_nil] at hw
        exact ⟨expected, found, c, by rw [Attempt.run_bind_of_ok hw, hrun]⟩
      · obtain ⟨expected, found, c, hrun⟩ := hd.cut start front hx heq
        exact ⟨expected, found, c, Attempt.run_bind_of_error hrun⟩
    · have hy : more <+: ys := (List.prefix_append_right_inj xs).mp hp
      have hmore : more ≠ ys := fun h => hne (by rw [h])
      obtain ⟨expected, found, c, hrun⟩ := hf.cut (start + xs.length) more hy hmore
      exact ⟨expected, found, c, by rw [Attempt.run_bind_of_ok (hd.whole start more), hrun]⟩

theorem Reads.map {d : Decoder α} {xs : List UInt8} {x : α} (hd : Reads d xs x) (g : α → β) :
    Reads (d >>= fun a => pure (g a)) xs (g x) := by
  have h := hd.bind (f := fun a => pure (g a)) (reads_pure (g x))
  rwa [List.append_nil] at h

theorem reads_bytes {n : Nat} {xs : List UInt8} (h : xs.length = n) : Reads (bytes n) xs xs where
  whole start rest := by
    simp only [bytes, Attempt.run_bind, Attempt.run_get, Attempt.run_set, List.take_left' h,
      List.drop_left' h, if_pos h, Attempt.run_pure]
  cut start front hp hne := by
    have hlt : front.length < n := by
      have hle := hp.length_le
      have hlen : front.length ≠ xs.length := fun he => hne (hp.eq_of_length he)
      omega
    have htake : front.take n = front := List.take_of_length_le (Nat.le_of_lt hlt)
    simp only [bytes, Attempt.run_bind, Attempt.run_get, Attempt.run_set, htake,
      if_neg (Nat.ne_of_lt hlt), Attempt.run_throw]
    exact ⟨n, front.length, _, rfl⟩

theorem reads_integer {n : Int} (h : Value.inRange n = true) : Reads integer (intBytes n) n := by
  have hb := (reads_bytes (length_intBytes n)).map ofIntBytes
  rwa [ofIntBytes_intBytes h] at hb

theorem reads_text (column : String) (offset : Nat) {s : String}
    (h : (Text.toBytes s).length < capacity 4) :
    Reads (text column offset) (bigEndian 4 (Text.toBytes s).length ++ Text.toBytes s) s := by
  refine (reads_bytes (length_bigEndian 4 _)).bind ?_
  have hcount : ofBigEndian (bigEndian 4 (Text.toBytes s).length) = (Text.toBytes s).length := by
    rw [ofBigEndian_bigEndian, Nat.mod_eq_of_lt h]
  rw [← List.append_nil (Text.toBytes s)]
  refine (reads_bytes (by rw [List.append_nil, hcount])).bind ?_
  rw [Text.ofBytes?_toBytes]
  exact reads_pure s

/-- The bytes of a value that a column accepts, and how they are read back. -/
theorem reads_column (offset : Nat) {c : Column} {v : Value} (ha : c.accepts v = true)
    (hs : v.Short) :
    ∃ xs, encodeValue c.type v = .ok xs ∧ Reads (column offset c) xs (c.name, v) := by
  cases ht : c.type with
  | integer =>
    obtain ⟨n, rfl, hn⟩ := (Column.accepts_integer_iff ht v).mp ha
    refine ⟨intBytes n, if_pos hn, ?_⟩
    simp only [column, ht]
    exact (reads_integer hn).map fun n => (c.name, Value.int n)
  | text =>
    obtain ⟨s, rfl⟩ := (Column.accepts_text_iff ht v).mp ha
    refine ⟨_, if_pos hs, ?_⟩
    simp only [column, ht]
    exact (reads_text c.name offset hs).map fun s => (c.name, Value.text s)

theorem reads_columns (offset : Nat) {r : Row} (hs : r.Short) {cs : List Column}
    (ha : ∀ c ∈ cs, c.accepts (r.held c.name) = true) :
    ∃ xs, encodeColumns r cs = .ok xs ∧
      Reads (columns offset cs) xs (cs.map fun c => (c.name, r.held c.name)) := by
  induction cs with
  | nil => exact ⟨[], rfl, reads_pure []⟩
  | cons c rest ih =>
    have hc := ha c List.mem_cons_self
    obtain ⟨xs, hx, hread⟩ := reads_column offset hc (Row.held_short hs c.name)
    obtain ⟨ys, hy, hreads⟩ := ih fun d hd => ha d (List.mem_cons_of_mem c hd)
    refine ⟨xs ++ ys, ?_, ?_⟩
    · simp only [encodeColumns, Row.get_eq_ok_held hc, bind, Except.bind, hx, hy]
      rfl
    · exact hread.bind (hreads.map fun vs => (c.name, r.held c.name) :: vs)

end Decoder
end Record
end Tabulary
