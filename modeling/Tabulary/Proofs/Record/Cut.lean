import Tabulary.Proofs.Record.Layout

/-!
Files that are cut short, at whatever byte.  What is left is the records that lie before the cut,
and possibly the beginning of one more, which reading finds truncated and never damaged.
-/

namespace Tabulary
namespace Record

/-- The records that end within some first bytes. -/
def whole (records : List Stored) (k : Nat) : List Stored := records.filter (·.stop ≤ k)

/-- Where the last record ends. -/
def reach (records : List Stored) : Nat := (records.getLast?.map (·.stop)).getD 0

variable {s : Schema} {start k : Nat} {records : List Stored} {bytes : List UInt8}

/-- The beginning of a record without its end. -/
def Partial (s : Schema) (torn : List UInt8) : Prop :=
  ∃ r own, Image s r own ∧ torn <+: own ∧ torn ≠ [] ∧ torn ≠ own

namespace Laid

theorem offset_ge (h : Laid s start records bytes) {x : Stored} (hx : x ∈ records) :
    start ≤ x.offset := by
  obtain ⟨xs, ys, rfl⟩ := List.append_of_mem hx
  obtain ⟨front, own, more, -, -, hplace, -, -⟩ := h.of_append_cons
  rw [hplace]
  exact Nat.le_add_right start front.length

/-- Bytes before the end of the first record hold no record. -/
theorem whole_eq_nil {r : Row} {front more : List UInt8}
    (h : Laid s (start + front.length) records more) (hk : k < start + front.length) :
    whole (⟨start, front.length, r⟩ :: records) k = [] := by
  rw [whole, List.filter_eq_nil_iff]
  intro x hx
  rw [decide_eq_true_eq, Nat.not_le]
  rcases List.mem_cons.mp hx with rfl | hx
  · exact hk
  · exact Nat.lt_of_lt_of_le hk (Nat.le_trans (h.offset_ge hx)
      (Nat.le_add_right x.offset x.length))

theorem cut (h : Laid s start records bytes) (k : Nat) :
    ∃ front torn, bytes.take k = front ++ torn ∧
      Laid s start (whole records (start + k)) front ∧
      (torn = [] ∨ Partial s torn) := by
  induction h generalizing k with
  | nil start => exact ⟨[], [], by simp, Laid.nil start, Or.inl rfl⟩
  | @cons start r own records more image tail ih =>
    by_cases hk : own.length ≤ k
    · -- The first record lies before the cut.
      obtain ⟨front, torn, htake, hlaid, htorn⟩ := ih (k - own.length)
      refine ⟨own ++ front, torn, ?_, ?_, htorn⟩
      · rw [List.take_append, List.take_of_length_le hk, htake, List.append_assoc]
      · have hfirst : Stored.stop ⟨start, own.length, r⟩ ≤ start + k :=
          Nat.add_le_add_left hk start
        rw [whole, List.filter_cons_of_pos (by simpa using hfirst)]
        rw [show start + own.length + (k - own.length) = start + k by omega] at hlaid
        exact Laid.cons image hlaid
    · rw [Nat.not_le] at hk
      rw [tail.whole_eq_nil (Nat.add_lt_add_left hk start)]
      refine ⟨[], own.take k, ?_, Laid.nil start, ?_⟩
      · rw [List.take_append, Nat.sub_eq_zero_of_le (Nat.le_of_lt hk), List.take_zero,
          List.append_nil, List.nil_append]
      · rcases Nat.eq_zero_or_pos k with rfl | hpos
        · exact Or.inl rfl
        · have hlength : (own.take k).length = k := List.length_take_of_le (Nat.le_of_lt hk)
          refine Or.inr ⟨r, own, image, List.take_prefix k own, ?_, ?_⟩
          · intro hnil
            rw [hnil, List.length_nil] at hlength
            omega
          · intro heq
            rw [heq] at hlength
            omega

/-- Reading what is left finds the records before the cut, and no damage. -/
theorem scan_cut (h : Laid s 0 records bytes) (k : Nat) :
    (Record.scan s none ⟨0, bytes.take k⟩).records = whole records k ∧
      (Record.scan s none ⟨0, bytes.take k⟩).corruption = none ∧
      Laid s 0 (whole records k) (bytes.take (reach (whole records k))) ∧
      reach (whole records k) ≤ k := by
  obtain ⟨front, torn, htake, hlaid, htorn⟩ := h.cut k
  rw [Nat.zero_add] at hlaid
  have hreach : reach (whole records k) = front.length := by
    rw [reach, hlaid.stop_eq, Nat.zero_add]
  have hfront : bytes.take front.length = front ∧ front.length ≤ k := by
    have hlength := congrArg List.length htake
    rw [List.length_take, List.length_append] at hlength
    have hk : front.length ≤ k := by omega
    refine ⟨?_, hk⟩
    have hprefix := congrArg (List.take front.length) htake
    rwa [List.take_take, Nat.min_eq_left hk, List.take_left] at hprefix
  have hend : (Record.scan s none ⟨0 + front.length, torn⟩).records = [] ∧
      (Record.scan s none ⟨0 + front.length, torn⟩).corruption = none := by
    rcases htorn with rfl | ⟨r, own, image, hp, hnil, hne⟩
    · rw [scan_of_none (by simp) (Decoder.run_record_nil _)]
      exact ⟨rfl, rfl⟩
    · obtain ⟨expected, found, c, hrun⟩ := image.run_record_cut (0 + front.length) hp hnil hne
      rw [scan_of_error (by simp) hrun]
      exact ⟨rfl, rfl⟩
  rw [htake, hlaid.scan_append none (fun n hn => nomatch hn) torn, hreach, hfront.1]
  refine ⟨?_, hend.2, hlaid, hfront.2⟩
  rw [hend.1, List.append_nil]

end Laid
end Record
end Tabulary
