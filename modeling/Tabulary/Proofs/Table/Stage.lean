import Tabulary.Proofs.Table.Change

/-!
What a file goes through while a change is written to it, and which rows are live at each point.

The patches of a change are written one after another and each of them from its first byte on, so an
interruption leaves the file after some of the patches and a part of the next.  `Patch.Passes` says
this of any patches, and the section on changes works out what it comes to for the patches of an
added, a deleted and a replaced row.
-/

namespace Tabulary

open Record

namespace Patch

/-- The bytes that a file consists of at some point while patches are written to it. -/
inductive Passes : List Patch → List UInt8 → List UInt8 → Prop
  | start (ps : List Patch) (file : List UInt8) : Passes ps file file
  | part (p : Patch) (ps : List Patch) (file : List UInt8) (k : Nat) :
      Passes (p :: ps) file (apply ⟨p.offset, p.bytes.take k⟩ file)
  | next {p : Patch} {ps : List Patch} {file image : List UInt8}
      (h : Passes ps (p.apply file) image) : Passes (p :: ps) file image

variable {file image bytes : List UInt8} {offset : Nat}

theorem passes_nil : Passes [] file image ↔ image = file := by
  constructor
  · intro h
    cases h
    rfl
  · intro h
    rw [h]
    exact Passes.start [] file

/-- A patch that writes nothing changes nothing within the file. -/
theorem apply_nil (h : offset ≤ file.length) : apply ⟨offset, []⟩ file = file := by
  simp [apply, Nat.sub_eq_zero_of_le h]

/-- A file that is written to at its end grows by a first part of the bytes. -/
theorem passes_end :
    Passes [⟨file.length, bytes⟩] file image ↔ ∃ k, image = file ++ bytes.take k := by
  constructor
  · intro h
    cases h with
    | start => exact ⟨0, by rw [List.take_zero, List.append_nil]⟩
    | part p ps file k => exact ⟨k, apply_end file (bytes.take k)⟩
    | next h =>
      rw [passes_nil.mp h, apply_end]
      exact ⟨bytes.length, by rw [List.take_length]⟩
  · intro h
    obtain ⟨k, hk⟩ := h
    rw [hk, ← apply_end]
    exact Passes.part ⟨file.length, bytes⟩ [] file k

/-- A single byte is written or not, so that a flag has no point between. -/
theorem passes_flag {ps : List Patch} (h : offset < file.length) :
    Passes (Table.flag offset true :: ps) file image ↔
      image = file ∨ Passes ps (file.set offset 1) image := by
  constructor
  · intro hpass
    cases hpass with
    | start => exact Or.inl rfl
    | part p ps file k =>
      by_cases hk : k = 0
      · rw [hk, List.take_zero]
        exact Or.inl (apply_nil (Nat.le_of_lt h))
      · have hwhole : (Table.flag offset true).bytes.take k = (Table.flag offset true).bytes :=
          List.take_of_length_le (Nat.one_le_iff_ne_zero.mpr hk)
        rw [hwhole]
        right
        rw [← apply_flag h]
        exact Passes.start ps _
    | next hnext =>
      rw [apply_flag h] at hnext
      exact Or.inr hnext
  · intro hpass
    rcases hpass with heq | hpass
    · rw [heq]
      exact Passes.start _ file
    · rw [← apply_flag h] at hpass
      exact Passes.next hpass

end Patch

namespace Table

/-! ## The patches of a change -/

section changes

variable {t : Table} {r existing : Row} {c : Change}

theorem add_eq_ok (h : t.add r = .ok c) :
    ∃ bytes, encode t.schema r false = .ok bytes ∧ c.patches = [⟨t.index.stop, bytes⟩] := by
  unfold add at h
  simp only [bind, Except.bind] at h
  split at h
  · cases h
  · split at h
    · cases h
    · split at h
      · cases h
      · rename_i bytes henc
        cases h
        exact ⟨bytes, henc, rfl⟩

theorem offsetOf_eq_ok {offset : Nat} (h : t.offsetOf existing = .ok offset) :
    t.index.offset? existing.id = some offset := by
  unfold offsetOf at h
  split at h
  · rename_i found hfound
    cases h
    exact hfound
  · cases h

theorem delete_eq_ok (h : t.delete existing = .ok c) :
    ∃ offset, t.index.offset? existing.id = some offset ∧ c.patches = [flag offset true] := by
  unfold delete at h
  simp only [bind, Except.bind] at h
  split at h
  · cases h
  · rename_i offset hoffset
    cases h
    exact ⟨offset, offsetOf_eq_ok hoffset, rfl⟩

theorem replace_eq_ok (h : t.replace existing r = .ok c) :
    ∃ offset bytes, t.index.offset? existing.id = some offset ∧
      encode t.schema r false = .ok bytes ∧
      c.patches = [flag offset true, ⟨t.index.stop, bytes⟩] := by
  unfold replace at h
  simp only [bind, Except.bind] at h
  split at h
  · cases h
  · rename_i offset hoffset
    split at h
    · cases h
    · split at h
      · cases h
      · rename_i bytes henc
        cases h
        exact ⟨offset, bytes, offsetOf_eq_ok hoffset, henc, rfl⟩

end changes

theorem Follows.holds {s : Schema} {file : List UInt8} {c : Change} {expected : Except Fault Rows}
    (h : Follows s file (.ok c) expected) :
    ∃ records, c.table.schema = s ∧ c.table.Holds records (Patch.applyAll c.patches file) := by
  cases h with
  | ok schema holds => exact ⟨_, schema, holds⟩

end Table
end Tabulary
