import Mathlib.Data.List.Induction
import Tabulary.Record.Word
import Tabulary.Value

/-!
Words and their bytes determine each other: a width of bytes is one number below the capacity of the
width, and eight bytes are one integer of the stored range.
-/

namespace Tabulary
namespace Record

theorem capacity_eight : capacity 8 = 0x10000000000000000 := rfl

theorem ofBigEndian_lt (bytes : List UInt8) : ofBigEndian bytes < capacity bytes.length := by
  induction bytes using List.reverseRecOn with
  | nil => decide
  | append_singleton xs b ih =>
    have hb : b.toNat < 256 := b.toNat_lt
    rw [ofBigEndian_append, List.length_append, List.length_singleton, capacity]
    omega

theorem bigEndian_ofBigEndian (bytes : List UInt8) :
    bigEndian bytes.length (ofBigEndian bytes) = bytes := by
  induction bytes using List.reverseRecOn with
  | nil => rfl
  | append_singleton xs b ih =>
    have hb : b.toNat < 256 := b.toNat_lt
    have hdiv : (ofBigEndian xs * 256 + b.toNat) / 256 = ofBigEndian xs := by omega
    have hmod : (ofBigEndian xs * 256 + b.toNat) % 256 = b.toNat := by omega
    rw [ofBigEndian_append, List.length_append, List.length_singleton, bigEndian, hdiv, hmod, ih,
      UInt8.ofNat_toNat]

theorem bigEndian_ofBigEndian_of_length {bytes : List UInt8} {width : Nat}
    (h : bytes.length = width) : bigEndian width (ofBigEndian bytes) = bytes := by
  subst h
  exact bigEndian_ofBigEndian bytes

@[simp] theorem length_intBytes (n : Int) : (intBytes n).length = 8 := length_bigEndian 8 _

theorem inRange_iff (n : Int) :
    Value.inRange n = true ↔ -0x8000000000000000 ≤ n ∧ n ≤ 0x7FFFFFFFFFFFFFFF := by
  rw [Value.inRange, Bool.and_eq_true, decide_eq_true_iff, decide_eq_true_iff]
  rfl

theorem ofIntBytes_intBytes {n : Int} (h : Value.inRange n = true) :
    ofIntBytes (intBytes n) = n := by
  rw [inRange_iff] at h
  have hword : ofBigEndian (intBytes n) = (n % capacity 8).toNat := by
    rw [intBytes, ofBigEndian_bigEndian, capacity_eight]
    omega
  unfold ofIntBytes
  rw [hword, capacity_eight]
  simp only
  split <;> omega

theorem inRange_ofIntBytes {bytes : List UInt8} (h : bytes.length = 8) :
    Value.inRange (ofIntBytes bytes) = true := by
  have hlt := ofBigEndian_lt bytes
  rw [h, capacity_eight] at hlt
  rw [inRange_iff]
  unfold ofIntBytes
  rw [capacity_eight]
  simp only
  split <;> omega

theorem intBytes_ofIntBytes {bytes : List UInt8} (h : bytes.length = 8) :
    intBytes (ofIntBytes bytes) = bytes := by
  have hlt := ofBigEndian_lt bytes
  rw [h, capacity_eight] at hlt
  have hword : (ofIntBytes bytes % capacity 8).toNat = ofBigEndian bytes := by
    unfold ofIntBytes
    rw [capacity_eight]
    simp only
    split <;> omega
  rw [intBytes, hword]
  exact bigEndian_ofBigEndian_of_length h

end Record

/-- An integer that storage can hold has at most 19 digits. -/
theorem Value.writable_of_inRange {n : Int} (h : inRange n = true) : (int n).writable = true := by
  rw [Record.inRange_iff] at h
  have hdigits : (Nat.toDigits 10 n.natAbs).length ≤ 19 :=
    (Nat.length_toDigits_le_iff (by decide) (by decide)).mpr (by omega)
  exact decide_eq_true (Nat.le_trans hdigits (by decide))

end Tabulary
