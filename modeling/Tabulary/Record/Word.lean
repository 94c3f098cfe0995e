/-!
Fixed-width integers as bytes, the most significant byte first.  Main statement: a word read back
from its bytes is the word, modulo the range that the width can hold.
-/

namespace Tabulary
namespace Record

/-- The last `width` bytes of a number. -/
def bigEndian : Nat → Nat → List UInt8
  | 0, _ => []
  | width + 1, n => bigEndian width (n / 256) ++ [UInt8.ofNat (n % 256)]

def ofBigEndian (bytes : List UInt8) : Nat := bytes.foldl (fun n b => n * 256 + b.toNat) 0

def capacity : Nat → Nat
  | 0 => 1
  | width + 1 => 256 * capacity width

/-- A 64-bit integer in two's complement. -/
def intBytes (n : Int) : List UInt8 := bigEndian 8 (n % capacity 8).toNat

def ofIntBytes (bytes : List UInt8) : Int :=
  let n := ofBigEndian bytes
  if 2 * n < capacity 8 then n else n - capacity 8

@[simp] theorem length_bigEndian (width n : Nat) : (bigEndian width n).length = width := by
  induction width generalizing n with
  | zero => rfl
  | succ w ih => simp [bigEndian, ih]

theorem ofBigEndian_append (xs : List UInt8) (b : UInt8) :
    ofBigEndian (xs ++ [b]) = ofBigEndian xs * 256 + b.toNat := by
  simp [ofBigEndian]

theorem ofBigEndian_bigEndian (width n : Nat) :
    ofBigEndian (bigEndian width n) = n % capacity width := by
  induction width generalizing n with
  | zero => simp [bigEndian, ofBigEndian, capacity, Nat.mod_one]
  | succ w ih =>
    rw [bigEndian, ofBigEndian_append, ih, capacity, Nat.mod_mul]
    simp [Nat.mod_mod_of_dvd]
    omega

end Record
end Tabulary
