import Tabulary.Text.Decimal

/-!
Integers as they are written: a minus sign before a negative one, then the plain digits of its size,
of which the first is no zero unless it is the only one.
-/

namespace Tabulary
namespace Text

/-- The value of a plain digit. -/
def digitOf (c : Char) : Nat := c.toNat - 0x30

theorem plain_of_mem_toDigits {n : Nat} {c : Char} (h : c ∈ Nat.toDigits 10 n) :
    0x30 ≤ c.toNat ∧ c.toNat ≤ 0x39 :=
  Char.isDigit_iff_toNat.mp (Nat.isDigit_of_mem_toDigits (by decide) (by decide) h)

theorem toList_decimal (n : Int) :
    (decimal n).toList = (if 0 ≤ n then [] else ['-']) ++ Nat.toDigits 10 n.natAbs := by
  rw [decimal, Int.toString_eq_repr, Int.repr_eq_if]
  split
  · have hsize : n.toNat = n.natAbs := by omega
    rw [Nat.toList_repr, hsize, List.nil_append]
  · have hsize : (-n).toNat = n.natAbs := by omega
    rw [String.toList_append, Nat.toList_repr, hsize]
    rfl

theorem ofDigits_toDigits (n : Nat) : ofDigits ((Nat.toDigits 10 n).map digitOf) = n := by
  have hvalue : Nat.ofDigitChars 10 (Nat.toDigits 10 n) 0 = n := Nat.ofDigitChars_ten_toDigits
  rw [Nat.ofDigitChars_eq_foldl] at hvalue
  rw [ofDigits, List.foldl_map]
  exact hvalue

/-- Only zero begins with a zero. -/
theorem head?_digits_ne {n : Nat} (hn : n ≠ 0) :
    ((Nat.toDigits 10 n).map digitOf).head? ≠ some 0 := by
  induction n using Nat.strongRecOn with
  | ind n ih =>
    rw [Nat.toDigits_eq_if (by decide)]
    split
    · rename_i hsmall
      rw [List.map_singleton, digitOf, Nat.toNat_digitChar_sub_48_of_lt_ten hsmall, List.head?_cons]
      simpa using hn
    · have hless : n / 10 < n := Nat.div_lt_self (Nat.pos_of_ne_zero hn) (by decide)
      rw [List.map_append, List.head?_append, Option.or_of_isSome (by simp [Nat.toDigits_ne_nil])]
      exact ih _ hless (by omega)

/-- A one with `k` zeros behind it has more than `k` digits. -/
theorem lt_length_toDigits_pow (k : Nat) : k < (Nat.toDigits 10 (Nat.pow 10 k)).length := by
  cases k with
  | zero => exact List.length_pos_iff.mpr Nat.toDigits_ne_nil
  | succ k =>
    refine Nat.lt_of_not_le fun hle => ?_
    exact Nat.lt_irrefl _ ((Nat.length_toDigits_le_iff (by decide) (Nat.succ_pos k)).mp hle)

end Text
end Tabulary
