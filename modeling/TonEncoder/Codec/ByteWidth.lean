import Mathlib.Tactic
import Mathlib.Data.Nat.Digits.Lemmas

/-! # Byte widths

`byteWidth n` is the least number of bytes that hold `n`.
-/

namespace ByteWidth

/-- The least number of bytes that hold `n`: its digits to the base 256. -/
def byteWidth (n : Nat) : Nat := (Nat.digits 256 n).length

theorem byteWidth_le_iff {n w : Nat} : byteWidth n ≤ w ↔ n < 256 ^ w :=
  Nat.digits_length_le_iff (by omega) n

theorem lt_pow_byteWidth (n : Nat) : n < 256 ^ byteWidth n :=
  byteWidth_le_iff.mp le_rfl

theorem lt_byteWidth_iff {n w : Nat} : w < byteWidth n ↔ 256 ^ w ≤ n := by
  rw [← not_le, byteWidth_le_iff, not_lt]

/-- A larger number is not narrower. -/
theorem byteWidth_mono {m n : Nat} (h : m ≤ n) : byteWidth m ≤ byteWidth n :=
  byteWidth_le_iff.mpr (lt_of_le_of_lt h (lt_pow_byteWidth n))

end ByteWidth
