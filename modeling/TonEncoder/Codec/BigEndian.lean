import Mathlib.Data.Nat.Digits.Defs
import Mathlib.Data.List.Induction
import Mathlib.Tactic.Ring

/-! # Big-endian numbers

A number in a fixed count of bytes, the most significant byte first.

* `toBytes w n` drops what does not fit in `w` bytes, so reading it back gives
  `n % 256 ^ w` (`ofBytes_toBytes`).
* `toBytes_ofBytes` is the other way round.
* `ofBytes_append` reads two numbers that stand side by side.
-/

namespace BigEndian

/-- The `w` bytes of `n`. -/
def toBytes : Nat → Nat → List UInt8
  | 0, _ => []
  | w + 1, n => toBytes w (n / 256) ++ [UInt8.ofNat n]

/-- The number that the bytes spell. -/
def ofBytes (bs : List UInt8) : Nat := Nat.ofDigits 256 (bs.reverse.map UInt8.toNat)

@[simp] theorem toBytes_zero (n : Nat) : toBytes 0 n = [] := rfl

theorem toBytes_succ (w n : Nat) : toBytes (w + 1) n = toBytes w (n / 256) ++ [UInt8.ofNat n] :=
  rfl

@[simp] theorem length_toBytes (w n : Nat) : (toBytes w n).length = w := by
  induction w generalizing n with
  | zero => rfl
  | succ w ih => simp [toBytes_succ, ih]

@[simp] theorem ofBytes_nil : ofBytes [] = 0 := rfl

theorem ofBytes_append (as bs : List UInt8) :
    ofBytes (as ++ bs) = ofBytes bs + 256 ^ bs.length * ofBytes as := by
  simp [ofBytes, Nat.ofDigits_append]

theorem ofBytes_append_singleton (bs : List UInt8) (b : UInt8) :
    ofBytes (bs ++ [b]) = b.toNat + 256 * ofBytes bs := by
  rw [ofBytes_append]
  simp [ofBytes, Nat.ofDigits_cons]

/-- Reading back what was written. -/
theorem ofBytes_toBytes (w n : Nat) : ofBytes (toBytes w n) = n % 256 ^ w := by
  induction w generalizing n with
  | zero => simp [Nat.mod_one]
  | succ w ih =>
      rw [toBytes_succ, ofBytes_append_singleton, ih, pow_succ', Nat.mod_mul]
      simp

/-- Writing back what was read. -/
theorem toBytes_ofBytes (bs : List UInt8) : toBytes bs.length (ofBytes bs) = bs := by
  induction bs using List.reverseRecOn with
  | nil => rfl
  | append_singleton bs b ih =>
      have hb : b.toNat < 256 := b.toNat_lt
      have hdiv : (b.toNat + 256 * ofBytes bs) / 256 = ofBytes bs := by omega
      have hmod : UInt8.ofNat (b.toNat + 256 * ofBytes bs) = b := by
        apply UInt8.toNat_inj.mp
        simp
      rw [List.length_append, List.length_singleton, toBytes_succ, ofBytes_append_singleton, hdiv,
        ih, hmod]

theorem ofBytes_lt (bs : List UInt8) : ofBytes bs < 256 ^ bs.length := by
  have hread := ofBytes_toBytes bs.length (ofBytes bs)
  rw [toBytes_ofBytes] at hread
  rw [hread]
  exact Nat.mod_lt _ (by positivity)

end BigEndian
