import Mathlib.Data.Nat.Bitwise

/-!
# `Basis.Bits` — masks and shifts, read as arithmetic

What a mask of consecutive high bits keeps of a number, and how shifted parts join.
-/

namespace Basis

/-- Masking with `n` ones above `k` zeroes rounds a `k + n`-bit number down to a multiple of `2 ^ k`. -/
theorem and_highMask {x k n : Nat} (h : x < 2 ^ (k + n)) :
    x &&& ((2 ^ n - 1) <<< k) = x / 2 ^ k * 2 ^ k := by
  apply Nat.eq_of_testBit_eq
  intro i
  rw [Nat.testBit_and, Nat.testBit_shiftLeft, Nat.testBit_two_pow_sub_one, ← Nat.shiftLeft_eq,
    Nat.testBit_shiftLeft, ← Nat.shiftRight_eq_div_pow, Nat.testBit_shiftRight]
  -- below the mask, inside it, above it
  rcases Nat.lt_or_ge i k with hi | hi
  · simp [Nat.not_le.mpr hi]
  rcases Nat.lt_or_ge (i - k) n with hn | hn
  · simp [hi, hn]
  · have hpow : 2 ^ (k + n) ≤ 2 ^ i := Nat.pow_le_pow_right (by decide) (by omega)
    have hbit : x.testBit i = false := Nat.testBit_lt_two_pow (Nat.lt_of_lt_of_le h hpow)
    simp [hi, hbit]

/-- Shifting a joined number shifts its parts. -/
theorem shiftLeft_or_shiftLeft (x y n k : Nat) : (x <<< n ||| y) <<< k = x <<< (n + k) ||| y <<< k := by
  rw [Nat.shiftLeft_or_distrib, ← Nat.shiftLeft_add]

/-- A byte shifted inside a 64-bit word. -/
theorem byte_shiftLeft_toNat (x : UInt8) {k : UInt64} {n : Nat} (hk : k.toNat = n) (hn : n ≤ 56) :
    (x.toUInt64 <<< k).toNat = x.toNat <<< n := by
  have hx : x.toNat < 2 ^ 8 := x.toNat_lt
  rw [UInt64.toNat_shiftLeft, UInt8.toNat_toUInt64, hk, Nat.mod_eq_of_lt (show n < 64 by omega), Nat.shiftLeft_eq]
  apply Nat.mod_eq_of_lt
  calc x.toNat * 2 ^ n ≤ x.toNat * 2 ^ 56 := Nat.mul_le_mul_left _ (Nat.pow_le_pow_right (by decide) hn)
    _ < 2 ^ 64 := by omega

/-- Parts that do not overlap are joined by adding them. -/
theorem shiftLeft_or_of_lt {x k : Nat} (y : Nat) (h : x < 2 ^ k) : y <<< k ||| x = y * 2 ^ k + x := by
  rw [← Nat.shiftLeft_add_eq_or_of_lt h, Nat.shiftLeft_eq]

end Basis
