import Mathlib.Tactic.ByContra

/-!
# `Basis.Counter` — a running counter, read in two halves

A counter that never stops is read digit by digit: the remainder by the radix `b` first, the quotient a moment later.
Two moments less than `b` apart lie in the same turn of the low digit or in neighbouring ones, and comparing the low
digits tells which (`div_eq_iff_mod_le`).
-/

namespace Basis

variable {b t u : Nat}

/-- Less than a turn apart: the same turn, or the next. -/
theorem div_le_succ (hb : 0 < b) (hspan : u < t + b) : u / b ≤ t / b + 1 := by
  calc u / b ≤ (t + b) / b := Nat.div_le_div_right (Nat.le_of_lt hspan)
    _ = t / b + 1 := Nat.add_div_right t hb

/-- Less than a turn apart, the low digit went backwards exactly when a carry came between. -/
theorem div_eq_iff_mod_le (hle : t ≤ u) (hspan : u < t + b) : u / b = t / b ↔ t % b ≤ u % b := by
  have hb : 0 < b := by omega
  have ht := Nat.div_add_mod t b
  have hu := Nat.div_add_mod u b
  constructor
  · intro h
    rw [h] at hu
    omega
  · intro hmod
    apply Nat.le_antisymm
    · by_contra hnot
      -- the next turn would put `u` a whole turn past `t`
      have hnext : u / b = t / b + 1 := Nat.le_antisymm (div_le_succ hb hspan) (Nat.lt_of_not_le hnot)
      rw [hnext, Nat.mul_add, Nat.mul_one] at hu
      omega
    · exact Nat.div_le_div_right hle

/-- The turn a low digit that went backwards belongs to lasts to the end of the span. -/
theorem div_eq_of_carry {v : Nat} (hb : 0 < b) (htu : t ≤ u) (huv : u ≤ v) (hspan : v < t + b)
    (hcarry : u % b < t % b) : v / b = u / b := by
  have hne : ¬ u / b = t / b := by
    rw [div_eq_iff_mod_le htu (Nat.lt_of_le_of_lt huv hspan)]
    exact Nat.not_le.mpr hcarry
  have hlow : t / b ≤ u / b := Nat.div_le_div_right htu
  have hmid : u / b ≤ v / b := Nat.div_le_div_right huv
  have hhigh := div_le_succ hb hspan
  omega

/-- Between two moments of one turn there is no other turn. -/
theorem div_eq_between {v : Nat} (htu : t ≤ u) (huv : u ≤ v) (h : v / b = t / b) : u / b = t / b := by
  have hlow : t / b ≤ u / b := Nat.div_le_div_right htu
  have hhigh : u / b ≤ v / b := Nat.div_le_div_right huv
  omega

end Basis
