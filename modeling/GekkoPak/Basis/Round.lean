import Mathlib.Algebra.Order.Field.Basic
import Mathlib.Algebra.Order.Field.Rat
import Mathlib.Tactic.Linarith
import Mathlib.Tactic.FieldSimp
import Mathlib.Tactic.Ring

/-!
# `Basis.Round` — division rounded to nearest

`roundDiv a n` is `a / n` to the nearest whole number, the way integer code writes it: add half the divisor, then
divide. It is within one half of the true quotient (`abs_roundDiv_sub_le`) and monotone. `roundMod m a n` is the
same with the sum kept modulo `m`, as a narrow register does: below `m` nothing is lost, and from there on the result
is off by far more than rounding, which both tests for it show (`abs_roundMod_sub_le_iff`, `roundMod_mono_iff`).
-/

namespace Basis

/-- `a / n`, rounded to nearest. -/
def roundDiv (a n : Nat) : Nat := (a + n / 2) / n

theorem roundDiv_mono {a b : Nat} (h : a ≤ b) (n : Nat) : roundDiv a n ≤ roundDiv b n :=
  Nat.div_le_div_right (Nat.add_le_add_right h _)

/-- The two sides of the division, without fractions. -/
theorem roundDiv_bounds (a : Nat) {n : Nat} (hn : 0 < n) :
    2 * (roundDiv a n * n) ≤ 2 * a + n ∧ 2 * a ≤ 2 * (roundDiv a n * n) + n := by
  have hmod := Nat.mod_add_div' (a + n / 2) n
  have hlt := Nat.mod_lt (a + n / 2) hn
  unfold roundDiv
  omega

/-- **Rounding costs one half at most.** -/
theorem abs_roundDiv_sub_le (a : Nat) {n : Nat} (hn : 0 < n) : |(roundDiv a n : ℚ) - a / n| ≤ 1 / 2 := by
  obtain ⟨hlo, hhi⟩ := roundDiv_bounds a hn
  have hpos : (0 : ℚ) < n := by exact_mod_cast hn
  have hlo' : 2 * ((roundDiv a n : ℚ) * n) ≤ 2 * a + n := by exact_mod_cast hlo
  have hhi' : 2 * (a : ℚ) ≤ 2 * (roundDiv a n * n) + n := by exact_mod_cast hhi
  rw [abs_le]
  constructor
  · rw [neg_le_sub_iff_le_add, div_le_iff₀ hpos]
    linarith
  · rw [sub_le_iff_le_add, ← sub_le_iff_le_add', le_div_iff₀ hpos]
    linarith

/-- The same without fractions: a share, times the number of shares, is off by half that number at most. -/
theorem abs_mul_roundDiv_sub_le (a : Nat) {n : Nat} (hn : 0 < n) : |(n : ℚ) * roundDiv a n - a| ≤ n / 2 := by
  obtain ⟨hlo, hhi⟩ := roundDiv_bounds a hn
  have hlo' : 2 * ((roundDiv a n : ℚ) * n) ≤ 2 * a + n := by exact_mod_cast hlo
  have hhi' : 2 * (a : ℚ) ≤ 2 * (roundDiv a n * n) + n := by exact_mod_cast hhi
  rw [abs_le]
  constructor <;> linarith

/-- No share is larger than the whole. -/
theorem roundDiv_le (a : Nat) {n : Nat} (hn : 0 < n) : roundDiv a n ≤ a := by
  obtain ⟨hlo, -⟩ := roundDiv_bounds a hn
  by_contra hlt
  have hmul : (a + 1) * n ≤ roundDiv a n * n := Nat.mul_le_mul_right n (Nat.not_le.mp hlt)
  have hexpand : (a + 1) * n = a * n + n := Nat.succ_mul a n
  have hge : a ≤ a * n := Nat.le_mul_of_pos_right a hn
  omega

/-- **One more to share with makes no share larger**, although the half that is added before the division grows. -/
theorem roundDiv_antitone (a : Nat) {n : Nat} (hn : 0 < n) : roundDiv a (n + 1) ≤ roundDiv a n := by
  obtain ⟨hlo, -⟩ := roundDiv_bounds a (show 0 < n + 1 by omega)
  generalize roundDiv a (n + 1) = q at hlo ⊢
  rw [roundDiv, Nat.le_div_iff_mul_le hn]
  rcases Nat.eq_zero_or_pos q with rfl | hq
  · rw [Nat.zero_mul]
    exact Nat.zero_le _
  · have hexpand : q * (n + 1) = q * n + q := Nat.mul_succ q n
    omega

/-- Going from `n` to `n + 1` moves the rounding of `n * x / d` by `x / d` at most, rounded up. -/
theorem roundDiv_succ_le (n x : Nat) {d k : Nat} (hd : 0 < d) (hk : x ≤ k * d) :
    roundDiv ((n + 1) * x) d ≤ roundDiv (n * x) d + k := by
  unfold roundDiv
  rw [← Nat.add_mul_div_right _ _ hd]
  refine Nat.div_le_div_right ?_
  rw [Nat.add_mul, Nat.one_mul]
  omega

/-- A sequence that starts below `m`, takes steps of at most `d` and gets to `m`, lands within `d` of `m` when it
    first does. -/
theorem exists_crossing {f : Nat → Nat} {m d n : Nat} (hstart : f 0 < m) (hstep : ∀ k, f (k + 1) ≤ f k + d)
    (hend : m ≤ f n) : ∃ k, k < n ∧ f k < m ∧ m ≤ f (k + 1) ∧ m ≤ f k + d := by
  induction n with
  | zero => omega
  | succ n ih =>
    rcases Nat.lt_or_ge (f n) m with hlt | hge
    · refine ⟨n, Nat.lt_succ_self n, hlt, hend, ?_⟩
      have := hstep n
      omega
    · obtain ⟨k, hk, hrest⟩ := ih hge
      exact ⟨k, Nat.lt_succ_of_lt hk, hrest⟩

/-! ## Rounding a sum that is kept modulo `m` -/

/-- `a / n`, rounded to nearest, with the sum before the division kept modulo `m`. -/
def roundMod (m a n : Nat) : Nat := (a + n / 2) % m / n

theorem roundMod_eq {m a n : Nat} (h : a + n / 2 < m) : roundMod m a n = roundDiv a n := by
  unfold roundMod roundDiv
  rw [Nat.mod_eq_of_lt h]

/-- Once the sum wraps, at least `m` is missing. -/
theorem roundMod_mul_add_le {m a n : Nat} (h : m ≤ a + n / 2) : roundMod m a n * n + m ≤ a + n / 2 := by
  have hdiv := Nat.div_mul_le_self ((a + n / 2) % m) n
  have hmod : (a + n / 2) % m + m ≤ a + n / 2 := by
    rw [Nat.mod_eq_sub_mod h]
    have := Nat.mod_le (a + n / 2 - m) m
    omega
  unfold roundMod
  omega

/-- **Close iff it fits.** Where the sum itself is within one half of a value, what is computed is within one of it
    exactly as long as the sum does not wrap. -/
theorem abs_roundMod_sub_le_iff {m a n : Nat} {x : ℚ} (hn : 0 < n) (hm : 3 * n ≤ m) (hx : |(a : ℚ) / n - x| ≤ 1 / 2) :
    |(roundMod m a n : ℚ) - x| ≤ 1 ↔ a + n / 2 < m := by
  have hpos : (0 : ℚ) < n := by exact_mod_cast hn
  constructor
  · intro hclose
    by_contra hwrap
    have hfar : roundMod m a n * n + m ≤ a + n / 2 := roundMod_mul_add_le (Nat.not_lt.mp hwrap)
    have hnat : 2 * (roundMod m a n * n) + 5 * n ≤ 2 * a := by omega
    have hrat : 2 * ((roundMod m a n : ℚ) * n) + 5 * n ≤ 2 * a := by exact_mod_cast hnat
    have hquot : (roundMod m a n : ℚ) + 5 / 2 ≤ a / n := by
      rw [le_div_iff₀ hpos]
      linarith
    rw [abs_le] at hclose hx
    linarith [hclose.1, hx.2]
  · intro hfit
    rw [roundMod_eq hfit]
    have hround := abs_roundDiv_sub_le a hn
    rw [abs_le] at hround hx ⊢
    constructor <;> linarith [hround.1, hround.2, hx.1, hx.2]

/-- **Monotone iff it fits.** Along a slowly growing sequence that starts below the bound, what is computed never
    decreases exactly as long as the last sum does not wrap. -/
theorem roundMod_mono_iff {f : Nat → Nat} {m n d last : Nat} (hf : Monotone f) (hstart : f 0 + n / 2 < m)
    (hstep : ∀ k, f (k + 1) ≤ f k + d) (hd : d / n < (m - d) / n) :
    (∀ j k, j ≤ k → k ≤ last → roundMod m (f j) n ≤ roundMod m (f k) n) ↔ f last + n / 2 < m := by
  constructor
  · intro hmono
    by_contra hwrap
    -- right after the first wrap the result is as good as zero
    obtain ⟨k, hk, hbefore, hafter, hnear⟩ := exists_crossing (f := fun k => f k + n / 2) (m := m) (d := d) (n := last)
      hstart (fun k => by have := hstep k; omega) (Nat.not_lt.mp hwrap)
    have hle := hmono k (k + 1) (Nat.le_succ k) hk
    have hsmall : roundMod m (f (k + 1)) n ≤ d / n := by
      unfold roundMod
      refine Nat.div_le_div_right ?_
      rw [Nat.mod_eq_sub_mod hafter]
      refine Nat.le_trans (Nat.mod_le _ _) ?_
      have := hstep k
      omega
    have hlarge : (m - d) / n ≤ roundMod m (f k) n := by
      unfold roundMod
      rw [Nat.mod_eq_of_lt hbefore]
      refine Nat.div_le_div_right ?_
      omega
    omega
  · intro hfit j k hjk hk
    have hfk := hf hk
    have hfj := hf hjk
    rw [roundMod_eq (by omega), roundMod_eq (by omega)]
    exact roundDiv_mono hfj n

end Basis
