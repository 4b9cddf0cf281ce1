import Mathlib.Algebra.Order.BigOperators.Group.List
import Mathlib.Algebra.Order.Ring.Nat

/-!
# `Basis.OrderStats` — ranks, read off a sorted list

`countLe l v` is the number of entries of `l` that are at most `v`. Counts do not see the order of a list, positions in
a sorted list do, and `lt_countLe_iff` ties the two: the entry at position `k` is at most `v` exactly when more than `k`
entries are. What a program takes from a position of a sorted array is so said of the samples in any order.

The nearest-rank percentile (`IsPercentile`) is the case used here: the least entry that has `p` per cent of the entries
at or below it stands at the rounded-up rank.
-/

namespace Basis

variable {α : Type} [LE α]

/-! ## Positions of a sorted list -/

section Sorted

variable [Std.IsLinearOrder α]

/-- A sorted list is monotone in the position. -/
theorem getElem_le_getElem {l : List α} (hl : l.Pairwise (· ≤ ·)) {i j : Nat} (hij : i ≤ j) (hi : i < l.length)
    (hj : j < l.length) : l[i] ≤ l[j] := by
  rcases Nat.lt_or_eq_of_le hij with hlt | rfl
  · exact List.pairwise_iff_getElem.mp hl i j hi hj hlt
  · exact Std.le_refl _

/-- The first entry of a sorted list is its least. -/
theorem getElem_zero_le {l : List α} (hl : l.Pairwise (· ≤ ·)) (hfirst : 0 < l.length) {x : α} (hx : x ∈ l) :
    l[0] ≤ x := by
  obtain ⟨k, hk, rfl⟩ := List.mem_iff_getElem.mp hx
  exact getElem_le_getElem hl (Nat.zero_le k) hfirst hk

/-- The last entry of a sorted list is its greatest. -/
theorem le_getElem_last {l : List α} (hl : l.Pairwise (· ≤ ·)) (hlast : l.length - 1 < l.length) {x : α} (hx : x ∈ l) :
    x ≤ l[l.length - 1] := by
  obtain ⟨k, hk, rfl⟩ := List.mem_iff_getElem.mp hx
  exact getElem_le_getElem hl (Nat.le_sub_one_of_lt hk) hk hlast

end Sorted

/-! ## Counts -/

section Rank

variable [DecidableLE α]

/-- How many entries of `l` are at most `v`. -/
def countLe (l : List α) (v : α) : Nat := l.countP (fun x => decide (x ≤ v))

theorem countLe_perm {l l' : List α} (h : l.Perm l') (v : α) : countLe l v = countLe l' v := h.countP_eq _

/-- The nearest-rank `p`-th percentile: the least entry with `p` per cent of the entries at or below it. -/
structure IsPercentile (l : List α) (p : Nat) (v : α) : Prop where
  mem    : v ∈ l
  covers : p * l.length ≤ 100 * countLe l v
  least  : ∀ w ∈ l, p * l.length ≤ 100 * countLe l w → v ≤ w

theorem IsPercentile.perm {l l' : List α} {p : Nat} {v : α} (h : IsPercentile l p v) (hperm : l.Perm l') :
    IsPercentile l' p v := by
  refine ⟨hperm.mem_iff.mp h.mem, ?_, ?_⟩
  · rw [← hperm.length_eq, ← countLe_perm hperm]
    exact h.covers
  · intro w hw hcovers
    rw [← hperm.length_eq, ← countLe_perm hperm] at hcovers
    exact h.least w (hperm.mem_iff.mpr hw) hcovers

variable [Std.IsLinearOrder α]

/-- Positions and counts of a sorted list. -/
theorem lt_countLe_iff {l : List α} (hl : l.Pairwise (· ≤ ·)) (v : α) {k : Nat} (hk : k < l.length) :
    k < countLe l v ↔ l[k] ≤ v := by
  induction l generalizing k with
  | nil => exact absurd hk (Nat.not_lt_zero k)
  | cons x xs ih =>
    obtain ⟨hx, hxs⟩ := List.pairwise_cons.mp hl
    by_cases hxv : x ≤ v
    · have hcount : countLe (x :: xs) v = countLe xs v + 1 := by simp [countLe, hxv]
      rw [hcount]
      cases k with
      | zero => simp [hxv]
      | succ k =>
        rw [Nat.succ_lt_succ_iff, List.getElem_cons_succ]
        exact ih hxs (by simpa using hk)
    · -- the head is past `v`, and so is everything behind it
      have habove : ∀ y ∈ x :: xs, ¬ y ≤ v := by
        intro y hy hyv
        rcases List.mem_cons.mp hy with rfl | hmem
        · exact hxv hyv
        · exact hxv (Std.le_trans (hx y hmem) hyv)
      have hcount : countLe (x :: xs) v = 0 := by
        apply List.countP_eq_zero.mpr
        intro y hy
        simpa using habove y hy
      rw [hcount]
      constructor
      · intro h
        exact absurd h (Nat.not_lt_zero k)
      · intro h
        exact absurd h (habove _ (List.getElem_mem hk))

/-! ## The nearest rank -/

/-- `p` per cent of `n`, rounded up. -/
def nearestRank (p n : Nat) : Nat := (n * p + 99) / 100

theorem nearestRank_le_iff {p n c : Nat} : nearestRank p n ≤ c ↔ p * n ≤ 100 * c := by
  rw [nearestRank, Nat.mul_comm n p]
  omega

theorem nearestRank_le {p : Nat} (hp : p ≤ 100) (n : Nat) : nearestRank p n ≤ n :=
  nearestRank_le_iff.mpr (Nat.mul_le_mul_right n hp)

theorem nearestRank_pos {p n : Nat} (hp : 0 < p) (hn : 0 < n) : 0 < nearestRank p n := by
  have hprod : 0 < p * n := Nat.mul_pos hp hn
  have hnot : ¬ nearestRank p n ≤ 0 := by
    rw [nearestRank_le_iff]
    omega
  exact Nat.not_le.mp hnot

/-- The percentile of a sorted list stands at its nearest rank, counted from one. -/
theorem isPercentile_getElem {l : List α} (hl : l.Pairwise (· ≤ ·)) {p k : Nat} (hrank : nearestRank p l.length = k + 1)
    (hk : k < l.length) : IsPercentile l p l[k] := by
  -- having enough entries below is being at or past the rank
  have hcovers : ∀ w, p * l.length ≤ 100 * countLe l w ↔ l[k] ≤ w := by
    intro w
    rw [← nearestRank_le_iff, hrank, ← lt_countLe_iff hl w hk]
    exact Nat.succ_le_iff
  exact ⟨List.getElem_mem hk, (hcovers _).mpr (Std.le_refl _), fun w _ hw => (hcovers w).mp hw⟩

end Rank

/-! ## The mean -/

theorem sum_le_length_mul {l : List Nat} {hi : Nat} (h : ∀ x ∈ l, x ≤ hi) : l.sum ≤ l.length * hi :=
  List.sum_le_card_nsmul l hi h

/-- The rounded-down mean of a list lies between any bounds of its entries. -/
theorem mean_between {l : List Nat} (hne : 0 < l.length) {lo hi : Nat} (hlo : ∀ x ∈ l, lo ≤ x) (hhi : ∀ x ∈ l, x ≤ hi) :
    lo ≤ l.sum / l.length ∧ l.sum / l.length ≤ hi := by
  have hlow : l.length * lo ≤ l.sum := List.card_nsmul_le_sum l lo hlo
  have hhigh : l.sum ≤ l.length * hi := sum_le_length_mul hhi
  constructor
  · rw [Nat.le_div_iff_mul_le hne, Nat.mul_comm]
    exact hlow
  · exact Nat.div_le_of_le_mul hhigh

end Basis
