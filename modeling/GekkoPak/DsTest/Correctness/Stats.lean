import GekkoPak.Basis.OrderStats
import GekkoPak.DsTest.Bench

/-!
# `DsTest.Correctness.Stats` — the statistics are those of the samples

`gpk_stats_compute` sorts the samples in place and picks positions. What it picks is a matter of counting, not of
order: the extremes, the nearest-rank percentile, and the rounded-down mean (`IsStatsOf`). The arithmetic is 32-bit,
and the sum 64-bit; below `2 ^ 25` samples neither wraps.
-/

namespace GekkoPak

open Basis

/-! ## Sorting -/

theorem cmpU32_le_iff {x y : UInt32} : cmpU32 x y ≤ 0 ↔ x ≤ y := by
  have hle : x ≤ y ↔ x.toNat ≤ y.toNat := UInt32.le_iff_toNat_le
  have hgt : x > y ↔ y.toNat < x.toNat := UInt32.lt_iff_toNat_lt
  have hlt : x < y ↔ x.toNat < y.toNat := UInt32.lt_iff_toNat_lt
  rw [cmpU32, hle]
  by_cases hgreater : x > y
  · have hnot : ¬ x < y := by rw [hlt]; rw [hgt] at hgreater; omega
    rw [if_pos hgreater, if_neg hnot]
    rw [hgt] at hgreater
    omega
  · rw [if_neg hgreater]
    rw [hgt] at hgreater
    split <;> omega

/-- The samples in increasing order. -/
def sortedSamples (samples : List UInt32) : List UInt32 :=
  samples.mergeSort (fun x y => decide (cmpU32 x y ≤ 0))

theorem sortedSamples_perm (samples : List UInt32) : (sortedSamples samples).Perm samples :=
  List.mergeSort_perm samples _

theorem sortedSamples_sorted (samples : List UInt32) : (sortedSamples samples).Pairwise (· ≤ ·) := by
  have htrans : ∀ x y z : UInt32, decide (cmpU32 x y ≤ 0) = true → decide (cmpU32 y z ≤ 0) = true →
      decide (cmpU32 x z ≤ 0) = true := by
    intro x y z hxy hyz
    simp only [decide_eq_true_eq, cmpU32_le_iff] at hxy hyz ⊢
    exact UInt32.le_trans hxy hyz
  have htotal : ∀ x y : UInt32, (decide (cmpU32 x y ≤ 0) || decide (cmpU32 y x ≤ 0)) = true := by
    intro x y
    simp only [Bool.or_eq_true, decide_eq_true_eq, cmpU32_le_iff]
    exact UInt32.le_total x y
  apply (List.pairwise_mergeSort htrans htotal samples).imp
  intro x y hxy
  rw [decide_eq_true_eq] at hxy
  exact cmpU32_le_iff.mp hxy

/-- Equal samples are the same word, so there is one sorted order: any sort agrees with this one. -/
theorem sortedSamples_unique {samples sorted : List UInt32} (hperm : sorted.Perm samples)
    (hsorted : sorted.Pairwise (· ≤ ·)) : sorted = sortedSamples samples :=
  List.Perm.eq_of_pairwise (fun _ _ _ _ => UInt32.le_antisymm) hsorted (sortedSamples_sorted samples)
    (hperm.trans (sortedSamples_perm samples).symm)

theorem sortedSamples_congr {samples other : List UInt32} (h : other.Perm samples) :
    sortedSamples other = sortedSamples samples :=
  sortedSamples_unique ((sortedSamples_perm other).trans h) (sortedSamples_sorted other)

@[simp] theorem sortedSamples_length (samples : List UInt32) : (sortedSamples samples).length = samples.length :=
  (sortedSamples_perm samples).length_eq

theorem qsort_all {samples : List UInt32} {count : Nat} (h : count = samples.length) :
    qsort cmpU32 samples count = some (sortedSamples samples) := by
  subst h
  rw [qsort, if_pos (Nat.le_refl _), List.take_length, List.drop_length, List.append_nil]
  rfl

/-! ## The sum -/

theorem sum_take_le (samples : List UInt32) (n : Nat) :
    ((samples.take n).map UInt32.toNat).sum ≤ n * (2 ^ 32 - 1) := by
  have hwords : ∀ x ∈ (samples.take n).map UInt32.toNat, x ≤ 2 ^ 32 - 1 := by
    intro x hx
    obtain ⟨sample, _, rfl⟩ := List.mem_map.mp hx
    exact Nat.le_sub_one_of_lt sample.toNat_lt
  have hlen : ((samples.take n).map UInt32.toNat).length ≤ n := by
    rw [List.length_map]
    exact List.length_take_le n samples
  exact Nat.le_trans (sum_le_length_mul hwords) (Nat.mul_le_mul_right _ hlen)

/-- The 64-bit sum of fewer than `2 ^ 32` words is their sum. -/
theorem sumSamples_eq {samples : List UInt32} {n : Nat} (hn : n ≤ samples.length) (hbound : n ≤ 2 ^ 32) :
    ∃ total, sumSamples samples n = some total ∧
      total.toNat = ((samples.take n).map UInt32.toNat).sum := by
  induction n with
  | zero => exact ⟨0, rfl, rfl⟩
  | succ n ih =>
    obtain ⟨total, hrun, htotal⟩ := ih (by omega) (by omega)
    have hlt : n < samples.length := hn
    refine ⟨total + (samples[n]).toUInt64, ?_, ?_⟩
    · simp [sumSamples, hrun, List.getElem?_eq_getElem hlt]
    · have hsum : ((samples.take (n + 1)).map UInt32.toNat).sum = total.toNat + (samples[n]).toNat := by
        rw [List.take_succ_eq_append_getElem hlt, List.map_append, List.sum_append, htotal]
        simp
      have hle := sum_take_le samples (n + 1)
      rw [hsum] at hle ⊢
      rw [UInt64.toNat_add, UInt32.toNat_toUInt64]
      apply Nat.mod_eq_of_lt
      have hprod : (n + 1) * (2 ^ 32 - 1) ≤ 2 ^ 32 * (2 ^ 32 - 1) := Nat.mul_le_mul_right _ hbound
      omega

/-! ## The positions picked -/

theorem count_toNat {samples : List UInt32} (hlen : samples.length < 2 ^ 25) :
    (UInt32.ofNat samples.length).toNat = samples.length := by
  rw [UInt32.toNat_ofNat']
  exact Nat.mod_eq_of_lt (by omega)

theorem count_ne_zero {count : UInt32} (hpos : 0 < count.toNat) : count ≠ 0 := by
  intro h
  rw [h] at hpos
  exact absurd hpos (Nat.lt_irrefl 0)

/-- The rank, computed in 32 bits. -/
theorem rank_toNat {count : UInt32} (hcount : count.toNat < 2 ^ 25) :
    ((count * 95 + 99) / 100).toNat = nearestRank 95 count.toNat := by
  have h95 : (95 : UInt32).toNat = 95 := rfl
  have h99 : (99 : UInt32).toNat = 99 := rfl
  have h100 : (100 : UInt32).toNat = 100 := rfl
  rw [nearestRank, UInt32.toNat_div, UInt32.toNat_add, UInt32.toNat_mul, h95, h99, h100,
    Nat.mod_eq_of_lt (show count.toNat * 95 < 2 ^ 32 by omega),
    Nat.mod_eq_of_lt (show count.toNat * 95 + 99 < 2 ^ 32 by omega)]

/-- The rank as an index: never zero, so the guard on it never fires. -/
theorem rank_index {count : UInt32} (hpos : 0 < count.toNat) (hcount : count.toNat < 2 ^ 25) :
    ((if (count * 95 + 99) / 100 = 0 then 1 else (count * 95 + 99) / 100) - 1).toNat =
      nearestRank 95 count.toNat - 1 := by
  have hrank := rank_toNat hcount
  have hrankPos := @nearestRank_pos 95 _ (by decide) hpos
  have h1 : (1 : UInt32).toNat = 1 := rfl
  have hle : 1 ≤ (count * 95 + 99) / 100 := by
    rw [UInt32.le_iff_toNat_le, h1, hrank]
    exact hrankPos
  have hne : (count * 95 + 99) / 100 ≠ 0 := by
    intro h
    rw [h] at hle
    exact absurd hle (by decide)
  rw [if_neg hne, UInt32.toNat_sub_of_le _ _ hle, hrank, h1]

/-- The mean, computed in 64 bits and returned in 32. -/
theorem mean_toNat {total : UInt64} {count : UInt32}
    (htotal : total.toNat ≤ count.toNat * (2 ^ 32 - 1)) :
    (total / count.toUInt64).toUInt32.toNat = total.toNat / count.toNat := by
  have hle : total.toNat / count.toNat ≤ 2 ^ 32 - 1 := Nat.div_le_of_le_mul htotal
  rw [UInt64.toNat_toUInt32, UInt64.toNat_div, UInt32.toNat_toUInt64]
  exact Nat.mod_eq_of_lt (by omega)

/-- `gpk_stats_compute` on all of an array: which positions of the sorted samples it returns. -/
theorem gpkStatsCompute_eq {samples : List UInt32} (hpos : 0 < samples.length) (hlen : samples.length < 2 ^ 25) :
    ∃ out : GpkStats,
      gpkStatsCompute samples (UInt32.ofNat samples.length) = some (sortedSamples samples, out) ∧
      (sortedSamples samples)[0]? = some out.minUs ∧
      (sortedSamples samples)[samples.length - 1]? = some out.maxUs ∧
      (sortedSamples samples)[samples.length / 2]? = some out.medianUs ∧
      (sortedSamples samples)[nearestRank 95 samples.length - 1]? = some out.p95Us ∧
      out.meanUs.toNat = (samples.map UInt32.toNat).sum / samples.length ∧
      out.samples = UInt32.ofNat samples.length := by
  have hcount := count_toNat hlen
  generalize UInt32.ofNat samples.length = count at hcount
  have hpos' : 0 < count.toNat := by rw [hcount]; exact hpos
  have h1 : (1 : UInt32).toNat = 1 := rfl
  have h2 : (2 : UInt32).toNat = 2 := rfl
  have hne := count_ne_zero hpos'
  have hone : 1 ≤ count := by
    rw [UInt32.le_iff_toNat_le, h1]
    exact hpos'
  -- the four indices, each inside the array
  have hlast : (count - 1).toNat = samples.length - 1 := by rw [UInt32.toNat_sub_of_le _ _ hone, hcount, h1]
  have hhalf : (count / 2).toNat = samples.length / 2 := by rw [UInt32.toNat_div, hcount, h2]
  have hrank := rank_index hpos' (by rw [hcount]; exact hlen)
  rw [hcount] at hrank
  have hrankLe := @nearestRank_le 95 (by decide) samples.length
  have hget : ∀ k, k < samples.length → ∃ sample, (sortedSamples samples)[k]? = some sample := by
    intro k hk
    exact ⟨_, List.getElem?_eq_getElem (by rw [sortedSamples_length]; exact hk)⟩
  obtain ⟨minUs, hmin⟩ := hget 0 hpos
  obtain ⟨maxUs, hmax⟩ := hget (samples.length - 1) (by omega)
  obtain ⟨medianUs, hmedian⟩ := hget (samples.length / 2) (by omega)
  obtain ⟨p95Us, hp95⟩ := hget (nearestRank 95 samples.length - 1) (by omega)
  -- the sum does not see the sorting
  obtain ⟨total, hrun, htotal⟩ :=
    @sumSamples_eq (sortedSamples samples) samples.length (by rw [sortedSamples_length]) (by omega)
  have hbound := sum_take_le (sortedSamples samples) samples.length
  rw [← htotal, ← hcount] at hbound
  have hmean := mean_toNat hbound
  rw [htotal, hcount, List.take_of_length_le (by rw [sortedSamples_length]),
    ((sortedSamples_perm samples).map UInt32.toNat).sum_eq] at hmean
  refine ⟨⟨minUs, medianUs, (total / count.toUInt64).toUInt32, p95Us, maxUs, count⟩, ?_, hmin, hmax, hmedian, hp95,
    hmean, rfl⟩
  rw [gpkStatsCompute, if_neg hne, qsort_all hcount, hcount]
  simp only [Option.bind_eq_bind, Option.bind_some, hrun, hmin, hlast, hmax, hhalf, hmedian, hrank, hp95]
  rfl

/-! ## The statistics -/

/-- What the statistics of a list of samples are, whatever their order. -/
structure IsStatsOf (samples : List UInt32) (out : GpkStats) : Prop where
  samples_eq      : out.samples.toNat = samples.length
  min_mem         : out.minUs ∈ samples
  min_le          : ∀ sample ∈ samples, out.minUs ≤ sample
  max_mem         : out.maxUs ∈ samples
  le_max          : ∀ sample ∈ samples, sample ≤ out.maxUs
  median_mem      : out.medianUs ∈ samples
  p95             : IsPercentile samples 95 out.p95Us
  min_le_median   : out.minUs ≤ out.medianUs
  median_le_p95   : out.medianUs ≤ out.p95Us
  p95_le_max      : out.p95Us ≤ out.maxUs
  mean_eq         : out.meanUs.toNat = (samples.map UInt32.toNat).sum / samples.length
  min_le_mean     : out.minUs ≤ out.meanUs
  mean_le_max     : out.meanUs ≤ out.maxUs

theorem isStatsOf {samples : List UInt32} (hpos : 0 < samples.length) (hlen : samples.length < 2 ^ 25) :
    ∃ out, gpkStatsCompute samples (UInt32.ofNat samples.length) = some (sortedSamples samples, out) ∧
      IsStatsOf samples out := by
  obtain ⟨out, hrun, hmin, hmax, hmedian, hp95, hmean, hcount⟩ := gpkStatsCompute_eq hpos hlen
  have hsorted := sortedSamples_sorted samples
  have hperm := sortedSamples_perm samples
  have hlength := sortedSamples_length samples
  obtain ⟨hminLt, hminEq⟩ := List.getElem?_eq_some_iff.mp hmin
  obtain ⟨hmaxLt, hmaxEq⟩ := List.getElem?_eq_some_iff.mp hmax
  obtain ⟨hmedianLt, hmedianEq⟩ := List.getElem?_eq_some_iff.mp hmedian
  obtain ⟨hp95Lt, hp95Eq⟩ := List.getElem?_eq_some_iff.mp hp95
  have hrankPos := @nearestRank_pos 95 _ (by decide) hpos
  have hminLe : ∀ sample ∈ samples, out.minUs ≤ sample := by
    intro sample hmem
    rw [← hminEq]
    exact getElem_zero_le hsorted hminLt (hperm.mem_iff.mpr hmem)
  have hleMax : ∀ sample ∈ samples, sample ≤ out.maxUs := by
    intro sample hmem
    have hle := le_getElem_last hsorted (by rw [hlength]; omega) (hperm.mem_iff.mpr hmem)
    simp only [hlength, hmaxEq] at hle
    exact hle
  have hpercentile : IsPercentile (sortedSamples samples) 95 out.p95Us := by
    rw [← hp95Eq]
    exact isPercentile_getElem hsorted (by rw [hlength]; omega) hp95Lt
  have hmedianMem : out.medianUs ∈ samples := hperm.mem_iff.mp (List.mem_of_getElem? hmedian)
  have hp95Mem : out.p95Us ∈ samples := hperm.mem_iff.mp hpercentile.mem
  -- the middle position is below the rank
  have hmid : samples.length / 2 ≤ nearestRank 95 samples.length - 1 := by
    rw [nearestRank]
    omega
  have hmedianLe : out.medianUs ≤ out.p95Us := by
    rw [← hmedianEq, ← hp95Eq]
    exact getElem_le_getElem hsorted hmid hmedianLt hp95Lt
  have hbetween := @mean_between (samples.map UInt32.toNat) (by rw [List.length_map]; exact hpos) out.minUs.toNat
    out.maxUs.toNat
    (by
      intro x hx
      obtain ⟨sample, hmem, rfl⟩ := List.mem_map.mp hx
      exact UInt32.le_iff_toNat_le.mp (hminLe sample hmem))
    (by
      intro x hx
      obtain ⟨sample, hmem, rfl⟩ := List.mem_map.mp hx
      exact UInt32.le_iff_toNat_le.mp (hleMax sample hmem))
  rw [List.length_map, ← hmean] at hbetween
  exact ⟨out, hrun,
    { samples_eq    := by rw [hcount]; exact count_toNat hlen
      min_mem       := hperm.mem_iff.mp (List.mem_of_getElem? hmin)
      min_le        := hminLe
      max_mem       := hperm.mem_iff.mp (List.mem_of_getElem? hmax)
      le_max        := hleMax
      median_mem    := hmedianMem
      p95           := hpercentile.perm hperm
      min_le_median := hminLe _ hmedianMem
      median_le_p95 := hmedianLe
      p95_le_max    := hleMax _ hp95Mem
      mean_eq       := hmean
      min_le_mean   := UInt32.le_iff_toNat_le.mpr hbetween.1
      mean_le_max   := UInt32.le_iff_toNat_le.mpr hbetween.2 }⟩

/-- The samples in another order go through the same sorted array. -/
theorem gpkStatsCompute_congr {samples other : List UInt32} (h : other.Perm samples) (hpos : 0 < samples.length)
    (hlen : samples.length < 2 ^ 25) :
    gpkStatsCompute other (UInt32.ofNat other.length) = gpkStatsCompute samples (UInt32.ofNat samples.length) := by
  have hcount := count_toNat hlen
  have hne := @count_ne_zero (UInt32.ofNat samples.length) (by rw [hcount]; exact hpos)
  rw [gpkStatsCompute, gpkStatsCompute, h.length_eq, if_neg hne, if_neg hne, qsort_all hcount,
    qsort_all (hcount.trans h.length_eq.symm), sortedSamples_congr h]

/-- **The statistics are the nearest-rank ones.** Below `2 ^ 25` samples every index is inside the array, what is
    returned are the statistics of the samples, and the order the samples came in makes no difference. -/
theorem gpk_stats_nearest_rank (samples : List UInt32) (hne : samples ≠ []) (hlen : samples.length < 2 ^ 25) :
    ∃ out, gpkStatsCompute samples (UInt32.ofNat samples.length) = some (sortedSamples samples, out) ∧
      IsStatsOf samples out ∧
      ∀ other : List UInt32, other.Perm samples →
        gpkStatsCompute other (UInt32.ofNat other.length) = some (sortedSamples samples, out) := by
  have hpos : 0 < samples.length := List.length_pos_of_ne_nil hne
  obtain ⟨out, hrun, hstats⟩ := isStatsOf hpos hlen
  refine ⟨out, hrun, hstats, ?_⟩
  intro other hperm
  rw [gpkStatsCompute_congr hperm hpos hlen, hrun]

theorem gpk_stats_nearest_rank_three :
    ∃ out, gpkStatsCompute [30, 10, 30] 3 = some (sortedSamples [30, 10, 30], out) ∧
      IsStatsOf [30, 10, 30] out ∧ gpkStatsCompute [10, 30, 30] 3 = some (sortedSamples [30, 10, 30], out) := by
  obtain ⟨out, hrun, hstats, horder⟩ := gpk_stats_nearest_rank [30, 10, 30] (by decide) (by decide)
  exact ⟨out, hrun, hstats, horder [10, 30, 30] (by decide)⟩

end GekkoPak
