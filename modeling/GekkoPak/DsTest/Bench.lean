import Mathlib.Data.List.Basic

/-!
# `DsTest.Bench` — the benchmark clock and the benchmark statistics

`prototype/dspico-v1/ds-test`: the cascaded timers of `gekkopak_ntr.c`, and `gpk_stats_compute` of `bench.c`.
-/

namespace GekkoPak

/-! ## The cascaded timers -/

/-- Hardware timers 0 and 1 as `gpk_timer_init` sets them up: timer 0 at the full clock, timer 1 counting its
    overflows. -/
structure Timers where
  running : Bool
  data0   : UInt16
  data1   : UInt16
deriving DecidableEq, Repr

/-- `gpk_timer_init`. Both timers are stopped, reloaded with zero and started. -/
def gpkTimerInit (_ : Timers) : Timers :=
  { running := true, data0 := 0, data1 := 0 }

/-- One period of the clock. -/
def Timers.tick (t : Timers) : Timers :=
  if t.running then
    { t with data0 := t.data0 + 1, data1 := if t.data0 = 0xFFFF then t.data1 + 1 else t.data1 }
  else t

/-- `gpk_ticks`. The four arguments are what the timers show when `lo`, `hi`, `lo2` and, after a carry, `hi` again are
    read. -/
def gpkTicks (first second third fourth : Timers) : UInt32 :=
  let lo := first.data0.toUInt32
  let hi := second.data1.toUInt32
  -- re-read the low half to detect a carry landing between the two reads
  let lo2 := third.data0.toUInt32
  if lo2 < lo then
    let lo := lo2
    let hi := fourth.data1.toUInt32
    hi <<< 16 ||| lo
  else hi <<< 16 ||| lo

/-! ## The statistics -/

/-- `gpk_stats_t`. -/
structure GpkStats where
  minUs    : UInt32 := 0
  medianUs : UInt32 := 0
  meanUs   : UInt32 := 0
  p95Us    : UInt32 := 0
  maxUs    : UInt32 := 0
  samples  : UInt32 := 0
deriving DecidableEq, Repr

/-- `cmp_u32`. -/
def cmpU32 (x y : UInt32) : Int := (if x > y then 1 else 0) - (if x < y then 1 else 0)

/-- The library's `qsort` of the first `count` words of an array; `none` when the array is shorter than that. -/
def qsort (cmp : UInt32 → UInt32 → Int) (samples : List UInt32) (count : Nat) : Option (List UInt32) :=
  if count ≤ samples.length then
    some ((samples.take count).mergeSort (fun x y => decide (cmp x y ≤ 0)) ++ samples.drop count)
  else none

/-- `total += samples[i]`, for `i` below the bound. `none` when an index lies outside the array. -/
def sumSamples (samples : List UInt32) : Nat → Option UInt64
  | 0     => some 0
  | i + 1 => do
    let total ← sumSamples samples i
    let sample ← samples[i]?
    return total + sample.toUInt64

/-- `gpk_stats_compute`: the array afterwards and the statistics. `none` when an index lies outside the array. -/
def gpkStatsCompute (samples : List UInt32) (count : UInt32) : Option (List UInt32 × GpkStats) := do
  let out : GpkStats := {}
  if count = 0 then return (samples, out)
  let samples ← qsort cmpU32 samples count.toNat
  let total ← sumSamples samples count.toNat
  let minUs ← samples[0]?
  let maxUs ← samples[(count - 1).toNat]?
  let medianUs ← samples[(count / 2).toNat]?
  let meanUs := (total / count.toUInt64).toUInt32
  -- nearest-rank p95
  let rank := (count * 95 + 99) / 100
  let rank := if rank = 0 then 1 else rank
  let p95Us ← samples[(rank - 1).toNat]?
  return (samples, { out with minUs, maxUs, medianUs, meanUs, p95Us, samples := count })

end GekkoPak
