import GekkoPak.Basis.Bits
import GekkoPak.Basis.Counter
import GekkoPak.DsTest.Bench

/-!
# `DsTest.Correctness.Ticks` — one clock out of two timers

The pair of timers is one counter: started by `gpk_timer_init` it shows, `t` periods later, the two halves of `t`
(`tick_iterate`). `gpk_ticks` reads the halves one after the other while the counter runs, and what it returns is the
counter as it stood at one of the reads (`ticks_eq`): the low half is read again, and when it went backwards the carry
fell before that second reading, so the high half read after it belongs to it.
-/

namespace GekkoPak

open Basis

/-! ## The pair is a counter -/

/-- What the running timers show when the counter stands at `t`. -/
def Timers.showing (t : Nat) : Timers :=
  { running := true, data0 := UInt16.ofNat t, data1 := UInt16.ofNat (t / 65536) }

theorem gpkTimerInit_eq (timers : Timers) : gpkTimerInit timers = Timers.showing 0 := rfl

/-- One period is one count: timer 1 takes the carry of timer 0. -/
theorem tick_showing (t : Nat) : (Timers.showing t).tick = Timers.showing (t + 1) := by
  have hlow : UInt16.ofNat t + 1 = UInt16.ofNat (t + 1) := by
    apply UInt16.toNat_inj.mp
    simp
  have htop : UInt16.ofNat t = 0xFFFF ↔ t % 65536 = 65535 := by
    rw [← UInt16.toNat_inj, UInt16.toNat_ofNat']
    rfl
  have hhigh : (if UInt16.ofNat t = 0xFFFF then UInt16.ofNat (t / 65536) + 1 else UInt16.ofNat (t / 65536)) =
      UInt16.ofNat ((t + 1) / 65536) := by
    by_cases h : t % 65536 = 65535
    · have hcarry : (t + 1) / 65536 = t / 65536 + 1 := by omega
      rw [if_pos (htop.mpr h), hcarry]
      apply UInt16.toNat_inj.mp
      simp
    · have hstay : (t + 1) / 65536 = t / 65536 := by omega
      rw [if_neg (htop.not.mpr h), hstay]
  simp only [Timers.tick, Timers.showing, if_true, hlow]
  exact congrArg (Timers.mk true (UInt16.ofNat (t + 1))) hhigh

/-- `t` periods after `gpk_timer_init` the counter stands at `t`. -/
theorem tick_iterate (timers : Timers) (t : Nat) : Timers.tick^[t] (gpkTimerInit timers) = Timers.showing t := by
  induction t with
  | zero => exact gpkTimerInit_eq timers
  | succ t ih => rw [Function.iterate_succ_apply', ih, tick_showing]

/-! ## One call -/

/-- Where the counter stands at the four reads of one call: in order, and less than one turn of timer 0 apart. -/
structure Sampling where
  t0   : Nat
  t1   : Nat
  t2   : Nat
  t3   : Nat
  le01 : t0 ≤ t1
  le12 : t1 ≤ t2
  le23 : t2 ≤ t3
  span_lt : t3 - t0 < 65536

namespace Sampling

/-- What the call returns. -/
def ticks (s : Sampling) : UInt32 :=
  gpkTicks (Timers.showing s.t0) (Timers.showing s.t1) (Timers.showing s.t2) (Timers.showing s.t3)

/-- The ticks that go by during the call. -/
def span (s : Sampling) : Nat := s.t3 - s.t0

/-- `lo2 < lo`. -/
def CarrySeen (s : Sampling) : Prop := (Timers.showing s.t2).data0 < (Timers.showing s.t0).data0

instance (s : Sampling) : Decidable s.CarrySeen := inferInstanceAs (Decidable (_ < _))

/-- The read whose moment the call reports. -/
def moment (s : Sampling) : Nat := if s.CarrySeen then s.t2 else s.t0

/-- A value the counter takes during the call. -/
def Moment (s : Sampling) : Type := { t : Nat // s.t0 ≤ t ∧ t ≤ s.t3 }

theorem carrySeen_iff (s : Sampling) : s.CarrySeen ↔ s.t2 % 65536 < s.t0 % 65536 := by
  rw [CarrySeen, UInt16.lt_iff_toNat_lt]
  simp [Timers.showing]

theorem moment_bounds (s : Sampling) : s.t0 ≤ s.moment ∧ s.moment ≤ s.t3 := by
  have h01 := s.le01
  have h12 := s.le12
  have h23 := s.le23
  rw [moment]
  split <;> omega

/-- The two halves joined in a word. -/
theorem join_toNat (t u : Nat) :
    ((Timers.showing t).data1.toUInt32 <<< 16 ||| (Timers.showing u).data0.toUInt32).toNat =
      t / 65536 % 65536 * 65536 + u % 65536 := by
  have hhigh : (UInt16.ofNat (t / 65536)).toUInt32.toNat = t / 65536 % 65536 := by simp
  have hlow : (UInt16.ofNat u).toUInt32.toNat = u % 65536 := by simp
  have h16 : (16 : UInt32).toNat % 32 = 16 := rfl
  have hshift : (t / 65536 % 65536) <<< 16 < 2 ^ 32 := by
    rw [Nat.shiftLeft_eq]
    omega
  rw [Timers.showing, Timers.showing, UInt32.toNat_or, UInt32.toNat_shiftLeft, h16, hhigh, hlow,
    Nat.mod_eq_of_lt hshift]
  exact shiftLeft_or_of_lt _ (Nat.mod_lt u (by decide))

/-- Halves of one turn join to the counter. -/
theorem join_of_turn {t u : Nat} (h : t / 65536 = u / 65536) :
    ((Timers.showing t).data1.toUInt32 <<< 16 ||| (Timers.showing u).data0.toUInt32).toNat = u % 2 ^ 32 := by
  rw [join_toNat, h]
  omega

/-- A call returns the counter as it stood at `moment`. -/
theorem ticks_eq (s : Sampling) : s.ticks.toNat = s.moment % 2 ^ 32 := by
  have h02 : s.t0 ≤ s.t2 := Nat.le_trans s.le01 s.le12
  have h03 : s.t0 ≤ s.t3 := Nat.le_trans h02 s.le23
  have hspan : s.t3 < s.t0 + 65536 := by
    have h := s.span_lt
    omega
  have hspan2 : s.t2 < s.t0 + 65536 := Nat.lt_of_le_of_lt s.le23 hspan
  have htest : (Timers.showing s.t2).data0.toUInt32 < (Timers.showing s.t0).data0.toUInt32 ↔ s.CarrySeen := by
    rw [CarrySeen, UInt32.lt_iff_toNat_lt, UInt16.lt_iff_toNat_lt, UInt16.toNat_toUInt32, UInt16.toNat_toUInt32]
  rw [ticks, gpkTicks, moment]
  by_cases hcarry : s.CarrySeen
  · -- the carry fell before the second reading of the low half
    rw [if_pos (htest.mpr hcarry), if_pos hcarry]
    exact join_of_turn (div_eq_of_carry (by decide) h02 s.le23 hspan (s.carrySeen_iff.mp hcarry))
  · -- no carry: one turn from the first read to the third
    rw [if_neg (htest.not.mpr hcarry), if_neg hcarry]
    have hsame := (div_eq_iff_mod_le h02 hspan2).mpr (Nat.le_of_not_lt (s.carrySeen_iff.not.mp hcarry))
    exact join_of_turn (div_eq_between s.le01 s.le12 hsame)

end Sampling

/-! ## Two calls -/

/-- The wrapped difference of two readings. -/
theorem toNat_sub_mod {x y : UInt32} {m n : Nat} (hx : x.toNat = m % 2 ^ 32) (hy : y.toNat = n % 2 ^ 32) :
    ((y - x).toNat : Int) = ((n : Int) - m) % 2 ^ 32 := by
  have hsub : (y - x).toNat = (2 ^ 32 - x.toNat + y.toNat) % 2 ^ 32 := UInt32.toNat_sub y x
  have hlt : x.toNat < 2 ^ 32 := x.toNat_lt
  omega

/-- Less than a whole turn of the 32-bit count apart, the difference of two calls is the ticks between their moments. -/
theorem ticks_sub_toNat {s u : Sampling} (hafter : s.moment ≤ u.moment) (hshort : u.moment < s.moment + 2 ^ 32) :
    (u.ticks - s.ticks).toNat = u.moment - s.moment := by
  have hwrapped := toNat_sub_mod s.ticks_eq u.ticks_eq
  omega

/-- **Tear freedom.** A call of `gpk_ticks` returns the counter modulo `2 ^ 32` as it stood at its first read, or, when a
    carry was seen, at its third. The modular difference of two calls is so the ticks between any moment of the one and
    any moment of the other, up to the two calls' spans. -/
theorem gpk_ticks_never_tears (s u : Sampling) (p : s.Moment) (q : u.Moment) :
    s.ticks.toNat = (if s.CarrySeen then s.t2 else s.t0) % 2 ^ 32 ∧
      ∃ error : Int, error.natAbs ≤ s.span + u.span ∧
        ((u.ticks - s.ticks).toNat : Int) = ((q.1 : Int) - p.1 + error) % 2 ^ 32 := by
  refine ⟨s.ticks_eq, ((u.moment : Int) - q.1) - ((s.moment : Int) - p.1), ?_, ?_⟩
  · have hs := s.moment_bounds
    have hu := u.moment_bounds
    have hp := p.2
    have hq := q.2
    rw [Sampling.span, Sampling.span]
    omega
  · rw [toNat_sub_mod s.ticks_eq u.ticks_eq]
    congr 1
    omega

/-- A call during which timer 0 turns over, between its first read and its third. -/
def carrying : Sampling where
  t0 := 65534
  t1 := 65535
  t2 := 65537
  t3 := 65538
  le01 := by decide
  le12 := by decide
  le23 := by decide
  span_lt := by decide

/-- A call during which the whole 32-bit count turns over. -/
def turning : Sampling where
  t0 := 2 ^ 32 - 1
  t1 := 2 ^ 32
  t2 := 2 ^ 32 + 1
  t3 := 2 ^ 32 + 2
  le01 := by decide
  le12 := by decide
  le23 := by decide
  span_lt := by decide

/-- Both see the carry and report their third read; the difference is right up to the seven ticks of the two calls. -/
theorem gpk_ticks_never_tears_carry :
    carrying.CarrySeen ∧ carrying.ticks.toNat = 65537 ∧ turning.ticks.toNat = 1 ∧
      ∃ error : Int, error.natAbs ≤ 7 ∧
        ((turning.ticks - carrying.ticks).toNat : Int) = ((2 ^ 32 : Int) - 65536 + error) % 2 ^ 32 := by
  have hcarry : carrying.CarrySeen := by decide
  have hturn : turning.CarrySeen := by decide
  obtain ⟨hticks, error, herror, hdiff⟩ := gpk_ticks_never_tears carrying turning ⟨65536, by decide⟩ ⟨2 ^ 32, by decide⟩
  obtain ⟨hticks', -⟩ := gpk_ticks_never_tears turning turning ⟨2 ^ 32, by decide⟩ ⟨2 ^ 32, by decide⟩
  rw [if_pos hcarry] at hticks
  rw [if_pos hturn] at hticks'
  exact ⟨hcarry, hticks, hticks', error, herror, hdiff⟩

end GekkoPak
