import GekkoPak.Basis.Round
import GekkoPak.Device.Correctness.Batch
import Mathlib.Tactic.NormNum

/-!
# `Device.Correctness.Timing` — the modeled times against exact arithmetic

Under the default timing model every division of the code is `Basis.roundDiv`, done in 64 bits, and every sum is kept
in 32 bits (`legacyModelUs_toNat`, `blockModelUs_toNat`: the modeled time is `Basis.roundMod` of a sum over the
naturals). So the times are right to the rounding as long as that sum fits, and wrong by at least four seconds from
there on.
-/

namespace GekkoPak

open Basis

/-! ## The model in exact arithmetic -/

/-- The nanoseconds of a legacy submission, each term rounded, nothing cut. -/
def legacyNs (uploaded work : Nat) : Nat :=
  25000 + roundDiv (uploaded * 1000000000) 6291456 + roundDiv (16 * 1000000000) 6291456 + 10 * work

/-- The microseconds of a legacy submission: latency, upload, answer, compute. -/
def legacyExactUs (uploaded work : Nat) : ℚ :=
  (25000 + uploaded * 10 ^ 9 / 6291456 + 16 * 10 ^ 9 / 6291456 + 10 * work) / 1000

/-- The nanoseconds of one block round trip. -/
def blockNs : Nat := 3 * 25000 + roundDiv (1028 * 1000000000) 6291456

/-- The time and the speedup reported for a job: within one of `exact`, and the whole quotient. -/
def ModeledExactly (exact : ℚ) (softwareUs modeledUs speedupX1000 : UInt32) : Prop :=
  |(modeledUs.toNat : ℚ) - exact| ≤ 1 ∧ speedupX1000.toNat = 1000 * softwareUs.toNat / modeledUs.toNat

/-- `ns` nanoseconds, plus the rounding, fit in 32 bits, and so does the speedup over them. -/
def TimeFits (ns : Nat) (softwareUs : UInt32) : Prop :=
  ns + 500 < 2 ^ 32 ∧ 1000 * softwareUs.toNat / roundDiv ns 1000 < 2 ^ 32

/-- The roundings of the single terms add up to one nanosecond at most. -/
theorem legacyNs_close (uploaded work : Nat) :
    |(legacyNs uploaded work : ℚ) / (1000 : Nat) - legacyExactUs uploaded work| ≤ 1 / 2 := by
  have hup := abs_roundDiv_sub_le (uploaded * 1000000000) (n := 6291456) (by decide)
  have hrx := abs_roundDiv_sub_le (16 * 1000000000) (n := 6291456) (by decide)
  unfold legacyNs legacyExactUs
  push_cast at hup hrx ⊢
  rw [abs_le] at hup hrx ⊢
  constructor <;> linarith [hup.1, hup.2, hrx.1, hrx.2]

namespace Device

/-! ## The words of the code as numbers -/

theorem scaledNs_toNat (x : UInt32) {rate : UInt32} (hrate : rate ≠ 0) :
    (scaledNs x rate).toNat = roundDiv (x.toNat * 1000000000) rate.toNat % 2 ^ 32 := by
  have hx := x.toNat_lt
  have hr := rate.toNat_lt
  unfold scaledNs roundDiv
  rw [if_neg hrate, UInt64.toNat_toUInt32, UInt64.toNat_div, UInt64.toNat_add, UInt64.toNat_mul,
    UInt32.toNat_toUInt64, UInt32.toNat_toUInt64, UInt32.toNat_toUInt64, UInt32.toNat_div,
    show (1000000000 : UInt64).toNat = 1000000000 from rfl, show (2 : UInt32).toNat = 2 from rfl,
    Nat.mod_eq_of_lt (show x.toNat * 1000000000 < 2 ^ 64 by omega),
    Nat.mod_eq_of_lt (show x.toNat * 1000000000 + rate.toNat / 2 < 2 ^ 64 by omega)]

theorem nsToUs_toNat (ns : UInt32) {n : Nat} (h : ns.toNat = n % 2 ^ 32) :
    (nsToUs ns).toNat = roundMod (2 ^ 32) n 1000 := by
  unfold nsToUs roundMod
  rw [UInt32.toNat_div, UInt32.toNat_add, h, show (500 : UInt32).toNat = 500 from rfl,
    show (1000 : UInt32).toNat = 1000 from rfl]
  omega

theorem speedup_toNat (softwareUs modeledUs : UInt32) :
    (speedup softwareUs modeledUs).toNat = 1000 * softwareUs.toNat / modeledUs.toNat % 2 ^ 32 := by
  have hsw := softwareUs.toNat_lt
  unfold speedup
  by_cases hzero : modeledUs = 0
  · rw [if_neg (not_not.mpr hzero), hzero]
    simp
  · rw [if_pos hzero, UInt64.toNat_toUInt32, UInt64.toNat_div, UInt64.toNat_mul, UInt32.toNat_toUInt64,
      UInt32.toNat_toUInt64, show (1000 : UInt64).toNat = 1000 from rfl,
      Nat.mod_eq_of_lt (show softwareUs.toNat * 1000 < 2 ^ 64 by omega), Nat.mul_comm]

/-- Each job's share of the round trip, for any timing model that leaves room for the rounding. -/
theorem transportShare_round {s : Device} {n : Nat} (hfits : s.blockTransportNs.toNat + n / 2 < 2 ^ 32)
    (hn : n < 2 ^ 32) : (s.transportShare (UInt32.ofNat n)).toNat = roundDiv s.blockTransportNs.toNat n := by
  have hword : (UInt32.ofNat n).toNat = n := UInt32.toNat_ofNat_of_lt' hn
  unfold transportShare roundDiv
  rw [UInt32.toNat_div, UInt32.toNat_add, UInt32.toNat_div, hword, show (2 : UInt32).toNat = 2 from rfl,
    Nat.mod_eq_of_lt hfits]

section Default

variable {s : Device} (htiming : s.config.timing = {})

include htiming

theorem transferNs_toNat (bytes : UInt32) :
    (s.transferNs bytes).toNat = roundDiv (bytes.toNat * 1000000000) 6291456 % 2 ^ 32 := by
  unfold transferNs
  rw [htiming]
  exact scaledNs_toNat bytes (by decide)

theorem computeNs_toNat (work : UInt32) : (s.computeNs work).toNat = 10 * work.toNat % 2 ^ 32 := by
  have hten : roundDiv (work.toNat * 1000000000) 100000000 = 10 * work.toNat := by
    unfold roundDiv
    omega
  unfold computeNs
  rw [htiming]
  rw [scaledNs_toNat work (by decide), show (100000000 : UInt32).toNat = 100000000 from rfl, hten]

/-- **The modeled time of SUBMIT.** -/
theorem legacyModelUs_toNat (uploaded work : UInt32) :
    (s.legacyModelUs uploaded 16 work).toNat = roundMod (2 ^ 32) (legacyNs uploaded.toNat work.toNat) 1000 := by
  unfold legacyModelUs
  refine nsToUs_toNat _ ?_
  rw [UInt32.toNat_add, UInt32.toNat_add, UInt32.toNat_add, transferNs_toNat htiming, transferNs_toNat htiming,
    computeNs_toNat htiming, htiming, show (25000 : UInt32).toNat = 25000 from rfl,
    show (16 : UInt32).toNat = 16 from rfl]
  unfold legacyNs
  omega

/-- **The modeled time of a descriptor.** -/
theorem blockModelUs_toNat (work share : UInt32) :
    (nsToUs (s.computeNs work + share)).toNat = roundMod (2 ^ 32) (10 * work.toNat + share.toNat) 1000 := by
  refine nsToUs_toNat _ ?_
  rw [UInt32.toNat_add, computeNs_toNat htiming]
  omega

theorem transportShare_toNat {n : Nat} (hle : n ≤ 8) :
    (s.transportShare (UInt32.ofNat n)).toNat = roundDiv blockNs n := by
  have hblock : s.blockTransportNs.toNat = blockNs := by
    unfold blockTransportNs
    rw [UInt32.toNat_add, UInt32.toNat_mul, transferNs_toNat htiming, htiming]
    rfl
  have hsmall : blockNs = 238396 := by decide
  rw [← hblock]
  exact transportShare_round (by omega) (by omega)

end Default

/-! ## When the numbers are right -/

/-- A time computed as `roundMod` of a sum close to `exact`, with its speedup. -/
theorem modeledExactly_iff {ns : Nat} {exact : ℚ} {softwareUs modeledUs speedupX1000 : UInt32}
    (hclose : |(ns : ℚ) / (1000 : Nat) - exact| ≤ 1 / 2) (hmodeled : modeledUs.toNat = roundMod (2 ^ 32) ns 1000)
    (hspeedup : speedupX1000 = speedup softwareUs modeledUs) :
    ModeledExactly exact softwareUs modeledUs speedupX1000 ↔ TimeFits ns softwareUs := by
  have htime : |(modeledUs.toNat : ℚ) - exact| ≤ 1 ↔ ns + 500 < 2 ^ 32 := by
    rw [hmodeled]
    exact abs_roundMod_sub_le_iff (n := 1000) (by decide) (by decide) hclose
  unfold ModeledExactly TimeFits
  rw [htime]
  refine and_congr_right (fun hfit => ?_)
  have hround : modeledUs.toNat = roundDiv ns 1000 := hmodeled.trans (roundMod_eq hfit)
  rw [hspeedup, speedup_toNat, hround]
  constructor
  · intro h
    rw [← h]
    exact Nat.mod_lt _ (by decide)
  · intro h
    exact Nat.mod_eq_of_lt h

theorem legacyNs_mono {u u' w w' : Nat} (hu : u ≤ u') (hw : w ≤ w') : legacyNs u w ≤ legacyNs u' w' := by
  have hround := roundDiv_mono (Nat.mul_le_mul_right 1000000000 hu) 6291456
  unfold legacyNs
  omega

section Default

variable {s : Device} (htiming : s.config.timing = {})

include htiming

/-- **The time of SUBMIT never decreases below some upload and some work iff it fits there.** -/
theorem legacyModelUs_mono_iff (uploaded work : UInt32) :
    (∀ u u' w w', u ≤ u' → u' ≤ uploaded → w ≤ w' → w' ≤ work →
      s.legacyModelUs u 16 w ≤ s.legacyModelUs u' 16 w') ↔ legacyNs uploaded.toNat work.toNat + 500 < 2 ^ 32 := by
  have hword : ∀ {n : Nat} {b : UInt32}, n ≤ b.toNat → (UInt32.ofNat n).toNat = n := by
    intro n b hn
    have hb := b.toNat_lt
    exact UInt32.toNat_ofNat_of_lt' (by simp only [UInt32.size]; omega)
  constructor
  · intro hmono
    simp only [UInt32.le_iff_toNat_le, legacyModelUs_toNat htiming] at hmono
    -- first along the uploads with no work, then along the work
    have hupload : legacyNs uploaded.toNat 0 + 500 < 2 ^ 32 := by
      refine (roundMod_mono_iff (f := fun k => legacyNs k 0) (n := 1000) (d := 159)
        (fun _ _ h => legacyNs_mono h (Nat.le_refl 0)) (by decide) ?_ (by decide)).mp ?_
      · intro k
        have hstep := roundDiv_succ_le k 1000000000 (d := 6291456) (k := 159) (by decide) (by decide)
        simp only [legacyNs]
        omega
      · intro j k hjk hk
        have h := hmono (UInt32.ofNat j) (UInt32.ofNat k) 0 0
        rw [hword (Nat.le_trans hjk hk), hword hk] at h
        exact h hjk hk (Nat.le_refl _) (Nat.zero_le _)
    refine (roundMod_mono_iff (f := fun k => legacyNs uploaded.toNat k) (n := 1000) (d := 10)
      (fun _ _ h => legacyNs_mono (Nat.le_refl _) h) hupload ?_ (by decide)).mp ?_
    · intro k
      simp only [legacyNs]
      omega
    · intro j k hjk hk
      have h := hmono uploaded uploaded (UInt32.ofNat j) (UInt32.ofNat k)
      rw [hword (Nat.le_trans hjk hk), hword hk] at h
      exact h (Nat.le_refl _) (Nat.le_refl _) hjk hk
  · intro hfit u u' w w' hu hu' hw hw'
    rw [UInt32.le_iff_toNat_le] at hu hu' hw hw' ⊢
    have hlow := legacyNs_mono hu hw
    have hhigh := legacyNs_mono hu' hw'
    rw [legacyModelUs_toNat htiming, legacyModelUs_toNat htiming, roundMod_eq (by omega), roundMod_eq (by omega)]
    exact roundDiv_mono hlow 1000

/-- **The time of a descriptor never decreases below some work iff it fits there.** -/
theorem blockModelUs_mono_iff {share : UInt32} (hshare : share.toNat + 500 < 2 ^ 32) (work : UInt32) :
    (∀ w w', w ≤ w' → w' ≤ work → nsToUs (s.computeNs w + share) ≤ nsToUs (s.computeNs w' + share)) ↔
      10 * work.toNat + share.toNat + 500 < 2 ^ 32 := by
  have hb := work.toNat_lt
  constructor
  · intro hmono
    simp only [UInt32.le_iff_toNat_le, blockModelUs_toNat htiming] at hmono
    refine (roundMod_mono_iff (f := fun k => 10 * k + share.toNat) (n := 1000) (d := 10) ?_ ?_ ?_ (by decide)).mp ?_
    · intro j k h
      simp only
      omega
    · omega
    · intro k
      omega
    · intro j k hjk hk
      have h := hmono (UInt32.ofNat j) (UInt32.ofNat k)
      rw [UInt32.toNat_ofNat_of_lt' (by simp only [UInt32.size]; omega),
        UInt32.toNat_ofNat_of_lt' (by simp only [UInt32.size]; omega)] at h
      exact h hjk hk
  · intro hfit w w' hw hw'
    rw [UInt32.le_iff_toNat_le] at hw hw' ⊢
    rw [blockModelUs_toNat htiming, blockModelUs_toNat htiming, roundMod_eq (by omega), roundMod_eq (by omega)]
    exact roundDiv_mono (by omega) 1000

end Default

/-- The record of one descriptor, as far as its time goes. -/
def TimedRight (n : Nat) (p : ParsedDescriptor) (r : CompletionRecordV1) : Prop :=
  r.transportUsX1000.toNat = roundDiv blockNs n ∧
  (r.status = Status.ok.code16 →
    (ModeledExactly ((10 * p.desc.workUnits.toNat + r.transportUsX1000.toNat) / 1000) p.desc.arg0 r.modeledUs
      r.speedupX1000 ↔ TimeFits (10 * p.desc.workUnits.toNat + roundDiv blockNs n) p.desc.arg0))

theorem descriptor_timed {s t : Device} (htiming : s.config.timing = {}) {n : Nat} {batchSize share : UInt32}
    (hshare : share.toNat = roundDiv blockNs n) {p : ParsedDescriptor} {r : CompletionRecordV1}
    (hd : DescriptorStep s batchSize share p t r) : TimedRight n p r := by
  cases hd with
  | badInput | notUploaded | badOutput | noSlot =>
    exact ⟨hshare, fun h => absurd (Status.code16_inj h) (by decide)⟩
  | accepted i slot =>
    refine ⟨hshare, fun _ => ?_⟩
    have hstaged : (s.staged i p).config.timing = {} := by rw [staged_config]; exact htiming
    refine modeledExactly_iff ?_ ?_ rfl
    · show |((10 * p.desc.workUnits.toNat + roundDiv blockNs n : Nat) : ℚ) / (1000 : Nat) -
        (10 * p.desc.workUnits.toNat + share.toNat) / 1000| ≤ 1 / 2
      rw [← hshare]
      push_cast
      rw [sub_self, abs_zero]
      norm_num
    · rw [← hshare]
      exact blockModelUs_toNat hstaged p.desc.workUnits share

/-- The records of a block, each with the time of its descriptor. -/
theorem runBlock_timed {s : Device} (htiming : s.config.timing = {}) {parsed : List ParsedDescriptor}
    (hle : parsed.length ≤ 8) :
    ∃ rs, produced (s.runBlock parsed).1.trace = produced s.trace ++ rs ∧
      List.Forall₂ (TimedRight parsed.length) parsed rs := by
  have hshare := transportShare_toNat htiming hle
  have hrun : (s.runBlock parsed).1.config.timing = {} ∧
      ∃ rs, produced (s.runBlock parsed).1.trace = produced s.trace ++ rs ∧
        List.Forall₂ (TimedRight parsed.length) parsed rs := by
    refine processDescriptors_run
      (I := fun done t _ => t.config.timing = {} ∧ ∃ rs, produced t.trace = produced s.trace ++ rs ∧
        List.Forall₂ (TimedRight parsed.length) done rs)
      ?_ ⟨htiming, [], (List.append_nil _).symm, List.Forall₂.nil⟩
    rintro done p - t dropped u r ⟨ht, rs, hprod, hall⟩ hd
    refine ⟨?_, rs ++ [r], ?_, ?_⟩
    · rw [pushCompletion_config, descriptor_config hd]
      exact ht
    · rw [pushCompletion_produced, (descriptor_queue hd).2.1, hprod, List.append_assoc]
    · exact List.rel_append hall (List.Forall₂.cons (descriptor_timed ht hshare hd) List.Forall₂.nil)
  exact hrun.2

/-- **When the modeled numbers are exact.** Under the default timing model, after every run: the time and speedup of
    an accepted SUBMIT, and those in the `kOk` record of every descriptor of an F4, are within one of the exact value
    and the whole quotient iff they fit in 32 bits; and below a given upload and work the times never decrease iff the
    time at that point fits. -/
theorem modeled_time_iff (config : Config) (htiming : config.timing = {}) (ops : List WireOp) :
    let s := after config ops
    (∀ sequence, (s.exec HighCommand.submit.code sequence).stage kResult = Status.ok.code →
      ∃ i job, s.allocationForHandle (s.stage kArg0) = some i ∧
        issuedJobs (s.exec HighCommand.submit.code sequence).trace = issuedJobs s.trace ++ [job] ∧
        (s.exec HighCommand.submit.code sequence).stage kOut1 = job.modeledUs ∧
        (ModeledExactly (legacyExactUs (s.allocations i).uploaded.toNat (s.stage kArg2).toNat) (s.stage kArg3)
            job.modeledUs job.speedupX1000 ↔
          TimeFits (legacyNs (s.allocations i).uploaded.toNat (s.stage kArg2).toNat) (s.stage kArg3))) ∧
    (∀ op parsed, Submits parsed op →
      ∃ rs, produced (s.step op).1.trace = produced s.trace ++ rs ∧
        List.Forall₂ (TimedRight parsed.length) parsed rs) ∧
    (∀ uploaded work,
      (∀ u u' w w', u ≤ u' → u' ≤ uploaded → w ≤ w' → w' ≤ work →
        s.legacyModelUs u 16 w ≤ s.legacyModelUs u' 16 w') ↔ legacyNs uploaded.toNat work.toNat + 500 < 2 ^ 32) ∧
    (∀ n work, 0 < n → n ≤ 8 →
      ((∀ w w', w ≤ w' → w' ≤ work → nsToUs (s.computeNs w + s.transportShare (UInt32.ofNat n)) ≤
          nsToUs (s.computeNs w' + s.transportShare (UInt32.ofNat n))) ↔
        10 * work.toNat + roundDiv blockNs n + 500 < 2 ^ 32)) := by
  intro s
  have ht : s.config.timing = {} := by
    show (after config ops).config.timing = {}
    rw [after_config]
    exact htiming
  refine ⟨?_, ?_, fun uploaded work => legacyModelUs_mono_iff ht uploaded work, ?_⟩
  · intro sequence hok
    have hstep := exec_step s HighCommand.submit.code sequence
    rw [HighCommand.ofCode_code] at hstep
    generalize s.exec HighCommand.submit.code sequence = t at hstep hok ⊢
    cases hstep with
    | refused st hst => exact absurd (Status.code_inj hok) hst
    | submitted i slot hslot hfree =>
      refine ⟨i, s.submitJob i, hslot, ?_, rfl, ?_⟩
      · show issuedJobs ((s.trace ++ [.access _ _ _]) ++ [.issued (s.submitJob i)]) = _
        rw [issuedJobs_issued, issuedJobs_access]
      · exact modeledExactly_iff (legacyNs_close _ _) (legacyModelUs_toNat ht _ _) rfl
  · intro op parsed hop
    obtain ⟨st, hst⟩ := step_submits hop s
    rw [hst]
    exact runBlock_timed ht hop.length_le
  · intro n work _ hle
    have hshare := transportShare_toNat ht hle
    have hsmall : roundDiv blockNs n ≤ blockNs + 4 := by
      refine Nat.le_trans (Nat.div_le_self _ _) ?_
      omega
    have hblock : blockNs = 238396 := by decide
    rw [← hshare]
    exact blockModelUs_mono_iff ht (by omega) work

/-- The benchmark's numbers: sixteen operations that take 3500 us in software. -/
theorem modeled_time_benchmark :
    let config : Config := { hasPool := true, poolBytes := 65536 }
    let ops : List WireOp := [.writeReg 0 16, .exec HighCommand.alloc.code 0, .writeReg 0 1, .writeReg 2 16,
      .writeReg 3 3500]
    ∃ job, issuedJobs ((after config ops).exec HighCommand.submit.code 0).trace = [job] ∧
      ModeledExactly (legacyExactUs 0 16) 3500 job.modeledUs job.speedupX1000 := by
  intro config ops
  obtain ⟨i, job, hslot, hissued, -, hiff⟩ := (modeled_time_iff config rfl ops).1 0 (by decide +kernel)
  have hone : (after config ops).allocationForHandle ((after config ops).stage kArg0) = some 0 := by decide +kernel
  obtain rfl := Option.some.inj (hslot.symm.trans hone)
  have hnone : issuedJobs (after config ops).trace = [] := by decide +kernel
  have hup : ((after config ops).allocations 0).uploaded.toNat = 0 := by decide +kernel
  have hwork : ((after config ops).stage kArg2).toNat = 16 := by decide +kernel
  have hsoftware : (after config ops).stage kArg3 = 3500 := by decide +kernel
  rw [hnone] at hissued
  rw [hup, hwork, hsoftware] at hiff
  refine ⟨job, hissued, hiff.mpr ?_⟩
  constructor <;> decide +kernel

/-- Work for 4.3 modeled seconds: SUBMIT reports 28 us. -/
theorem modeled_time_wraps :
    let config : Config := { hasPool := true, poolBytes := 65536 }
    let ops : List WireOp := [.writeReg 0 16, .exec HighCommand.alloc.code 0, .writeReg 0 1, .writeReg 2 429496730]
    let t := (after config ops).exec HighCommand.submit.code 0
    t.stage kResult = Status.ok.code ∧ t.stage kOut1 = 28 ∧
      ¬ |((t.stage kOut1).toNat : ℚ) - legacyExactUs 0 429496730| ≤ 1 := by
  intro config ops t
  have hout : t.stage kOut1 = 28 := by decide +kernel
  refine ⟨by decide +kernel, hout, ?_⟩
  rw [hout, show (28 : UInt32).toNat = 28 from rfl]
  norm_num [legacyExactUs, abs_le]

end Device

end GekkoPak
