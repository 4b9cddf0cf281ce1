import GekkoPak.Device.Correctness.Timing

/-!
# `Device.Correctness.Sharing` — a batch shares one round trip

The round trip of a block is charged to its descriptors in equal shares, rounded to nearest, and goes from there into
the modeled time and the speedup of each. Three roundings follow each other; each is monotone in the right direction
(`roundDiv_antitone` for the share, `roundDiv_mono` for the time), as long as no sum on the way leaves 32 bits, for any
timing model.
-/

namespace GekkoPak

open Basis

namespace Device

variable {s t : Device}

/-! ## The share -/

/-- The round trip of a block: three commands, and 1028 bytes on the bus. -/
def roundTripNs (s : Device) : Nat := 3 * s.config.timing.commandLatencyNs.toNat + (s.transferNs 1028).toNat

theorem blockTransportNs_toNat (h : s.roundTripNs < 2 ^ 32) : s.blockTransportNs.toNat = s.roundTripNs := by
  have hbytes : s.blockTransportNs = 3 * s.config.timing.commandLatencyNs + s.transferNs 1028 := rfl
  unfold roundTripNs at h ⊢
  rw [hbytes, UInt32.toNat_add, UInt32.toNat_mul, show (3 : UInt32).toNat = 3 from rfl]
  omega

/-- What a job of a batch of `n` is charged. -/
def shareOf (s : Device) (n : Nat) : UInt32 := s.transportShare (UInt32.ofNat n)

theorem shareOf_toNat {n : Nat} (hn : n ≤ 9) (hfits : s.roundTripNs + n / 2 < 2 ^ 32) :
    (s.shareOf n).toNat = roundDiv s.roundTripNs n := by
  have hblock : s.blockTransportNs.toNat = s.roundTripNs := blockTransportNs_toNat (by omega)
  rw [shareOf, transportShare_round (by omega) (by omega), hblock]

/-! ## The record of one descriptor -/

/-- A descriptor is accepted, and its record has the time and the speedup; or it is refused, and its record has
    neither. The job counter tells which. -/
theorem descriptor_time {batchSize share : UInt32} {p : ParsedDescriptor} {r : CompletionRecordV1}
    (hd : DescriptorStep s batchSize share p t r) :
    (t.nextJob = s.nextJob + 1 ∧ r.modeledUs = nsToUs (s.computeNs p.desc.workUnits + share) ∧
        r.speedupX1000 = speedup p.desc.arg0 r.modeledUs) ∨
      (t.nextJob = s.nextJob ∧ r.modeledUs = 0 ∧ r.speedupX1000 = 0) := by
  have hnext : ∀ i, (s.staged i p).nextJob = s.nextJob := by
    intro i
    unfold staged
    cases p.input <;> rfl
  have hcompute : ∀ i, (s.staged i p).computeNs p.desc.workUnits = s.computeNs p.desc.workUnits := by
    intro i
    simp only [computeNs, staged_config]
  cases hd with
  | badInput | notUploaded => exact Or.inr ⟨rfl, rfl, rfl⟩
  | badOutput i | noSlot i => exact Or.inr ⟨hnext i, rfl, rfl⟩
  | accepted i slot =>
    refine Or.inl ⟨congrArg (· + 1) (hnext i), ?_, rfl⟩
    show nsToUs ((s.staged i p).computeNs p.desc.workUnits + share) = _
    rw [hcompute]

/-- The record a descriptor of a batch of `n` leaves in the history. -/
theorem processDescriptor_time (s : Device) (n : Nat) (p : ParsedDescriptor) :
    ∃ r, produced (s.processDescriptor (UInt32.ofNat n) (s.shareOf n) p).1.trace = produced s.trace ++ [r] ∧
      (((s.processDescriptor (UInt32.ofNat n) (s.shareOf n) p).1.nextJob = s.nextJob + 1 ∧
          r.modeledUs = nsToUs (s.computeNs p.desc.workUnits + s.shareOf n) ∧
          r.speedupX1000 = speedup p.desc.arg0 r.modeledUs) ∨
        ((s.processDescriptor (UInt32.ofNat n) (s.shareOf n) p).1.nextJob = s.nextJob ∧ r.modeledUs = 0 ∧
          r.speedupX1000 = 0)) := by
  obtain ⟨t, r, hd, heq⟩ := s.processDescriptor_step (UInt32.ofNat n) (s.shareOf n) p
  refine ⟨r, ?_, ?_⟩
  · rw [heq, pushCompletion_produced, (descriptor_queue hd).2.1]
  · rw [heq]
    have hnext : (t.pushCompletion r).1.nextJob = t.nextJob := rfl
    rw [hnext]
    exact descriptor_time hd

/-! ## One more in the batch -/

/-- The modeled time, with a sum that fits. -/
theorem blockUs_toNat {work share : UInt32} (hfits : (s.computeNs work).toNat + share.toNat + 500 < 2 ^ 32) :
    (nsToUs (s.computeNs work + share)).toNat = roundDiv ((s.computeNs work).toNat + share.toNat) 1000 := by
  rw [nsToUs_toNat _ (UInt32.toNat_add _ _), roundMod_eq (by omega)]

/-- A smaller time makes no smaller speedup. -/
theorem speedup_antitone {softwareUs modeledUs modeledUs' : UInt32} (hle : modeledUs' ≤ modeledUs) (hpos : modeledUs' ≠ 0)
    (hfits : 1000 * softwareUs.toNat / modeledUs'.toNat < 2 ^ 32) :
    speedup softwareUs modeledUs ≤ speedup softwareUs modeledUs' := by
  have hnat : modeledUs'.toNat ≤ modeledUs.toNat := UInt32.le_iff_toNat_le.mp hle
  have hpos' : 0 < modeledUs'.toNat := Nat.pos_of_ne_zero (fun h => hpos (UInt32.toNat_inj.mp h))
  have hquot : 1000 * softwareUs.toNat / modeledUs.toNat ≤ 1000 * softwareUs.toNat / modeledUs'.toNat :=
    Nat.div_le_div_left hnat hpos'
  rw [UInt32.le_iff_toNat_le, speedup_toNat, speedup_toNat, Nat.mod_eq_of_lt hfits, Nat.mod_eq_of_lt (by omega)]
  exact hquot

/-- **Batch transport cost is shared fairly, and batching never looks slower.** For every device state and timing model
    whose round trip fits in 32 bits with room for the rounding, and every batch size `n` in 1..8: the shares add up to
    the round trip within half a nanosecond each; one more in the batch makes no share larger; and the same descriptor
    in the same state leaves a record with no larger time, and with no smaller speedup where both times are non-zero and
    the speedups fit. -/
theorem batch_share_fair (s : Device) {n : Nat} (hpos : 1 ≤ n) (hle : n ≤ 8)
    (hfits : s.roundTripNs + (n + 1) / 2 < 2 ^ 32) (p : ParsedDescriptor) :
    |(n : ℚ) * (s.shareOf n).toNat - s.roundTripNs| ≤ n / 2 ∧ s.shareOf (n + 1) ≤ s.shareOf n ∧
    ((s.computeNs p.desc.workUnits).toNat + s.roundTripNs + 500 < 2 ^ 32 →
      ∃ r r', produced (s.processDescriptor (UInt32.ofNat n) (s.shareOf n) p).1.trace = produced s.trace ++ [r] ∧
        produced (s.processDescriptor (UInt32.ofNat (n + 1)) (s.shareOf (n + 1)) p).1.trace = produced s.trace ++ [r'] ∧
        r'.modeledUs ≤ r.modeledUs ∧
        (r.modeledUs ≠ 0 → r'.modeledUs ≠ 0 → 1000 * p.desc.arg0.toNat / r.modeledUs.toNat < 2 ^ 32 →
          1000 * p.desc.arg0.toNat / r'.modeledUs.toNat < 2 ^ 32 → r.speedupX1000 ≤ r'.speedupX1000)) := by
  have hshare : (s.shareOf n).toNat = roundDiv s.roundTripNs n := shareOf_toNat (by omega) (by omega)
  have hshare' : (s.shareOf (n + 1)).toNat = roundDiv s.roundTripNs (n + 1) :=
    shareOf_toNat (by omega) hfits
  have hshares : (s.shareOf (n + 1)).toNat ≤ (s.shareOf n).toNat := by
    rw [hshare, hshare']
    exact roundDiv_antitone _ hpos
  refine ⟨?_, UInt32.le_iff_toNat_le.mpr hshares, fun htime => ?_⟩
  · rw [hshare]
    exact abs_mul_roundDiv_sub_le _ hpos
  · obtain ⟨r, hr, hcase⟩ := s.processDescriptor_time n p
    obtain ⟨r', hr', hcase'⟩ := s.processDescriptor_time (n + 1) p
    have hnext := ((Agree.refl s).processDescriptor (UInt32.ofNat n) (UInt32.ofNat (n + 1)) (s.shareOf n)
      (s.shareOf (n + 1)) p).nextJob
    have hmoved : s.nextJob + 1 ≠ s.nextJob := fun h => absurd (UInt32.add_eq_left.mp h) (by decide)
    refine ⟨r, r', hr, hr', ?_⟩
    -- the batch size decides nothing about acceptance
    rcases hcase with ⟨hjob, hus, hspeed⟩ | ⟨hjob, hus, hspeed⟩
    · rcases hcase' with ⟨-, hus', hspeed'⟩ | ⟨hjob', -, -⟩
      · have hround : (s.shareOf n).toNat ≤ s.roundTripNs := by
          rw [hshare]
          exact roundDiv_le _ hpos
        have hmodeled : r'.modeledUs ≤ r.modeledUs := by
          rw [hus, hus', UInt32.le_iff_toNat_le, blockUs_toNat (by omega), blockUs_toNat (by omega)]
          exact roundDiv_mono (by omega) 1000
        refine ⟨hmodeled, fun _ hpos' _ hspeedFits => ?_⟩
        rw [hspeed, hspeed']
        exact speedup_antitone hmodeled hpos' hspeedFits
      · exact absurd (hjob.symm.trans (hnext.trans hjob')) hmoved
    · rcases hcase' with ⟨hjob', -, -⟩ | ⟨-, hus', -⟩
      · exact absurd ((hjob.symm.trans (hnext.trans hjob')).symm) hmoved
      · rw [hus, hus']
        exact ⟨UInt32.le_refl 0, fun hne => absurd rfl hne⟩

/-- A descriptor with 16 us of work under the default timing, which software takes 3500 us for: 254 us alone, 135 us in
    a batch of two. -/
theorem batch_share_fair_two :
    let s := after { hasPool := true, poolBytes := 65536 } [.writeReg 0 16, .exec HighCommand.alloc.code 0]
    let p : ParsedDescriptor :=
      ⟨{ gpkBuildDescriptor 1 1 16 kDescriptorFlagInlineInput 1600 with arg0 := 3500 }, some (List.replicate 16 7)⟩
    ∃ r r' : CompletionRecordV1,
      produced (s.processDescriptor 1 (s.shareOf 1) p).1.trace = produced s.trace ++ [r] ∧
      produced (s.processDescriptor 2 (s.shareOf 2) p).1.trace = produced s.trace ++ [r'] ∧
      r.modeledUs = 254 ∧ r'.modeledUs = 135 ∧ r.speedupX1000 ≤ r'.speedupX1000 := by
  intro s p
  obtain ⟨r, r', hr, hr', -, hspeed⟩ :=
    (batch_share_fair s (n := 1) (by decide) (by decide) (by decide +kernel) p).2.2 (by decide +kernel)
  have hus : (produced (s.processDescriptor 1 (s.shareOf 1) p).1.trace).map CompletionRecordV1.modeledUs =
      (produced s.trace).map CompletionRecordV1.modeledUs ++ [254] := by decide +kernel
  have hus' : (produced (s.processDescriptor 2 (s.shareOf 2) p).1.trace).map CompletionRecordV1.modeledUs =
      (produced s.trace).map CompletionRecordV1.modeledUs ++ [135] := by decide +kernel
  have hone : r.modeledUs = 254 := by
    rw [show produced (s.processDescriptor 1 (s.shareOf 1) p).1.trace = _ from hr, List.map_append] at hus
    exact (List.cons.inj (List.append_cancel_left hus)).1
  have htwo : r'.modeledUs = 135 := by
    rw [show produced (s.processDescriptor 2 (s.shareOf 2) p).1.trace = _ from hr', List.map_append] at hus'
    exact (List.cons.inj (List.append_cancel_left hus')).1
  refine ⟨r, r', hr, hr', hone, htwo, ?_⟩
  rw [hone, htwo] at hspeed
  exact hspeed (by decide) (by decide) (by decide) (by decide)

end Device

end GekkoPak
