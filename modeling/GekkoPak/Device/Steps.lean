import GekkoPak.Device.Machine
import Mathlib.Data.Fintype.Basic
import Mathlib.Tactic.FinCases

/-!
# `Device.Steps` — what one F1 can do

Invariants of the device are proved from the inversion lemma `exec_step` and never by unfolding `exec`
again: an F1 either refuses, and then only RESULT and the outputs move, or does the one thing its command is
for (`ExecStep`). `Device.BlockSteps` does the same for F4 and F5.
-/

namespace GekkoPak

open Basis

namespace Device

/-! ## Reporting -/

/-- `s` with RESULT and OUT0-OUT3 as given, every other register as it was. -/
def report (s : Device) (status : Status) (v0 v1 v2 v3 : UInt32) : Device :=
  { s with
    stage := fun r =>
      if r = kResult then status.code
      else if r = kOut0 then v0
      else if r = kOut1 then v1
      else if r = kOut2 then v2
      else if r = kOut3 then v3
      else s.stage r }

section Report

variable (s : Device) (st : Status) (a b c d v : UInt32)

/-- `Exec` starts from `kOk` and cleared outputs. -/
theorem clearOutputs_eq : s.clearOutputs = s.report .ok 0 0 0 0 := by
  simp only [clearOutputs, setStage, report]
  congr 1
  funext r
  fin_cases r <;> rfl

/-- Assigning RESULT replaces the status. -/
theorem setResult_report (st' : Status) : (s.report st a b c d).setResult st' = s.report st' a b c d := by
  simp only [setResult, setStage, report]
  congr 1
  funext r
  fin_cases r <;> rfl

/-- Assigning an output replaces its value. -/
theorem setOut_report :
    (s.report st a b c d).setStage kOut0 v = s.report st v b c d ∧
    (s.report st a b c d).setStage kOut1 v = s.report st a v c d ∧
    (s.report st a b c d).setStage kOut2 v = s.report st a b v d ∧
    (s.report st a b c d).setStage kOut3 v = s.report st a b c v := by
  simp only [setStage, report]
  refine ⟨?_, ?_, ?_, ?_⟩ <;>
  · congr 1
    funext r
    fin_cases r <;> rfl

/-- Most commands assign OUT0 and OUT1, over the cleared outputs. -/
theorem setOuts_report : ((s.report st 0 0 0 0).setStage kOut0 a).setStage kOut1 b = s.report st a b 0 0 := by
  rw [(setOut_report s st 0 0 0 0 a).1, (setOut_report s st a 0 0 0 b).2.1]

end Report

/-! ## The allocator -/

/-- **What `Allocate` can do**: fail without a trace, or fill the first free slot with the offset its search
    found. -/
theorem allocate_cases (s : Device) (bytes : UInt32) :
    s.allocate bytes = (s, 0) ∨
    ∃ slot c, bytes ≠ 0 ∧ bytes ≤ s.config.poolBytes ∧ alignUp4 bytes ≤ s.config.poolBytes ∧
      firstSlot (fun i => !(s.allocations i).live) = some slot ∧
      search s.allocations s.config.poolBytes (alignUp4 bytes) searchFuel 0 = some (some c) ∧
      s.allocate bytes =
        (s.setAllocation slot ⟨c, alignUp4 bytes, 0, true⟩, UInt32.ofNat (slot.val + 1)) := by
  unfold allocate
  by_cases h1 : bytes = 0 ∨ bytes > s.config.poolBytes ∨ !s.config.hasPool
  · rw [if_pos h1]; exact Or.inl rfl
  rw [if_neg h1]
  obtain ⟨hne, hle, -⟩ : bytes ≠ 0 ∧ bytes ≤ s.config.poolBytes ∧ s.config.hasPool = true := by
    simpa [not_or] using h1
  by_cases h2 : alignUp4 bytes > s.config.poolBytes
  · rw [if_pos h2]; exact Or.inl rfl
  rw [if_neg h2]
  cases hslot : firstSlot (fun i => !(s.allocations i).live) with
  | none => exact Or.inl rfl
  | some slot =>
    cases hsearch : search s.allocations s.config.poolBytes (alignUp4 bytes) searchFuel 0 with
    | none => exact Or.inl rfl
    | some found =>
      cases found with
      | none => exact Or.inl rfl
      | some c => exact Or.inr ⟨slot, c, hne, hle, UInt32.not_lt.mp h2, rfl, rfl, rfl⟩

/-- The handle of a slot, as a number. -/
theorem slotHandle_toNat (i : Fin kMaxAllocations) : (UInt32.ofNat (i.val + 1)).toNat = i.val + 1 := by
  have hi : i.val < 16 := i.isLt
  exact UInt32.toNat_ofNat_of_lt' (by simp only [UInt32.size]; omega)

/-- The handle of a slot leads back to the slot, if it is live. -/
theorem allocationForHandle_slot (s : Device) (i : Fin kMaxAllocations) :
    s.allocationForHandle (UInt32.ofNat (i.val + 1)) = if (s.allocations i).live then some i else none := by
  have hi : i.val < 16 := i.isLt
  unfold allocationForHandle
  rw [dif_neg]
  · simp only [slotHandle_toNat, Nat.add_sub_cancel]
  · rintro (h | h)
    · have hz := congrArg UInt32.toNat h
      rw [slotHandle_toNat] at hz
      simp at hz
    · rw [slotHandle_toNat] at h
      omega

/-- **A handle that resolves is its slot's number plus one**, and the slot is live. -/
theorem allocationForHandle_some {s : Device} {handle : UInt32} {i : Fin kMaxAllocations}
    (h : s.allocationForHandle handle = some i) :
    handle = UInt32.ofNat (i.val + 1) ∧ (s.allocations i).live = true := by
  unfold allocationForHandle at h
  split at h
  · cases h
  · rename_i hh
    simp only at h
    split at h
    · rename_i hl
      have hi : handle.toNat - 1 = i.val := congrArg Fin.val (Option.some.inj h)
      have h0 : handle.toNat ≠ 0 := fun h0 => hh (Or.inl (UInt32.toNat_inj.mp h0))
      constructor
      · apply UInt32.toNat_inj.mp
        rw [slotHandle_toNat]
        omega
      · rw [← Option.some.inj h]; exact hl
    · cases h

/-! ## F1 -/

/-- The pool and table after an accepted UPLOAD into slot `i`. -/
def uploadInto (s : Device) (i : Fin kMaxAllocations) : Device :=
  let a := s.allocations i
  let uploaded := max32 a.uploaded (s.stage kArg1 + s.stage kPayloadLen)
  (((s.poolCopy (s.stage kArg0) (a.offset.toNat + (s.stage kArg1).toNat)
      (s.payload.read 0 (s.stage kPayloadLen).toNat)).setAllocation i { a with uploaded := uploaded }).poolHash
    (s.stage kArg0) a.offset.toNat uploaded.toNat).1

/-- The job an accepted SUBMIT on slot `i` creates. -/
def submitJob (s : Device) (i : Fin kMaxAllocations) : Job :=
  let a := s.allocations i
  let modeledUs := s.legacyModelUs a.uploaded 16 (s.stage kArg2)
  { allocation := s.stage kArg0
    modeledUs := modeledUs
    speedupX1000 := speedup (s.stage kArg3) modeledUs
    checksum := fnv1a (s.pool.read a.offset.toNat a.uploaded.toNat)
    softwareUs := s.stage kArg3
    pollsRemaining := 2
    ready := false
    live := true
    handle := s.nextJob }

/-- **Everything an F1 can do.** Either it refuses, or it does the one thing its command is for; in every
    case RESULT and the outputs are as reported and the other registers are as they were. -/
inductive ExecStep (s : Device) : Option HighCommand → Device → Prop
  | refused {c} (st : Status) (hst : st ≠ .ok) : ExecStep s c (s.report st 0 0 0 0)
  | hello (v0 v1 v2 v3 : UInt32) : ExecStep s (some .hello) (s.report .ok v0 v1 v2 v3)
  | getCaps (v0 v1 v2 v3 : UInt32) : ExecStep s (some .getCaps) (s.report .ok v0 v1 v2 v3)
  | allocated (slot : Fin kMaxAllocations) (c : UInt32)
      (hne : s.stage kArg0 ≠ 0) (hle : s.stage kArg0 ≤ s.config.poolBytes)
      (hfit : alignUp4 (s.stage kArg0) ≤ s.config.poolBytes)
      (hslot : firstSlot (fun i => !(s.allocations i).live) = some slot)
      (hsearch : search s.allocations s.config.poolBytes (alignUp4 (s.stage kArg0)) searchFuel 0
        = some (some c)) :
      ExecStep s (some .alloc)
        ((s.setAllocation slot ⟨c, alignUp4 (s.stage kArg0), 0, true⟩).report .ok
          (UInt32.ofNat (slot.val + 1)) (alignUp4 (s.stage kArg0)) 0 0)
  | uploaded (i : Fin kMaxAllocations) (checksum : UInt32)
      (hslot : s.allocationForHandle (s.stage kArg0) = some i)
      (hlen : (s.stage kPayloadLen).toNat ≤ kPayloadBytes)
      (hoff : s.stage kArg1 ≤ (s.allocations i).size)
      (hfit : s.stage kPayloadLen ≤ (s.allocations i).size - s.stage kArg1) :
      ExecStep s (some .upload) ((s.uploadInto i).report .ok (s.stage kPayloadLen) checksum 0 0)
  | submitted (i : Fin kMaxAllocations) (slot : Fin kMaxJobs)
      (hslot : s.allocationForHandle (s.stage kArg0) = some i) (hfree : s.freeJobSlot = some slot) :
      ExecStep s (some .submit)
        (((s.poolHash (s.stage kArg0) (s.allocations i).offset.toNat (s.allocations i).uploaded.toNat).1.issueJob
          slot (s.submitJob i)).report .ok s.nextJob (s.submitJob i).modeledUs 0 0)
  | polled (i : Fin kMaxJobs) (hjob : s.jobForHandle (s.stage kArg0) = some i) :
      ExecStep s (some .poll)
        ((s.setJob i (s.jobs i).poll).report .ok (if (s.jobs i).poll.ready then 1 else 0)
          (s.jobs i).poll.pollsRemaining.toUInt32 0 0)
  | collected (i : Fin kMaxJobs) (hjob : s.jobForHandle (s.stage kArg0) = some i)
      (hready : (s.jobs i).ready = true) :
      ExecStep s (some .collect)
        (s.report .ok (s.jobs i).modeledUs (s.jobs i).speedupX1000 (s.jobs i).checksum
          (s.jobs i).softwareUs)
  | freed (i : Fin kMaxAllocations) (hslot : s.allocationForHandle (s.stage kArg0) = some i) :
      ExecStep s (some .free)
        ((s.setAllocation i { s.allocations i with live := false, uploaded := 0 }).report .ok 0 0 0 0)
  | completed : ExecStep s (some .complete) ({ s with completed := true }.report .ok kCompleteAck 0 0 0)

/-- ALLOC fails with the allocator, and otherwise reports the handle and the size the slot was given. -/
theorem execAlloc_step (s : Device) : ExecStep s (some .alloc) (s.report .ok 0 0 0 0).execAlloc := by
  unfold execAlloc
  rw [show (s.report .ok 0 0 0 0).stage kArg0 = s.stage kArg0 from rfl]
  rcases allocate_cases (s.report .ok 0 0 0 0) (s.stage kArg0) with
    h | ⟨slot, c, hne, hle, hfit, hslot, hsearch, h⟩
  · simp only [h, if_true, setResult_report]
    exact .refused .noMemory (by decide)
  · have hh : UInt32.ofNat (slot.val + 1) ≠ 0 := by
      intro he
      have hz := congrArg UInt32.toNat he
      rw [slotHandle_toNat] at hz
      simp at hz
    -- OUT1 is read back through the handle just issued, which resolves to the slot just filled
    have hlive : (((s.report .ok 0 0 0 0).setAllocation slot ⟨c, alignUp4 (s.stage kArg0), 0, true⟩).setStage
        kOut0 (UInt32.ofNat (slot.val + 1))).allocationForHandle (UInt32.ofNat (slot.val + 1)) = some slot := by
      rw [allocationForHandle_slot]
      simp
    have hstep := ExecStep.allocated slot c hne hle hfit hslot hsearch
    rw [← setOuts_report] at hstep
    simp only [h, if_neg hh, hlive, setStage_allocations, setAllocation_allocations, Function.update_self]
    exact hstep

/-- UPLOAD checks handle, length and range, and hashes what lies below the new mark. -/
theorem execUpload_step (s : Device) : ExecStep s (some .upload) (s.report .ok 0 0 0 0).execUpload := by
  unfold execUpload
  simp only [show ∀ r, (s.report .ok 0 0 0 0).allocationForHandle r = s.allocationForHandle r from fun _ => rfl,
    show (s.report .ok 0 0 0 0).stage kArg0 = s.stage kArg0 from rfl,
    show (s.report .ok 0 0 0 0).stage kArg1 = s.stage kArg1 from rfl,
    show (s.report .ok 0 0 0 0).stage kPayloadLen = s.stage kPayloadLen from rfl]
  cases hslot : s.allocationForHandle (s.stage kArg0) with
  | none =>
    simp only [setResult_report]
    exact .refused .badHandle (by decide)
  | some i =>
    simp only [show (s.report .ok 0 0 0 0).allocations = s.allocations from rfl]
    split
    · rw [setResult_report]
      exact .refused .badHandle (by decide)
    · rename_i hok
      obtain ⟨hlen, hoff, hfit⟩ : (s.stage kPayloadLen).toNat ≤ kPayloadBytes ∧
          s.stage kArg1 ≤ (s.allocations i).size ∧
          s.stage kPayloadLen ≤ (s.allocations i).size - s.stage kArg1 := by
        simpa [not_or] using hok
      -- the checksum reported is over the pool after the copy, up to the new mark
      have hstep := ExecStep.uploaded (s := s) i
        (fnv1a ((s.pool.write ((s.allocations i).offset.toNat + (s.stage kArg1).toNat)
          (s.payload.read 0 (s.stage kPayloadLen).toNat)).read (s.allocations i).offset.toNat
          (max32 (s.allocations i).uploaded (s.stage kArg1 + s.stage kPayloadLen)).toNat)) hslot hlen hoff hfit
      rw [← setOuts_report] at hstep
      exact hstep

/-- SUBMIT needs a live handle and a free job slot. -/
theorem execSubmit_step (s : Device) : ExecStep s (some .submit) (s.report .ok 0 0 0 0).execSubmit := by
  unfold execSubmit
  simp only [show ∀ r, (s.report .ok 0 0 0 0).allocationForHandle r = s.allocationForHandle r from fun _ => rfl,
    show (s.report .ok 0 0 0 0).stage kArg0 = s.stage kArg0 from rfl,
    show (s.report .ok 0 0 0 0).freeJobSlot = s.freeJobSlot from rfl]
  cases hslot : s.allocationForHandle (s.stage kArg0) with
  | none =>
    simp only [setResult_report]
    exact .refused .badHandle (by decide)
  | some i =>
    cases hfree : s.freeJobSlot with
    | none =>
      simp only [setResult_report]
      exact .refused .queueFull (by decide)
    | some slot =>
      have hstep := ExecStep.submitted (s := s) i slot hslot hfree
      rw [← setOuts_report] at hstep
      exact hstep

/-- POLL counts down, on whatever job the handle names. -/
theorem execPoll_step (s : Device) : ExecStep s (some .poll) (s.report .ok 0 0 0 0).execPoll := by
  unfold execPoll
  simp only [show ∀ r, (s.report .ok 0 0 0 0).jobForHandle r = s.jobForHandle r from fun _ => rfl,
    show (s.report .ok 0 0 0 0).stage kArg0 = s.stage kArg0 from rfl]
  cases hjob : s.jobForHandle (s.stage kArg0) with
  | none =>
    simp only [setResult_report]
    exact .refused .badHandle (by decide)
  | some i =>
    have hstep := ExecStep.polled (s := s) i hjob
    rw [← setOuts_report] at hstep
    exact hstep

/-- COLLECT reports a job that is ready, and leaves it in its slot. -/
theorem execCollect_step (s : Device) : ExecStep s (some .collect) (s.report .ok 0 0 0 0).execCollect := by
  unfold execCollect
  simp only [show ∀ r, (s.report .ok 0 0 0 0).jobForHandle r = s.jobForHandle r from fun _ => rfl,
    show (s.report .ok 0 0 0 0).stage kArg0 = s.stage kArg0 from rfl]
  cases hjob : s.jobForHandle (s.stage kArg0) with
  | none =>
    simp only [setResult_report]
    exact .refused .badHandle (by decide)
  | some i =>
    simp only [show (s.report .ok 0 0 0 0).jobs = s.jobs from rfl]
    cases hready : (s.jobs i).ready with
    | false =>
      simp only [setResult_report, Bool.not_false, if_true]
      exact .refused .notReady (by decide)
    | true =>
      simp only [Bool.not_true, Bool.false_eq_true, if_false, setOut_report]
      exact .collected i hjob hready

/-- FREE clears the entry and leaves the pool's bytes. -/
theorem execFree_step (s : Device) : ExecStep s (some .free) (s.report .ok 0 0 0 0).execFree := by
  unfold execFree
  simp only [show ∀ r, (s.report .ok 0 0 0 0).allocationForHandle r = s.allocationForHandle r from fun _ => rfl,
    show (s.report .ok 0 0 0 0).stage kArg0 = s.stage kArg0 from rfl]
  cases hslot : s.allocationForHandle (s.stage kArg0) with
  | none =>
    simp only [setResult_report]
    exact .refused .badHandle (by decide)
  | some i => exact .freed i hslot

/-- **Inversion of `Exec`.** -/
theorem exec_step (s : Device) (command : UInt8) (sequence : UInt32) :
    ExecStep s (HighCommand.ofCode command) (s.exec command sequence) := by
  unfold exec
  rw [clearOutputs_eq]
  cases HighCommand.ofCode command with
  | none =>
    simp only [execCommand, setResult_report]
    exact .refused .badCommand (by decide)
  | some c =>
    cases c with
    | hello =>
      simp only [execCommand, execHello, setOut_report]
      exact .hello _ _ _ _
    | getCaps =>
      simp only [execCommand, execGetCaps, setOut_report]
      exact .getCaps _ _ _ _
    | alloc => exact execAlloc_step s
    | upload => exact execUpload_step s
    | submit => exact execSubmit_step s
    | poll => exact execPoll_step s
    | collect => exact execCollect_step s
    | free => exact execFree_step s
    | complete =>
      have hstep := ExecStep.completed (s := s)
      rw [← (setOut_report _ _ 0 _ _ _ _).1] at hstep
      exact hstep

end Device

end GekkoPak
