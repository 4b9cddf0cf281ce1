import GekkoPak.Device.BlockSteps
import GekkoPak.Device.Correctness.Parser

/-!
# `Device.Correctness.Reject` — a refused operation changes nothing

Every failure branch of F1, F4 and F5 reports its status and stops. `SameExcept regs s t` is the frame: `t`
is `s` but for the staging registers in `regs`. It covers the argument registers, the payload window, the pool,
both tables, the queue, the next job handle and the history at once.
-/

namespace GekkoPak

open Basis

namespace Device

/-- `t` is `s` but for the staging registers `regs`. -/
def SameExcept (regs : List StageRegister) (s t : Device) : Prop :=
  (∀ r, r ∉ regs → t.stage r = s.stage r) ∧ t = { s with stage := t.stage }

/-- The registers an F1 reports in. -/
def reportRegisters : List StageRegister := [kResult, kOut0, kOut1, kOut2, kOut3]

theorem sameExcept_report (s : Device) (st : Status) (a b c d : UInt32) :
    SameExcept reportRegisters s (s.report st a b c d) := by
  refine ⟨?_, rfl⟩
  intro r hr
  simp only [reportRegisters, List.mem_cons, List.not_mem_nil, or_false, not_or] at hr
  obtain ⟨h1, h2, h3, h4, h5⟩ := hr
  simp only [report, if_neg h1, if_neg h2, if_neg h3, if_neg h4, if_neg h5]

theorem sameExcept_setResult (s : Device) (st : Status) : SameExcept [kResult] s (s.setResult st) := by
  refine ⟨?_, rfl⟩
  intro r hr
  exact Function.update_of_ne (List.ne_of_not_mem_cons hr) _ _

theorem setResult_result (s : Device) (st : Status) : (s.setResult st).stage kResult = st.code := by
  simp [setResult]

/-- An F1 that does not end in `kOk` is the refused one. -/
theorem exec_refused {s : Device} {command : UInt8} {sequence : UInt32}
    (h : (s.exec command sequence).stage kResult ≠ Status.ok.code) :
    ∃ st, s.exec command sequence = s.report st 0 0 0 0 := by
  have hstep := exec_step s command sequence
  generalize HighCommand.ofCode command = c at hstep
  generalize s.exec command sequence = t at hstep h ⊢
  cases hstep with
  | refused st hst => exact ⟨st, rfl⟩
  -- every other way out reported `kOk`
  | hello | getCaps | allocated | uploaded | submitted | polled | collected | freed | completed =>
    exact absurd rfl h

/-- An F4 that answers `kBadBlock` or `kBadDescriptor` wrote that to RESULT and did nothing else. -/
theorem writeBlock_refused {s : Device} {selector : UInt8} {word : UInt32} {data : Option (List UInt8)}
    (h : (s.writeBlock selector word data).2 = .badBlock ∨ (s.writeBlock selector word data).2 = .badDescriptor) :
    ∃ st, (s.writeBlock selector word data).1 = s.setResult st := by
  rcases writeBlock_cases s selector word data with
    ⟨heq, -⟩ | ⟨bytes, -, -, ⟨st, -, heq⟩ | ⟨parsed, -, heq⟩⟩
  · exact ⟨.badBlock, by rw [heq]⟩
  · exact ⟨st, by rw [heq]⟩
  · -- a block that parsed answers `kOk` or `kQueueFull`
    rw [heq] at h
    simp only at h
    split at h <;> rcases h with h | h <;> cases h

/-- An F5 that leaves `kBadBlock` in RESULT did nothing else and wrote no record. -/
theorem readBlock_refused {s : Device} {selector : UInt8} {word : UInt32} {out : Option Nat}
    (h : (s.readBlock selector word out).1.stage kResult = Status.badBlock.code) :
    (s.readBlock selector word out).1 = s.setResult .badBlock ∧ (s.readBlock selector word out).2.1 = 0 := by
  rcases readBlock_cases s selector word out with ⟨heq, -⟩ | ⟨outBytes, q, -, -, -, heq⟩
  · rw [heq]; exact ⟨rfl, rfl⟩
  · rw [heq] at h
    exact absurd (Status.code_inj ((setResult_result _ _).symm.trans h)) (by decide)

/-- **Rejected operations change nothing.** In every reachable state: an F1 that does not end in `kOk` leaves
    the outputs zero and touches nothing but them and RESULT; an F4 that answers `kBadBlock` or
    `kBadDescriptor` touches nothing but RESULT, wherever in the block the fault lies; an F5 that leaves
    `kBadBlock` touches nothing but RESULT, and in particular consumes no completion. -/
theorem rejected_changes_nothing (config : Config) (ops : List WireOp) :
    let s := after config ops
    (∀ command sequence, (s.exec command sequence).stage kResult ≠ Status.ok.code →
      SameExcept reportRegisters s (s.exec command sequence) ∧
      ∀ r ∈ [kOut0, kOut1, kOut2, kOut3], (s.exec command sequence).stage r = 0) ∧
    (∀ selector word data,
      (s.writeBlock selector word data).2 = .badBlock ∨ (s.writeBlock selector word data).2 = .badDescriptor →
      SameExcept [kResult] s (s.writeBlock selector word data).1) ∧
    (∀ selector word out, (s.readBlock selector word out).1.stage kResult = Status.badBlock.code →
      SameExcept [kResult] s (s.readBlock selector word out).1 ∧
      (s.readBlock selector word out).1.completions.contents = s.completions.contents ∧
      (s.readBlock selector word out).2.1 = 0) := by
  intro s
  refine ⟨?_, ?_, ?_⟩
  · intro command sequence h
    obtain ⟨st, heq⟩ := exec_refused h
    rw [heq]
    refine ⟨sameExcept_report s st 0 0 0 0, ?_⟩
    intro r hr
    simp only [List.mem_cons, List.not_mem_nil, or_false] at hr
    rcases hr with rfl | rfl | rfl | rfl <;> rfl
  · intro selector word data h
    obtain ⟨st, heq⟩ := writeBlock_refused h
    rw [heq]
    exact sameExcept_setResult s st
  · intro selector word out h
    obtain ⟨heq, hzero⟩ := readBlock_refused h
    rw [heq, hzero]
    exact ⟨sameExcept_setResult s .badBlock, rfl, rfl⟩

/-- Sixteen bytes allocated, four of them uploaded by a descriptor whose record is still queued, and handle 9 in ARG0. -/
def busyRun : List WireOp :=
  [.writeReg 0 16, .exec HighCommand.alloc.code 0,
    .writeBlock kSelectorSubmission 68 (some ((gpkBuildDescriptor 1 1 4 1 16).toBytes ++ [1, 2, 3, 4])), .writeReg 0 9]

/-- A good descriptor with inline input for the same bytes, and behind it one without a magic. -/
def spoiltBlock : List UInt8 :=
  (gpkBuildDescriptor 2 1 4 1 16).toBytes ++ [5, 6, 7, 8] ++ { gpkBuildDescriptor 3 1 4 0 16 with magic := 1 }.toBytes

/-- All three refusals occur with a live buffer and a queued record: FREE of a handle never issued, a block whose second
    descriptor is malformed, and an F5 with another selector. -/
theorem rejected_changes_nothing_busy :
    let s := after { hasPool := true, poolBytes := 65536 } busyRun
    s.allocationForHandle 1 = some 0 ∧ s.completions.contents.length = 1 ∧
    SameExcept reportRegisters s (s.exec HighCommand.free.code 0) ∧
    SameExcept [kResult] s (s.writeBlock kSelectorSubmission 132 (some spoiltBlock)).1 ∧
    SameExcept [kResult] s (s.readBlock 7 0x00400000 (some 64)).1 := by
  intro s
  obtain ⟨hexec, hwrite, hread⟩ := rejected_changes_nothing { hasPool := true, poolBytes := 65536 } busyRun
  refine ⟨by decide +kernel, by decide +kernel, ?_, ?_, ?_⟩
  · exact (hexec HighCommand.free.code 0 (by decide +kernel)).1
  · exact hwrite kSelectorSubmission 132 (some spoiltBlock) (Or.inr (by decide +kernel))
  · exact (hread 7 0x00400000 (some 64) (by decide +kernel)).1

end Device

end GekkoPak
