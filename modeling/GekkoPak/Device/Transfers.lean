import GekkoPak.Device.BlockSteps

/-!
# `Device.Transfers` — the transfer counter is only ever counted

`transfers_` counts NTR transactions for the adapters' logs. No operation reads it or moves it, so every
operation commutes with setting it (`step_withTransfers`), and two devices that differ in the counter alone
answer alike for ever.
-/

namespace GekkoPak

open Basis

namespace Device

/-- `s` with another count. -/
@[simps] def withTransfers (s : Device) (n : UInt64) : Device := { s with transfers := n }

variable (s : Device) (n : UInt64)

/-! ## Registers and F1 -/

/-- The tables do not know of the count, nor does what is looked up in them. -/
@[simp] theorem allocationForHandle_withTransfers (handle : UInt32) :
    (s.withTransfers n).allocationForHandle handle = s.allocationForHandle handle := rfl

@[simp] theorem jobForHandle_withTransfers (handle : UInt32) :
    (s.withTransfers n).jobForHandle handle = s.jobForHandle handle := rfl

@[simp] theorem freeJobSlot_withTransfers : (s.withTransfers n).freeJobSlot = s.freeJobSlot := rfl

/-- F0 stages a register. -/
theorem writeReg_withTransfers (index : UInt8) (value : UInt32) :
    (s.withTransfers n).writeReg index value = (s.writeReg index value).withTransfers n := by
  unfold writeReg
  split <;> rfl

/-- F3 fills the payload window. -/
theorem writePayloadWord_withTransfers (index : UInt8) (value : UInt32) :
    (s.withTransfers n).writePayloadWord index value = (s.writePayloadWord index value).withTransfers n := by
  unfold writePayloadWord
  simp only
  split <;> rfl

/-- The allocator goes by configuration and table alone. -/
theorem allocate_withTransfers (bytes : UInt32) :
    (s.withTransfers n).allocate bytes = ((s.allocate bytes).1.withTransfers n, (s.allocate bytes).2) := by
  simp only [allocate, withTransfers_config, withTransfers_allocations]
  split
  · rfl
  split
  · rfl
  cases firstSlot (fun i => !(s.allocations i).live) with
  | none => rfl
  | some slot =>
    simp only [show (s.withTransfers n).allocations = s.allocations from rfl]
    cases search s.allocations s.config.poolBytes (alignUp4 bytes) searchFuel 0 with
    | none => rfl
    | some found => cases found <;> rfl

/-- OUT1 is read back through the handle just issued, from a table that is the same either way. -/
theorem execAlloc_withTransfers : (s.withTransfers n).execAlloc = s.execAlloc.withTransfers n := by
  unfold execAlloc
  rw [show (s.withTransfers n).stage kArg0 = s.stage kArg0 from rfl, allocate_withTransfers]
  cases s.allocate (s.stage kArg0) with
  | mk t handle =>
    simp only
    split
    · rfl
    · rw [show ((t.withTransfers n).setStage kOut0 handle).allocationForHandle handle
          = (t.setStage kOut0 handle).allocationForHandle handle from rfl]
      cases (t.setStage kOut0 handle).allocationForHandle handle <;> rfl

/-- The commands over a handle: refused without one, and otherwise the same to pool, tables and registers. -/
theorem execUpload_withTransfers : (s.withTransfers n).execUpload = s.execUpload.withTransfers n := by
  simp only [execUpload, allocationForHandle_withTransfers, withTransfers_stage, withTransfers_allocations]
  cases s.allocationForHandle (s.stage kArg0) with
  | none => rfl
  | some i =>
    simp only
    split <;> rfl

theorem execSubmit_withTransfers : (s.withTransfers n).execSubmit = s.execSubmit.withTransfers n := by
  simp only [execSubmit, allocationForHandle_withTransfers, freeJobSlot_withTransfers, withTransfers_stage]
  cases s.allocationForHandle (s.stage kArg0) with
  | none => rfl
  | some i => cases s.freeJobSlot <;> rfl

theorem execPoll_withTransfers : (s.withTransfers n).execPoll = s.execPoll.withTransfers n := by
  simp only [execPoll, jobForHandle_withTransfers, withTransfers_stage]
  cases s.jobForHandle (s.stage kArg0) <;> rfl

theorem execCollect_withTransfers : (s.withTransfers n).execCollect = s.execCollect.withTransfers n := by
  simp only [execCollect, jobForHandle_withTransfers, withTransfers_stage, withTransfers_jobs]
  cases s.jobForHandle (s.stage kArg0) with
  | none => rfl
  | some i =>
    simp only
    split <;> rfl

theorem execFree_withTransfers : (s.withTransfers n).execFree = s.execFree.withTransfers n := by
  simp only [execFree, allocationForHandle_withTransfers, withTransfers_stage]
  cases s.allocationForHandle (s.stage kArg0) <;> rfl

/-- **F1** commutes with setting the counter. -/
theorem exec_withTransfers (command : UInt8) (sequence : UInt32) :
    (s.withTransfers n).exec command sequence = (s.exec command sequence).withTransfers n := by
  unfold exec
  show (s.clearOutputs.withTransfers n).execCommand (HighCommand.ofCode command) = _
  cases HighCommand.ofCode command with
  | none => rfl
  | some c =>
    cases c with
    | hello | getCaps | complete => rfl
    | alloc => exact execAlloc_withTransfers _ n
    | upload => exact execUpload_withTransfers _ n
    | submit => exact execSubmit_withTransfers _ n
    | poll => exact execPoll_withTransfers _ n
    | collect => exact execCollect_withTransfers _ n
    | free => exact execFree_withTransfers _ n

/-! ## Blocks -/

/-- The part of the loop body after the input is in place. -/
theorem runDescriptor_withTransfers (i : Fin kMaxAllocations) (desc : JobDescriptorV1)
    (completion : CompletionRecordV1) (share : UInt32) :
    (s.withTransfers n).runDescriptor i desc completion share =
      ((s.runDescriptor i desc completion share).1.withTransfers n,
        (s.runDescriptor i desc completion share).2) := by
  unfold runDescriptor
  show (if !s.outputOk desc then _ else _) = _
  simp only
  split
  · rfl
  · rw [freeJobSlot_withTransfers]
    cases s.freeJobSlot <;> rfl

/-- The loop body, whichever of its exits it takes. -/
theorem processDescriptor_withTransfers (batchSize share : UInt32) (p : ParsedDescriptor) :
    (s.withTransfers n).processDescriptor batchSize share p =
      ((s.processDescriptor batchSize share p).1.withTransfers n, (s.processDescriptor batchSize share p).2) := by
  unfold processDescriptor
  rw [show (s.withTransfers n).inputSlot p.desc = s.inputSlot p.desc from rfl]
  cases s.inputSlot p.desc with
  | none => rfl
  | some i =>
    cases hp : p.input with
    | some bs =>
      simp only
      exact runDescriptor_withTransfers (s.stageInline i p.desc bs) n i p.desc _ share
    | none =>
      show (if (s.allocations i).uploaded < p.desc.inputOffset + p.desc.inputLength then _ else _) = _
      simp only
      split
      · rfl
      · exact runDescriptor_withTransfers s n i p.desc _ share

/-- The descriptor loop, by induction on the descriptors. -/
theorem processDescriptors_withTransfers (batchSize share : UInt32) (ps : List ParsedDescriptor) :
    ∀ (s : Device) (dropped : Bool), (s.withTransfers n).processDescriptors batchSize share ps dropped =
      ((s.processDescriptors batchSize share ps dropped).1.withTransfers n,
        (s.processDescriptors batchSize share ps dropped).2) := by
  induction ps with
  | nil => intro s dropped; rfl
  | cons p ps ih =>
    intro s dropped
    unfold processDescriptors
    rw [processDescriptor_withTransfers]
    exact ih _ _

/-- **F4** commutes with setting the counter, and answers the same. -/
theorem writeBlock_withTransfers (selector : UInt8) (word : UInt32) (data : Option (List UInt8)) :
    (s.withTransfers n).writeBlock selector word data =
      ((s.writeBlock selector word data).1.withTransfers n, (s.writeBlock selector word data).2) := by
  unfold writeBlock
  cases data with
  | none => rfl
  | some bytes =>
    simp only
    split
    · rfl
    · unfold processDescriptorBlock
      cases parse bytes (word &&& 0xFFFF).toNat with
      | error st => rfl
      | ok parsed =>
        simp only
        rw [show (s.withTransfers n).transportShare (UInt32.ofNat parsed.length)
          = s.transportShare (UInt32.ofNat parsed.length) from rfl, processDescriptors_withTransfers]
        rfl

/-- The drain loop, by induction on its turns; the queue it takes records from has no count in it. -/
theorem drainLoop_withTransfers (limit : Nat) :
    ∀ (turns : Nat) (s : Device) (written : Nat) (out : List UInt8),
      drainLoop limit turns (s.withTransfers n) written out =
        ((drainLoop limit turns s written out).1.withTransfers n, (drainLoop limit turns s written out).2) := by
  intro turns
  induction turns with
  | zero => intro s written out; rfl
  | succ turns ih =>
    intro s written out
    unfold drainLoop
    split
    · have hpop : (s.withTransfers n).popCompletion =
          s.popCompletion.map (fun x => (x.1, x.2.withTransfers n)) := by
        unfold popCompletion
        rw [show (s.withTransfers n).completions = s.completions from rfl]
        cases s.completions.pop <;> rfl
      rw [hpop]
      cases s.popCompletion with
      | none => rfl
      | some x => exact ih _ _ _
    · rfl

/-- **F5** commutes with setting the counter, and delivers the same. -/
theorem readBlock_withTransfers (selector : UInt8) (word : UInt32) (out : Option Nat) :
    (s.withTransfers n).readBlock selector word out =
      ((s.readBlock selector word out).1.withTransfers n, (s.readBlock selector word out).2) := by
  unfold readBlock
  cases out with
  | none => rfl
  | some outBytes =>
    simp only
    split
    · rfl
    · split
      · rfl
      · rw [show (s.withTransfers n).completions = s.completions from rfl, drainLoop_withTransfers]
        rfl

/-- **Every operation commutes with setting the counter**, and answers the same. -/
theorem step_withTransfers (op : WireOp) :
    (s.withTransfers n).step op = ((s.step op).1.withTransfers n, (s.step op).2) := by
  cases op with
  | writeReg index value => exact congrArg (fun t => (t, Response.none)) (writeReg_withTransfers s n index value)
  | exec command sequence => exact congrArg (fun t => (t, Response.none)) (exec_withTransfers s n command sequence)
  | readReg index => rfl
  | writePayloadWord index value =>
    exact congrArg (fun t => (t, Response.none)) (writePayloadWord_withTransfers s n index value)
  | writeBlock selector word data =>
    rw [step_writeBlock, step_writeBlock, writeBlock_withTransfers]
  | readBlock selector word out =>
    rw [step_readBlock, step_readBlock, readBlock_withTransfers]

/-! ## Devices that differ in the count -/

/-- `t` is `s` but for the transfer counter. -/
def SameCore (s t : Device) : Prop := ∃ n, t = s.withTransfers n

theorem SameCore.refl (s : Device) : SameCore s s := ⟨s.transfers, rfl⟩

/-- Counting a transaction is setting the counter. -/
theorem SameCore.countTransfer {s t : Device} (h : SameCore s t) : SameCore s t.countTransfer := by
  obtain ⟨n, rfl⟩ := h
  exact ⟨n + 1, rfl⟩

/-- Devices that differ in the count stay so, and answer alike. -/
theorem SameCore.step {s t : Device} (h : SameCore s t) (op : WireOp) :
    SameCore (s.step op).1 (t.step op).1 ∧ (t.step op).2 = (s.step op).2 := by
  obtain ⟨n, rfl⟩ := h
  rw [step_withTransfers]
  exact ⟨⟨n, rfl⟩, rfl⟩

end Device

end GekkoPak
