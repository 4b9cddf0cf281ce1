import GekkoPak.Device.Correctness.Batch
import GekkoPak.Device.Correctness.Buffers

/-!
# `Device.Correctness.Staging` — input staged beforehand, input carried inline

There are two ways to bring a job its input: through the payload window, a word at a time, with an UPLOAD before the
block (F3 .. F3, F0, F1, F4), or behind the descriptor in the block itself (one F4). The first half of this module says
what the staged way leaves behind (`run_stagedUpload`); the second that from there on a descriptor cannot tell the two
apart (`SameButStaging.runDescriptor`).
-/

namespace GekkoPak

open Basis

namespace JobDescriptorV1

/-- The descriptor with the inline flag set. -/
def asInline (d : JobDescriptorV1) : JobDescriptorV1 := { d with flags := d.flags ||| kDescriptorFlagInlineInput }

/-- The descriptor with the inline flag clear. -/
def asStaged (d : JobDescriptorV1) : JobDescriptorV1 := { d with flags := d.flags &&& ~~~kDescriptorFlagInlineInput }

theorem asInline_inlineInput (d : JobDescriptorV1) : d.asInline.inlineInput = true := by
  have hbit : (d.flags ||| 1) &&& 1 = (1 : UInt32) := by
    apply UInt32.toNat_inj.mp
    rw [UInt32.toNat_and, UInt32.toNat_or, show (1 : UInt32).toNat = 1 from rfl, Nat.and_or_distrib_right,
      Nat.and_one_is_mod]
    rcases Nat.mod_two_eq_zero_or_one d.flags.toNat with h | h <;> rw [h] <;> rfl
  show ((d.flags ||| 1) &&& 1 != 0) = true
  rw [hbit]
  rfl

theorem asStaged_inlineInput (d : JobDescriptorV1) : d.asStaged.inlineInput = false := by
  show ((d.flags &&& ~~~1) &&& 1 != 0) = false
  rw [UInt32.and_assoc, UInt32.not_and_self, UInt32.and_zero]
  rfl

theorem asInline_wellFormed {d : JobDescriptorV1} (hheader : d.headerOk = true) {bs : List UInt8}
    (hlen : d.inputLength.toNat = bs.length) : ParsedDescriptor.WellFormed ⟨d.asInline, some bs⟩ := by
  refine ⟨hheader, d.asInline_inlineInput.symm, ?_⟩
  rw [inlineLength, asInline_inlineInput, if_pos rfl]
  exact hlen.symm

theorem asStaged_wellFormed {d : JobDescriptorV1} (hheader : d.headerOk = true) :
    ParsedDescriptor.WellFormed ⟨d.asStaged, none⟩ := by
  refine ⟨hheader, d.asStaged_inlineInput.symm, ?_⟩
  rw [inlineLength, asStaged_inlineInput]
  rfl

end JobDescriptorV1

namespace Device

/-! ## Filling the payload window -/

/-- The F3s that put `words` into the payload window, from word `k` on. -/
def payloadOps : Nat → List UInt32 → List WireOp
  | _, []      => []
  | k, w :: ws => .writePayloadWord (UInt8.ofNat k) w :: payloadOps (k + 1) ws

/-- `words` are just enough words to hold `d`, and hold it; what pads the last word is not said. -/
def Holds (words : List UInt32) (d : List UInt8) : Prop :=
  words.length = (d.length + 3) / 4 ∧ d <+: words.flatMap le32

/-- The word index of an F3 is eight bits, so 256 words fit and the window with them. -/
theorem run_payloadOps (config : Config) (words : List UInt32) :
    ∀ (k : Nat) (s : Device), k + words.length ≤ 256 →
      (machine config).runFrom s (payloadOps k words) =
        { s with payload := s.payload.write (4 * k) (words.flatMap le32) } := by
  induction words with
  | nil =>
    intro k s _
    have hnil : s.payload.write (4 * k) [] = s.payload := by
      funext a
      exact Mem.write_of_outside (by simp; omega)
    show s = { s with payload := s.payload.write (4 * k) [] }
    rw [hnil]
  | cons w words ih =>
    intro k s hk
    rw [List.length_cons] at hk
    have hword : s.writePayloadWord (UInt8.ofNat k) w = { s with payload := s.payload.write (4 * k) (le32 w) } := by
      have hidx : (UInt8.ofNat k).toNat * 4 = 4 * k := by
        rw [UInt8.toNat_ofNat']
        omega
      unfold writePayloadWord
      simp only [hidx]
      exact if_pos (show 4 * k + 4 ≤ 1024 by omega)
    have hjoin : (s.payload.write (4 * k) (le32 w)).write (4 * (k + 1)) (words.flatMap le32) =
        s.payload.write (4 * k) ((w :: words).flatMap le32) := by
      have h := Mem.write_write_append s.payload (4 * k) (le32 w) (words.flatMap le32)
      rw [le32_length] at h
      exact h
    show (machine config).runFrom (s.writePayloadWord (UInt8.ofNat k) w) (payloadOps (k + 1) words) = _
    rw [hword, ih (k + 1) _ (by omega), hjoin]

/-! ## UPLOAD -/

/-- **An UPLOAD that is accepted**, with what it reports. -/
theorem exec_upload_accepted {s : Device} {i : Fin kMaxAllocations}
    (hslot : s.allocationForHandle (s.stage kArg0) = some i) (hlen : (s.stage kPayloadLen).toNat ≤ kPayloadBytes)
    (hfit : (s.stage kArg1).toNat + (s.stage kPayloadLen).toNat ≤ (s.allocations i).size.toNat) (sequence : UInt32) :
    s.exec HighCommand.upload.code sequence =
      (s.uploadInto i).report .ok (s.stage kPayloadLen) (fnv1a ((s.uploadInto i).pool.read (s.allocations i).offset.toNat
        (max32 (s.allocations i).uploaded (s.stage kArg1 + s.stage kPayloadLen)).toNat)) 0 0 := by
  have hoff : s.stage kArg1 ≤ (s.allocations i).size := UInt32.le_iff_toNat_le.mpr (by omega)
  have hroom : s.stage kPayloadLen ≤ (s.allocations i).size - s.stage kArg1 := by
    rw [UInt32.le_iff_toNat_le, UInt32.toNat_sub_of_le _ _ hoff]
    omega
  have hok : ¬((s.stage kPayloadLen).toNat > kPayloadBytes ∨ s.stage kArg1 > (s.allocations i).size ∨
      s.stage kPayloadLen > (s.allocations i).size - s.stage kArg1) := by
    simp only [not_or, gt_iff_lt, UInt32.not_lt, Nat.not_lt]
    exact ⟨hlen, hoff, hroom⟩
  unfold exec
  rw [clearOutputs_eq, HighCommand.ofCode_code]
  show (s.report .ok 0 0 0 0).execUpload = _
  unfold execUpload
  simp only [show ∀ r, (s.report .ok 0 0 0 0).allocationForHandle r = s.allocationForHandle r from fun _ => rfl,
    show (s.report .ok 0 0 0 0).stage kArg0 = s.stage kArg0 from rfl,
    show (s.report .ok 0 0 0 0).stage kArg1 = s.stage kArg1 from rfl,
    show (s.report .ok 0 0 0 0).stage kPayloadLen = s.stage kPayloadLen from rfl,
    show (s.report .ok 0 0 0 0).allocations = s.allocations from rfl, hslot]
  rw [if_neg hok]
  -- OUT0 and OUT1 are assigned one by one, over the cleared outputs
  exact setOuts_report (s.uploadInto i) .ok _ _

/-- `d` copied to `offset` of the buffer in slot `i`, and the mark raised to its end. -/
def uploadedAt (s : Device) (i : Fin kMaxAllocations) (handle offset len : UInt32) (d : List UInt8) : Device :=
  let a := s.allocations i
  (s.poolCopy handle (a.offset.toNat + offset.toNat) d).setAllocation i
    { a with uploaded := max32 a.uploaded (offset + len) }

/-- Inline input is uploaded where its descriptor says. -/
theorem stageInline_eq (s : Device) (i : Fin kMaxAllocations) (desc : JobDescriptorV1) (bs : List UInt8) :
    s.stageInline i desc bs = s.uploadedAt i desc.inputHandle desc.inputOffset desc.inputLength bs := rfl

/-- Fill the payload window, name handle, offset and length, UPLOAD. -/
def stagedUpload (words : List UInt32) (handle offset len sequence : UInt32) : List WireOp :=
  payloadOps 0 words ++
    [.writeReg 0 handle, .writeReg 1 offset, .writeReg 4 len, .exec HighCommand.upload.code sequence]

/-- **What a staged upload leaves behind**: the bytes in the buffer, the mark, `kOk` in RESULT and the hash of the
    buffer up to its mark in OUT1. The rest of the registers and the window are not said. -/
theorem run_stagedUpload (config : Config) {s : Device} {i : Fin kMaxAllocations} {words : List UInt32}
    {handle offset len : UInt32} {d : List UInt8} (hslot : s.allocationForHandle handle = some i)
    (hd : d.length ≤ kPayloadBytes) (hlen : len.toNat = d.length)
    (hfit : offset.toNat + d.length ≤ (s.allocations i).size.toNat) (hwords : Holds words d) (sequence : UInt32) :
    ∃ stage payload, (machine config).runFrom s (stagedUpload words handle offset len sequence) =
        { (s.uploadedAt i handle offset len d).record (.access handle (s.allocations i).offset.toNat
            (max32 (s.allocations i).uploaded (offset + len)).toNat) with stage := stage, payload := payload } ∧
      stage kResult = Status.ok.code ∧
      stage kOut1 = fnv1a ((s.uploadedAt i handle offset len d).pool.read (s.allocations i).offset.toNat
        (max32 (s.allocations i).uploaded (offset + len)).toNat) := by
  have hd' : d.length ≤ 1024 := hd
  have hroom : 0 + words.length ≤ 256 := by
    rw [hwords.1]
    omega
  have hrun : (machine config).runFrom s (stagedUpload words handle offset len sequence) =
      ((({ s with payload := s.payload.write 0 (words.flatMap le32) }.setStage kArg0 handle).setStage kArg1
        offset).setStage kPayloadLen len).exec HighCommand.upload.code sequence := by
    unfold stagedUpload
    rw [Machine.runFrom_append, run_payloadOps config words 0 s hroom]
    rfl
  have hread : (s.payload.write 0 (words.flatMap le32)).read 0 len.toNat = d := by
    rw [hlen]
    exact Mem.read_write_prefix hwords.2
  generalize hu : (({ s with payload := s.payload.write 0 (words.flatMap le32) }.setStage kArg0 handle).setStage kArg1
    offset).setStage kPayloadLen len = u at hrun
  have hhandle : u.stage kArg0 = handle := by rw [← hu]; rfl
  have hoffset : u.stage kArg1 = offset := by rw [← hu]; rfl
  have hlength : u.stage kPayloadLen = len := by rw [← hu]; rfl
  have hentry : u.allocations = s.allocations := by rw [← hu]; rfl
  have hexec := exec_upload_accepted (s := u) (i := i) (by rw [hhandle, ← hslot, ← hu]; rfl)
    (by rw [hlength, hlen]; exact hd) (by rw [hoffset, hlength, hentry, hlen]; exact hfit) sequence
  have hinto : u.uploadInto i = { (s.uploadedAt i handle offset len d).record (.access handle
      (s.allocations i).offset.toNat (max32 (s.allocations i).uploaded (offset + len)).toNat) with
      stage := u.stage, payload := u.payload } := by
    have hpayload : u.payload.read 0 len.toNat = d := by rw [← hu]; exact hread
    unfold uploadInto
    simp only [hhandle, hoffset, hlength, hpayload]
    rw [← hu]
    rfl
  rw [hlength, hoffset, hentry, hinto] at hexec
  refine ⟨(u.exec HighCommand.upload.code sequence).stage, u.payload, ?_, ?_, ?_⟩
  · rw [hrun, hexec]
    rfl
  · rw [hexec]
    rfl
  · rw [hexec]
    rfl

/-! ## Equal but for the staging area -/

/-- Equal in everything but the staging registers, the payload window and the transfer counter; the histories have
    the same jobs and the same records, not the same pool accesses. -/
structure SameButStaging (s t : Device) : Prop where
  config      : s.config = t.config
  pool        : s.pool = t.pool
  allocations : s.allocations = t.allocations
  jobs        : s.jobs = t.jobs
  completions : s.completions = t.completions
  nextJob     : s.nextJob = t.nextJob
  completed   : s.completed = t.completed
  issued      : issuedJobs s.trace = issuedJobs t.trace
  produced    : produced s.trace = produced t.trace

namespace SameButStaging

variable {s t : Device}

theorem setResult (h : SameButStaging s t) (st st' : Status) :
    SameButStaging (s.setResult st) (t.setResult st') :=
  ⟨h.config, h.pool, h.allocations, h.jobs, h.completions, h.nextJob, h.completed, h.issued, h.produced⟩

theorem allocationForHandle (h : SameButStaging s t) (handle : UInt32) :
    s.allocationForHandle handle = t.allocationForHandle handle := by
  unfold Device.allocationForHandle
  rw [h.allocations]

theorem outputOk (h : SameButStaging s t) (desc : JobDescriptorV1) : s.outputOk desc = t.outputOk desc := by
  unfold Device.outputOk
  rw [h.allocationForHandle, h.allocations]

theorem freeJobSlot (h : SameButStaging s t) : s.freeJobSlot = t.freeJobSlot := by
  unfold Device.freeJobSlot
  rw [h.jobs]

theorem blockJob (h : SameButStaging s t) (i : Fin kMaxAllocations) (desc : JobDescriptorV1) (share : UInt32) :
    s.blockJob i desc share = t.blockJob i desc share := by
  simp only [Device.blockJob, computeNs, h.config, h.pool, h.allocations, h.nextJob]

theorem record_access (h : SameButStaging s t) (handle handle' : UInt32) (start len start' len' : Nat) :
    SameButStaging (s.record (.access handle start len)) (t.record (.access handle' start' len')) := by
  refine ⟨h.config, h.pool, h.allocations, h.jobs, h.completions, h.nextJob, h.completed, ?_, ?_⟩
  · rw [record_trace, record_trace, issuedJobs_access, issuedJobs_access]
    exact h.issued
  · rw [record_trace, record_trace, produced_access, produced_access]
    exact h.produced

theorem issueJob (h : SameButStaging s t) (slot : Fin kMaxJobs) (job : Job) :
    SameButStaging (s.issueJob slot job) (t.issueJob slot job) := by
  refine ⟨h.config, h.pool, h.allocations, ?_, h.completions, ?_, h.completed, ?_, ?_⟩
  · show Function.update s.jobs slot job = Function.update t.jobs slot job
    rw [h.jobs]
  · show s.nextJob + 1 = t.nextJob + 1
    rw [h.nextJob]
  · show issuedJobs (s.trace ++ [.issued job]) = issuedJobs (t.trace ++ [.issued job])
    rw [issuedJobs_issued, issuedJobs_issued, h.issued]
  · show GekkoPak.produced (s.trace ++ [.issued job]) = GekkoPak.produced (t.trace ++ [.issued job])
    rw [produced_issued, produced_issued, h.produced]

/-- Both queues take the record, or neither does. -/
theorem pushCompletion (h : SameButStaging s t) (r : CompletionRecordV1) :
    SameButStaging (s.pushCompletion r).1 (t.pushCompletion r).1 ∧
      (s.pushCompletion r).2 = (t.pushCompletion r).2 := by
  unfold Device.pushCompletion
  rw [h.completions]
  refine ⟨⟨h.config, h.pool, h.allocations, h.jobs, rfl, h.nextJob, h.completed, ?_, ?_⟩, rfl⟩
  · rw [record_trace, record_trace, issuedJobs_completion, issuedJobs_completion]
    exact h.issued
  · rw [record_trace, record_trace, produced_append, produced_append]
    exact congrArg (· ++ _) h.produced

/-- **With its input in place a descriptor cannot tell how it came there.** -/
theorem runDescriptor (h : SameButStaging s t) (i : Fin kMaxAllocations) (desc : JobDescriptorV1)
    (completion : CompletionRecordV1) (share : UInt32) :
    SameButStaging (s.runDescriptor i desc completion share).1 (t.runDescriptor i desc completion share).1 ∧
      (s.runDescriptor i desc completion share).2 = (t.runDescriptor i desc completion share).2 := by
  unfold Device.runDescriptor
  rw [h.outputOk, h.freeJobSlot]
  cases t.outputOk desc with
  | false => exact h.pushCompletion _
  | true =>
    simp only [Bool.not_true, Bool.false_eq_true, if_false]
    cases t.freeJobSlot with
    | none => exact h.pushCompletion _
    | some slot =>
      have hjob := h.blockJob i desc share
      have hissued := (h.record_access desc.inputHandle desc.inputHandle
        ((s.allocations i).offset.toNat + desc.inputOffset.toNat) desc.inputLength.toNat
        ((t.allocations i).offset.toNat + desc.inputOffset.toNat) desc.inputLength.toNat).issueJob slot
        (t.blockJob i desc share)
      have hpushed := hissued.pushCompletion (recordOf completion (t.blockJob i desc share))
      show SameButStaging (Device.pushCompletion (Device.issueJob _ slot (s.blockJob i desc share))
        (recordOf completion (s.blockJob i desc share))).1 _ ∧ (Device.pushCompletion (Device.issueJob _ slot
        (s.blockJob i desc share)) (recordOf completion (s.blockJob i desc share))).2 = _
      rw [hjob]
      exact hpushed

end SameButStaging

/-! ## The two ways -/

/-- An F4 that holds `ps`, with its answer. -/
theorem step_submits_eq {ps : List ParsedDescriptor} {op : WireOp} (h : Submits ps op) (s : Device) :
    s.step op = ((s.runBlock ps).1.setResult (if (s.runBlock ps).2 then .queueFull else .ok),
      .status (if (s.runBlock ps).2 then .queueFull else .ok)) := by
  obtain ⟨word, bytes, rfl, hacc, hparse⟩ := h
  rw [step_writeBlock, writeBlock_parsed hacc hparse]

theorem runBlock_singleton (s : Device) (p : ParsedDescriptor) :
    s.runBlock [p] = ((s.processDescriptor 1 (s.transportShare 1) p).1, !(s.processDescriptor 1 (s.transportShare 1) p).2) :=
  rfl

/-- What the input check needs. -/
theorem inputSlot_of_fits {s : Device} {desc : JobDescriptorV1} {i : Fin kMaxAllocations}
    (hlive : s.allocationForHandle desc.inputHandle = some i)
    (hfit : desc.inputOffset.toNat + desc.inputLength.toNat ≤ (s.allocations i).size.toNat) :
    s.inputSlot desc = some i := by
  have hoff : desc.inputOffset ≤ (s.allocations i).size := UInt32.le_iff_toNat_le.mpr (by omega)
  have hroom : desc.inputLength ≤ (s.allocations i).size - desc.inputOffset := by
    rw [UInt32.le_iff_toNat_le, UInt32.toNat_sub_of_le _ _ hoff]
    omega
  unfold inputSlot
  simp only [hlive]
  rw [if_neg]
  simp only [gt_iff_lt, not_or, UInt32.not_lt]
  exact ⟨hoff, hroom⟩

/-- The record a descriptor with inline input produces, and the job behind a `kOk`: both carry the hash of the
    bytes that came with it. -/
theorem processDescriptor_inline_checksum (desc : JobDescriptorV1) {s : Device} {i : Fin kMaxAllocations}
    {d : List UInt8} (hlen : desc.inputLength.toNat = d.length) (hin : s.inputSlot desc = some i) (n share : UInt32) :
    ∃ r, produced (s.processDescriptor n share ⟨desc, some d⟩).1.trace = produced s.trace ++ [r] ∧
      (r.status = Status.ok.code16 → r.checksum = fnv1a d ∧
        ∃ job, issuedJobs (s.processDescriptor n share ⟨desc, some d⟩).1.trace = issuedJobs s.trace ++ [job] ∧
          job.checksum = fnv1a d) := by
  obtain ⟨t, r, hstep, heq⟩ := processDescriptor_step s n share ⟨desc, some d⟩
  have hcopied : produced (s.stageInline i desc d).trace = produced s.trace := produced_access _ _ _ _
  rw [heq, pushCompletion_produced]
  cases hstep with
  | badInput hnone => rw [hin] at hnone; cases hnone
  | notUploaded j _ hnone => cases hnone
  | badOutput j hj =>
    obtain rfl := Option.some.inj (hin.symm.trans hj)
    exact ⟨_, congrArg (· ++ _) hcopied, fun hok => absurd (Status.code16_inj hok) (by decide)⟩
  | noSlot j hj =>
    obtain rfl := Option.some.inj (hin.symm.trans hj)
    exact ⟨_, congrArg (· ++ _) hcopied, fun hok => absurd (Status.code16_inj hok) (by decide)⟩
  | accepted j slot hj =>
    obtain rfl := Option.some.inj (hin.symm.trans hj)
    -- what is hashed is what has just been copied in
    have hsum : ((s.stageInline i desc d).blockJob i desc share).checksum = fnv1a d := by
      have hoff : ((s.stageInline i desc d).allocations i).offset = (s.allocations i).offset := by
        show (Function.update s.allocations i _ i).offset = _
        rw [Function.update_self]
      show fnv1a ((s.pool.write _ d).read _ desc.inputLength.toNat) = fnv1a d
      rw [hoff, hlen, Mem.read_write_same]
    refine ⟨recordOf (completionFor desc n share) ((s.stageInline i desc d).blockJob i desc share), ?_,
      fun _ => ⟨hsum, (s.stageInline i desc d).blockJob i desc share, ?_, hsum⟩⟩
    · show produced (((s.stageInline i desc d).trace ++ [_]) ++ [_]) ++ _ = _
      rw [produced_issued, produced_access, hcopied]
      rfl
    · show issuedJobs (((((s.trace ++ [_]) ++ [_]) ++ [_])) ++ [_]) = _
      rw [issuedJobs_completion, issuedJobs_issued, issuedJobs_access, issuedJobs_access]
      rfl

theorem submits_one {p : ParsedDescriptor} (hp : p.WellFormed) (hfit : p.encode.length ≤ kBlockBytes) :
    Submits [p] (submission [p]) := by
  refine submits_submission (by simp) ?_ ?_
  · intro q hq
    rw [List.mem_singleton.mp hq]
    exact hp
  · rw [encodeBlock_cons, List.length_append]
    exact hfit

/-- After the UPLOAD a descriptor without inline input is past its input check, in the state in which the one with
    inline input is. -/
theorem processDescriptor_staged (config : Config) {s : Device} {i : Fin kMaxAllocations} {desc : JobDescriptorV1}
    {d : List UInt8} {words : List UInt32} (hlive : s.allocationForHandle desc.inputHandle = some i)
    (hd : d.length ≤ 448) (hlen : desc.inputLength.toNat = d.length)
    (hfit : desc.inputOffset.toNat + d.length ≤ (s.allocations i).size.toNat) (hwords : Holds words d)
    (n share sequence : UInt32) :
    let u := (machine config).runFrom s
      (stagedUpload words desc.inputHandle desc.inputOffset desc.inputLength sequence)
    SameButStaging (u.processDescriptor n share ⟨desc.asStaged, none⟩).1
      (s.processDescriptor n share ⟨desc.asInline, some d⟩).1 ∧
    (u.processDescriptor n share ⟨desc.asStaged, none⟩).2 = (s.processDescriptor n share ⟨desc.asInline, some d⟩).2 := by
  intro u
  obtain ⟨stage, payload, hu, -, -⟩ := run_stagedUpload config hlive (Nat.le_trans hd (by decide)) hlen hfit hwords sequence
  have hu' : u = _ := hu
  have hsame : SameButStaging u (s.stageInline i desc.asInline d) := by
    rw [hu']
    refine ⟨rfl, rfl, rfl, rfl, rfl, rfl, rfl, ?_, ?_⟩
    · exact issuedJobs_access _ _ _ _
    · exact produced_access _ _ _ _
  have hin : s.inputSlot desc.asInline = some i := inputSlot_of_fits hlive (by rw [← hlen] at hfit; exact hfit)
  have hentry : u.allocations i = { s.allocations i with
      uploaded := max32 (s.allocations i).uploaded (desc.inputOffset + desc.inputLength) } := by
    rw [hsame.allocations]
    exact Function.update_self _ _ _
  have hin' : u.inputSlot desc.asStaged = some i := by
    refine inputSlot_of_fits ?_ ?_
    · rw [hsame.allocationForHandle, stageInline_eq]
      obtain ⟨hhandle, hlive'⟩ := allocationForHandle_some hlive
      show Device.allocationForHandle _ desc.inputHandle = some i
      rw [allocationForHandle_update rfl, if_pos hhandle]
      exact if_pos hlive'
    · rw [hentry, ← hlen] at *
      exact hfit
  have hmark : ¬ (u.allocations i).uploaded < desc.inputOffset + desc.inputLength := by
    rw [hentry, UInt32.not_lt, UInt32.le_iff_toNat_le, max32_toNat]
    exact Nat.le_max_right _ _
  have hrun := hsame.runDescriptor i desc (completionFor desc n share) share
  have hleft : u.processDescriptor n share ⟨desc.asStaged, none⟩ =
      u.runDescriptor i desc (completionFor desc n share) share := by
    simp only [processDescriptor, hin']
    exact if_neg hmark
  have hright : s.processDescriptor n share ⟨desc.asInline, some d⟩ =
      (s.stageInline i desc.asInline d).runDescriptor i desc (completionFor desc n share) share := by
    simp only [processDescriptor, hin]
    rfl
  rw [hleft, hright]
  exact hrun

/-- **Input staged and input inline.** After every run, for a live handle, bytes that fit in its buffer and in a
    block, and a descriptor over them: there are F4s that hold the descriptor either way; and whichever they are, to
    stage the bytes, UPLOAD them and submit the descriptor, and to submit the descriptor with the bytes behind it, are
    answered alike and end in states that differ in the staging area alone. One record is produced; if it says `kOk`, it
    and the job carry the hash of the bytes. -/
theorem inline_eq_staged (config : Config) (ops : List WireOp) (desc : JobDescriptorV1) (d : List UInt8)
    {i : Fin kMaxAllocations} (hheader : desc.headerOk = true)
    (hlive : (after config ops).allocationForHandle desc.inputHandle = some i)
    (hd : d.length ≤ 448) (hlen : desc.inputLength.toNat = d.length)
    (hfit : desc.inputOffset.toNat + d.length ≤ ((after config ops).allocations i).size.toNat) :
    Submits [⟨desc.asStaged, none⟩] (submission [⟨desc.asStaged, none⟩]) ∧
    Submits [⟨desc.asInline, some d⟩] (submission [⟨desc.asInline, some d⟩]) ∧
    ∀ words sequence staged inline, Holds words d → Submits [⟨desc.asStaged, none⟩] staged →
      Submits [⟨desc.asInline, some d⟩] inline →
      let before := after config ops
      let uploaded := after config (ops ++ stagedUpload words desc.inputHandle desc.inputOffset desc.inputLength sequence)
      SameButStaging (uploaded.step staged).1 (before.step inline).1 ∧
      (uploaded.step staged).2 = (before.step inline).2 ∧
      ∃ r, produced (before.step inline).1.trace = produced before.trace ++ [r] ∧
        (r.status = Status.ok.code16 → r.checksum = fnv1a d ∧
          ∃ job, issuedJobs (before.step inline).1.trace = issuedJobs before.trace ++ [job] ∧
            job.checksum = fnv1a d) := by
  refine ⟨submits_one (JobDescriptorV1.asStaged_wellFormed hheader) ?_,
    submits_one (JobDescriptorV1.asInline_wellFormed hheader hlen) ?_, ?_⟩
  · show (desc.asStaged.toBytes ++ []).length ≤ 512
    rw [List.append_nil, JobDescriptorV1.toBytes_length]
    decide
  · have hsize : (desc.asInline.toBytes ++ d).length = 64 + d.length := by
      rw [List.length_append, JobDescriptorV1.toBytes_length]
    show (desc.asInline.toBytes ++ d).length ≤ 512
    omega
  · intro words sequence staged inline hwords hstaged hinline before uploaded
    have huploaded : uploaded = (machine config).runFrom before
        (stagedUpload words desc.inputHandle desc.inputOffset desc.inputLength sequence) :=
      Machine.run_append _ ops _
    have hconfig : uploaded.config = before.config := (after_config config _).trans (after_config config ops).symm
    have hshare : uploaded.transportShare 1 = before.transportShare 1 := by
      simp only [transportShare, blockTransportNs, transferNs, hconfig]
    obtain ⟨hsame, hqueued⟩ := processDescriptor_staged config hlive hd hlen hfit hwords 1
      (before.transportShare 1) sequence
    rw [← huploaded] at hsame hqueued
    rw [step_submits_eq hstaged, step_submits_eq hinline, runBlock_singleton, runBlock_singleton, hshare]
    refine ⟨hsame.setResult _ _, ?_, ?_⟩
    · rw [hqueued]
    · exact processDescriptor_inline_checksum desc.asInline hlen
        (inputSlot_of_fits hlive (by rw [← hlen] at hfit; exact hfit)) _ _

/-- Five bytes, so that the second word is padded; the padding is not zero. -/
theorem inline_eq_staged_padded :
    let config : Config := { hasPool := true, poolBytes := 65536 }
    let ops : List WireOp := [.writeReg 0 16, .exec HighCommand.alloc.code 0]
    let desc := gpkBuildDescriptor 1 1 5 0 16
    let d : List UInt8 := [1, 2, 3, 4, 5]
    SameButStaging
      (after config (ops ++ stagedUpload [0x04030201, 0xAABBCC05] 1 0 5 0 ++ [submission [⟨desc.asStaged, none⟩]]))
      (after config (ops ++ [submission [⟨desc.asInline, some d⟩]])) := by
  intro config ops desc d
  have hlive : (after config ops).allocationForHandle desc.inputHandle = some 0 := by decide +kernel
  obtain ⟨hstaged, hinline, hsame⟩ := inline_eq_staged config ops desc d rfl hlive (by decide) rfl (by decide +kernel)
  have hwords : Holds [0x04030201, 0xAABBCC05] d := ⟨by decide, by decide⟩
  have hboth := (hsame _ 0 _ _ hwords hstaged hinline).1
  rw [after, after, Machine.run_concat, Machine.run_concat]
  exact hboth

end Device

end GekkoPak
