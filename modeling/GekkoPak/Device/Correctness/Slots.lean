import GekkoPak.Device.Correctness.Jobs

/-!
# `Device.Correctness.Slots` — when a job slot is free

No path of the device clears `Job.live`: a job that has been answered, by its completion record or by COLLECT,
keeps its entry. So whether a submission finds a slot depends on how many jobs were accepted since `Reset` and on
nothing else. `job_slots_leak` is a run in which everything was answered and no slot is left.
-/

namespace GekkoPak

open Basis

/-! ## What has been answered -/

/-- `n` records read off the front of a buffer. -/
def decodeRecords : Nat → List UInt8 → List CompletionRecordV1
  | 0,     _  => []
  | n + 1, bs => CompletionRecordV1.ofBytes (bs.take kCompletionBytes) :: decodeRecords n (bs.drop kCompletionBytes)

theorem decodeRecords_recordBytes (pad : List UInt8) :
    ∀ rs : List CompletionRecordV1, decodeRecords rs.length (Device.recordBytes rs ++ pad) = rs := by
  intro rs
  induction rs with
  | nil => rfl
  | cons r rs ih =>
    have hbytes : Device.recordBytes (r :: rs) ++ pad = r.toBytes ++ (Device.recordBytes rs ++ pad) := by
      rw [← List.append_assoc]
      rfl
    have hlen : r.toBytes.length = kCompletionBytes := CompletionRecordV1.toBytes_length r
    rw [List.length_cons, decodeRecords, hbytes, ← hlen, List.take_left, List.drop_left,
      CompletionRecordV1.ofBytes_toBytes, ih]

/-- The records a response carries. -/
def Response.records : Response → List CompletionRecordV1
  | .block written out => decodeRecords (written / kCompletionBytes) out
  | _ => []

namespace Device

/-- The jobs an operation answers: those whose record an F5 returns, or the one a COLLECT returns. -/
def answeredBy (s : Device) (op : WireOp) : List UInt32 :=
  match op with
  | .readBlock _ _ _ => (s.step op).2.records.map (fun r => r.jobHandle)
  | .exec command _ =>
    if HighCommand.ofCode command = some .collect ∧ (s.step op).1.stage kResult = Status.ok.code then
      [s.stage kArg0]
    else []
  | _ => []

/-- The jobs answered along a run from `s`. -/
def answeredFrom (s : Device) : List WireOp → List UInt32
  | []        => []
  | op :: ops => s.answeredBy op ++ answeredFrom (s.step op).1 ops

/-- Every job accepted in a run has been answered in it. -/
def AllAnswered (config : Config) (ops : List WireOp) : Prop :=
  ∀ job ∈ issuedJobs (after config ops).trace, job.handle ∈ (after config []).answeredFrom ops

instance (config : Config) (ops : List WireOp) : Decidable (AllAnswered config ops) :=
  inferInstanceAs (Decidable (∀ job ∈ issuedJobs (after config ops).trace, _))

/-- How many jobs have been accepted since `Reset`. -/
def acceptedJobs (s : Device) : Nat := (issuedJobs s.trace).length

/-- A block of one inline descriptor over the first four bytes of handle 1. -/
def sampleBlock : List UInt8 := encodeBlock [⟨gpkBuildDescriptor 1 1 4 1 16, some [1, 2, 3, 4]⟩]

/-- Submit the sample block and drain the queue. -/
def sampleRound : List WireOp :=
  [.writeBlock kSelectorSubmission 68 (some sampleBlock), .readBlock kSelectorCompletion 0x00400000 (some 64)]

/-- ALLOC, then sixteen rounds, then ARG0 for a SUBMIT. -/
def sampleRun : List WireOp :=
  [.writeReg 0 16, .exec HighCommand.alloc.code 0] ++ (List.replicate 16 sampleRound).flatten ++ [.writeReg 0 1]

/-- **Job slots are not reclaimed.** Sixteen rounds, every job answered; the next SUBMIT over a live allocation
    answers `kQueueFull`, and the next valid block gets a record with `kQueueFull`. -/
theorem job_slots_leak :
    let s := after { hasPool := true, poolBytes := 65536 } sampleRun
    AllAnswered { hasPool := true, poolBytes := 65536 } sampleRun ∧
    s.allocationForHandle (s.stage kArg0) = some 0 ∧
    (s.exec HighCommand.submit.code 0).stage kResult = Status.queueFull.code ∧
    s.completions.contents = [] ∧
    (s.writeBlock kSelectorSubmission 68 (some sampleBlock)).1.completions.contents.map (fun r => r.status) =
      [Status.queueFull.code16] := by
  decide +kernel

/-! ## One submission -/

theorem freeJobSlot_none {s : Device} (hs : JobsSound s) : s.freeJobSlot = none ↔ 16 ≤ s.acceptedJobs :=
  JobsInv.freeSlot_none hs

theorem freeJobSlot_some {s : Device} (hs : JobsSound s) (hlt : s.acceptedJobs < 16) :
    ∃ slot, s.freeJobSlot = some slot := by
  cases hfree : s.freeJobSlot with
  | none => exact absurd ((freeJobSlot_none hs).mp hfree) (Nat.not_le.mpr hlt)
  | some slot => exact ⟨slot, rfl⟩

/-- A SUBMIT over a live allocation answers `kQueueFull` exactly from the seventeenth job on. -/
theorem submit_queueFull {s : Device} (hs : JobsSound s) {i : Fin kMaxAllocations}
    (hslot : s.allocationForHandle (s.stage kArg0) = some i) (sequence : UInt32) :
    (s.exec HighCommand.submit.code sequence).stage kResult ≠ Status.queueFull.code ↔ s.acceptedJobs < 16 := by
  rw [exec_submit hslot]
  rcases Nat.lt_or_ge s.acceptedJobs 16 with hlt | hge
  · obtain ⟨slot, hfree⟩ := freeJobSlot_some hs hlt
    rw [hfree]
    refine ⟨fun _ => hlt, fun _ h => ?_⟩
    have hcode : Status.ok.code = Status.queueFull.code := h
    cases Status.code_inj hcode
  · rw [(freeJobSlot_none hs).mpr hge]
    exact ⟨fun h => absurd rfl h, fun hlt => absurd hge (Nat.not_le.mpr hlt)⟩

theorem SameShape.outputOk {s t : Device} (h : SameShape s t) (desc : JobDescriptorV1) :
    t.outputOk desc = s.outputOk desc := by
  unfold Device.outputOk
  rw [h.allocationForHandle]
  cases s.allocationForHandle desc.outputHandle with
  | none => rfl
  | some o => simp only [(h o).2.1]

/-- The input of a descriptor is in place in `s`: live, in range, and inline or already uploaded. -/
def InputReady (s : Device) (p : ParsedDescriptor) : Prop :=
  ∃ i, s.inputSlot p.desc = some i ∧
    (p.input = none → p.desc.inputOffset + p.desc.inputLength ≤ (s.allocations i).uploaded)

/-- How a descriptor with its input in place settles. -/
theorem descriptor_ready {s t : Device} {batchSize share : UInt32} {p : ParsedDescriptor}
    {r : CompletionRecordV1} (hs : JobsSound s) (hin : InputReady s p) (hd : DescriptorStep s batchSize share p t r) :
    (s.outputOk p.desc = false ∧ r.status = Status.badHandle.code16) ∨
    (s.outputOk p.desc = true ∧ 16 ≤ s.acceptedJobs ∧ r.status = Status.queueFull.code16 ∧
      t.acceptedJobs = s.acceptedJobs) ∨
    (s.outputOk p.desc = true ∧ s.acceptedJobs < 16 ∧ r.status = Status.ok.code16 ∧
      t.acceptedJobs = s.acceptedJobs + 1) := by
  obtain ⟨j, hj, hup⟩ := hin
  cases hd with
  | badInput hno => rw [hj] at hno; cases hno
  | notUploaded i hi hnone hlt =>
    rw [hj] at hi
    cases hi
    exact absurd hlt (UInt32.not_lt.mpr (hup hnone))
  -- staging moves a mark only, so the output is judged as in `s`
  | badOutput i _ _ hout =>
    exact Or.inl ⟨((sameShape_staged s i p).outputOk p.desc).symm.trans hout, rfl⟩
  | noSlot i _ _ hout hfree =>
    refine Or.inr (Or.inl ⟨((sameShape_staged s i p).outputOk p.desc).symm.trans hout,
      (freeJobSlot_none hs).mp hfree, rfl, ?_⟩)
    exact congrArg List.length (staged_jobs s i p).2.2
  | accepted i slot _ _ hout hfree =>
    have hlt : s.acceptedJobs < 16 := by
      rcases Nat.lt_or_ge s.acceptedJobs 16 with hlt | hge
      · exact hlt
      · rw [(freeJobSlot_none hs).mpr hge] at hfree
        cases hfree
    refine Or.inr (Or.inr ⟨((sameShape_staged s i p).outputOk p.desc).symm.trans hout, hlt, rfl, ?_⟩)
    show (issuedJobs (((s.staged i p).trace ++ [.access _ _ _]) ++ [.issued _])).length = _
    rw [issuedJobs_issued, issuedJobs_access, (staged_jobs s i p).2.2, List.length_append]
    rfl

/-- A block of one descriptor settles that descriptor and pushes its record. -/
theorem writeBlock_single {s : Device} {selector : UInt8} {word : UInt32} {bytes : List UInt8}
    {p : ParsedDescriptor} (hacc : BlockAccepted selector word bytes)
    (hparse : parse bytes (blockLength word) = .ok [p]) :
    ∃ t r, DescriptorStep s (UInt32.ofNat 1) (s.transportShare (UInt32.ofNat 1)) p t r ∧
      s.writeBlock selector word (some bytes) =
        ((t.pushCompletion r).1.setResult (if (t.pushCompletion r).2 then .ok else .queueFull),
          if (t.pushCompletion r).2 then .ok else .queueFull) := by
  obtain ⟨t, r, hd, heq⟩ := processDescriptor_step s (UInt32.ofNat 1) (s.transportShare (UInt32.ofNat 1)) p
  refine ⟨t, r, hd, ?_⟩
  have hrun : s.runBlock [p] = ((t.pushCompletion r).1, !(t.pushCompletion r).2) := by
    unfold runBlock processDescriptors
    simp only [List.length_singleton, heq, processDescriptors, Bool.false_or]
  rw [writeBlock_parsed hacc hparse, hrun]
  cases (t.pushCompletion r).2 <;> rfl

/-! ## Rounds of submit and drain -/

/-- One F4 and one F5. `p` is what the block holds. -/
structure Round where
  word     : UInt32
  bytes    : List UInt8
  p        : ParsedDescriptor
  readWord : UInt32
  outBytes : Nat

/-- The round in state `s` is a valid one: one descriptor with its input in place and its output in range, and
    an F5 with room for its record. -/
structure Round.Valid (s : Device) (round : Round) : Prop where
  accepted : BlockAccepted kSelectorSubmission round.word round.bytes
  parsed   : parse round.bytes (blockLength round.word) = .ok [round.p]
  input    : InputReady s round.p
  output   : s.outputOk round.p.desc = true
  read     : ReadAccepted kSelectorCompletion round.readWord round.outBytes
  room     : kCompletionBytes ≤ min (readLength round.readWord) round.outBytes

/-- The submission of a round. -/
def Round.write (round : Round) : WireOp := .writeBlock kSelectorSubmission round.word (some round.bytes)

/-- The drain of a round. -/
def Round.drain (round : Round) : WireOp := .readBlock kSelectorCompletion round.readWord (some round.outBytes)

/-- The state after a round. -/
def Round.next (s : Device) (round : Round) : Device := ((s.step round.write).1.step round.drain).1

/-- The round reports `kOk` throughout: the F4 answers `kOk`, and the F5 returns one record, with `kOk`. -/
def Round.ReportsOk (s : Device) (round : Round) : Prop :=
  (s.step round.write).2 = .status .ok ∧
    ((s.step round.write).1.step round.drain).2.records.map (fun r => r.status) = [Status.ok.code16]

/-- All rounds report `kOk`, one after the other. -/
def RoundsReportOk (s : Device) : List Round → Prop
  | []              => True
  | round :: rounds => round.ReportsOk s ∧ RoundsReportOk (round.next s) rounds

/-- The table has the same shape, and marks only went up. -/
def Grown (s t : Device) : Prop := SameShape s t ∧ ∀ i, (s.allocations i).uploaded ≤ (t.allocations i).uploaded

theorem le_max32 (a b : UInt32) : a ≤ max32 a b := by
  rw [UInt32.le_iff_toNat_le, max32_toNat]
  exact Nat.le_max_left _ _

theorem grown_staged (s : Device) (i : Fin kMaxAllocations) (p : ParsedDescriptor) : Grown s (s.staged i p) := by
  refine ⟨sameShape_staged s i p, ?_⟩
  intro j
  unfold staged
  cases p.input with
  | none => exact UInt32.le_refl _
  | some bs =>
    show (s.allocations j).uploaded ≤ (Function.update s.allocations i _ j).uploaded
    by_cases hj : j = i
    · subst hj; rw [Function.update_self]; exact le_max32 _ _
    · rw [Function.update_of_ne hj]; exact UInt32.le_refl _

theorem grown_descriptor {s t : Device} {batchSize share : UInt32} {p : ParsedDescriptor}
    {r : CompletionRecordV1} (hd : DescriptorStep s batchSize share p t r) : Grown s t := by
  cases hd with
  | badInput | notUploaded => exact ⟨SameShape.refl s, fun _ => UInt32.le_refl _⟩
  | badOutput i | noSlot i | accepted i => exact grown_staged s i p

/-- A round that was valid stays valid as the table grows. -/
theorem Round.Valid.grown {s t : Device} {round : Round} (h : round.Valid s) (hg : Grown s t) : round.Valid t := by
  obtain ⟨i, hi, hup⟩ := h.input
  refine ⟨h.accepted, h.parsed, ⟨i, ?_, ?_⟩, ?_, h.read, h.room⟩
  · rw [hg.1.inputSlot]; exact hi
  · intro hnone
    exact UInt32.le_trans (hup hnone) (hg.2 i)
  · rw [hg.1.outputOk]; exact h.output

/-- **One round**, from an empty queue: the queue is empty again, and the round reports `kOk` and adds a job
    exactly when fewer than sixteen were accepted before. -/
theorem round_step {s : Device} {round : Round} (hs : JobsSound s) (hempty : s.completions.contents = [])
    (hv : round.Valid s) :
    (round.next s).completions.contents = [] ∧ Grown s (round.next s) ∧
    (round.ReportsOk s ↔ s.acceptedJobs < 16) ∧
    (s.acceptedJobs < 16 → (round.next s).acceptedJobs = s.acceptedJobs + 1) := by
  obtain ⟨t, r, hd, hwrite⟩ := writeBlock_single (s := s) hv.accepted hv.parsed
  -- the record goes into the empty queue
  have hqueue := (descriptor_queue hd).2.2
  have hroom : t.completions.count < kCompletionQueueDepth := by
    rw [hqueue, ← Ring.contents_length, hempty]
    decide
  obtain ⟨hflag, -, hcont⟩ := pushCompletion_room hroom r
  rw [hqueue, hempty, List.nil_append] at hcont
  rw [hflag] at hwrite
  have hstep : s.step round.write = ((t.pushCompletion r).1.setResult .ok, .status .ok) := by
    rw [Round.write, step_writeBlock, hwrite]
    rfl
  generalize hu : (t.pushCompletion r).1.setResult .ok = u at hstep
  have hucont : u.completions.contents = [r] := by rw [← hu]; exact hcont
  -- and the F5 takes it out
  obtain ⟨q, hq, hread⟩ : ∃ q, q.contents = [] ∧
      u.readBlock kSelectorCompletion round.readWord (some round.outBytes) =
        ({ u with completions := q }.setResult .ok, kCompletionBytes,
          recordBytes [r] ++ List.replicate (round.outBytes - kCompletionBytes) 0) := by
    have hone : u.readCount round.readWord round.outBytes = 1 := by
      have hdiv : 1 ≤ min (readLength round.readWord) round.outBytes / kCompletionBytes :=
        (Nat.le_div_iff_mul_le (by decide)).mpr (by rw [Nat.one_mul]; exact hv.room)
      unfold readCount
      rw [← Ring.contents_length, hucont]
      exact Nat.min_eq_left hdiv
    rcases readBlock_cases u kSelectorCompletion round.readWord (some round.outBytes) with
      ⟨-, hno⟩ | ⟨n, q, hn, -, hsplit, heq⟩
    · exact absurd hv.read (hno _ rfl)
    · cases hn
      rw [hone, hucont] at hsplit
      rw [hone, hucont] at heq
      exact ⟨q, by simpa using hsplit, heq⟩
  have hnext : round.next s = { u with completions := q }.setResult .ok := by
    rw [Round.next, hstep, Round.drain, step_readBlock, hread]
  have hrecords : ((s.step round.write).1.step round.drain).2.records = [r] := by
    rw [hstep, Round.drain, step_readBlock, hread]
    simp only [Response.records]
    exact decodeRecords_recordBytes _ [r]
  have hreports : round.ReportsOk s ↔ r.status = Status.ok.code16 := by
    unfold Round.ReportsOk
    rw [hrecords, hstep]
    simp
  have hjobs : (round.next s).acceptedJobs = t.acceptedJobs := by
    rw [hnext, ← hu]
    show (issuedJobs (t.pushCompletion r).1.trace).length = _
    rw [pushCompletion_trace, issuedJobs_completion]
    rfl
  refine ⟨?_, ?_, ?_, ?_⟩
  · -- drained again
    rw [hnext]; exact hq
  · obtain ⟨hshape, hmarks⟩ := grown_descriptor hd
    rw [hnext, ← hu]
    exact ⟨hshape, hmarks⟩
  · rw [hreports]
    rcases descriptor_ready hs hv.input hd with ⟨hout, -⟩ | ⟨-, hge, hst, -⟩ | ⟨-, hlt, hst, -⟩
    · rw [hv.output] at hout; cases hout
    · rw [hst]
      refine ⟨fun h => ?_, fun hlt => absurd hge (Nat.not_le.mpr hlt)⟩
      cases Status.code16_inj h
    · exact ⟨fun _ => hlt, fun _ => hst⟩
  · intro hlt
    rw [hjobs]
    rcases descriptor_ready hs hv.input hd with ⟨hout, -⟩ | ⟨-, hge, -, -⟩ | ⟨-, -, -, hadd⟩
    · rw [hv.output] at hout; cases hout
    · exact absurd hge (Nat.not_le.mpr hlt)
    · exact hadd

/-- **Any number of rounds**, by induction: all report `kOk` exactly when the jobs they add still fit. -/
theorem rounds_report_ok :
    ∀ (rounds : List Round) {s : Device}, JobsSound s → s.completions.contents = [] →
      (∀ round ∈ rounds, round.Valid s) →
      (RoundsReportOk s rounds ↔ s.acceptedJobs + rounds.length ≤ 16) := by
  intro rounds
  induction rounds with
  | nil =>
    intro s hs _ _
    exact ⟨fun _ => hs.count_le, fun _ => trivial⟩
  | cons round rounds ih =>
    intro s hs hempty hvalid
    obtain ⟨hempty', hgrown, hok, hadd⟩ := round_step hs hempty (hvalid round (by simp))
    have hs' : JobsSound (round.next s) := jobsSound_step _ (jobsSound_step _ hs)
    -- a round only raises marks, so the rounds to come stay valid
    have hrest := ih hs' hempty' (fun r hr => (hvalid r (List.mem_cons_of_mem round hr)).grown hgrown)
    rw [RoundsReportOk, hok, hrest, List.length_cons]
    constructor
    · rintro ⟨hlt, hle⟩
      rw [hadd hlt] at hle
      omega
    · intro hle
      have hlt : s.acceptedJobs < 16 := by omega
      rw [hadd hlt]
      exact ⟨hlt, by omega⟩

/-- **When a submission finds a job slot.** After every run, answered or not, with `k` jobs accepted since
    `Reset`: a SUBMIT over a live allocation avoids `kQueueFull` iff `k < 16`; the record of a block of one
    descriptor with its input in place avoids `kQueueFull` iff `k < 16` (or its output range is refused, which is
    found first); and from an empty queue any list of valid submit-and-drain rounds all report `kOk` iff the jobs
    they add keep the total within sixteen. -/
theorem job_slot_available_iff (config : Config) (ops : List WireOp) :
    let s := after config ops
    let k := (issuedJobs s.trace).length
    (∀ sequence i, s.allocationForHandle (s.stage kArg0) = some i →
      ((s.exec HighCommand.submit.code sequence).stage kResult ≠ Status.queueFull.code ↔ k < 16)) ∧
    (∀ selector word bytes p, BlockAccepted selector word bytes → parse bytes (blockLength word) = .ok [p] →
      InputReady s p →
      ∃ r, produced (s.writeBlock selector word (some bytes)).1.trace = produced s.trace ++ [r] ∧
        (r.status ≠ Status.queueFull.code16 ↔ k < 16 ∨ s.outputOk p.desc = false)) ∧
    (∀ rounds, s.completions.contents = [] → (∀ round ∈ rounds, round.Valid s) →
      (RoundsReportOk s rounds ↔ k + rounds.length ≤ 16)) := by
  intro s k
  have hs : JobsSound s := jobsSound_after config ops
  refine ⟨fun sequence i hslot => submit_queueFull hs hslot sequence, ?_, fun rounds => rounds_report_ok rounds hs⟩
  intro selector word bytes p hacc hparse hin
  obtain ⟨t, r, hd, hwrite⟩ := writeBlock_single (s := s) hacc hparse
  refine ⟨r, ?_, ?_⟩
  · rw [hwrite]
    show produced (t.pushCompletion r).1.trace = _
    rw [pushCompletion_produced, (descriptor_queue hd).2.1]
  · -- the output check comes before the search for a slot
    rcases descriptor_ready hs hin hd with ⟨hout, hst⟩ | ⟨hout, hge, hst, -⟩ | ⟨hout, hlt, hst, -⟩
    · rw [hst]
      exact ⟨fun _ => Or.inr hout, fun _ h => by cases Status.code16_inj h⟩
    · rw [hst]
      refine ⟨fun h => absurd rfl h, ?_⟩
      rintro (hlt | hno)
      · exact absurd hge (Nat.not_le.mpr hlt)
      · rw [hout] at hno; cases hno
    · rw [hst]
      exact ⟨fun _ => Or.inl hlt, fun _ h => by cases Status.code16_inj h⟩

/-- ALLOC, fourteen SUBMITs of it. -/
def fourteenJobs : List WireOp :=
  [.writeReg 0 16, .exec HighCommand.alloc.code 0, .writeReg 0 1] ++
    List.replicate 14 (.exec HighCommand.submit.code 0)

/-- `sampleBlock` submitted, and its record fetched. -/
def sampleRounds : Round where
  word     := 68
  bytes    := sampleBlock
  p        := ⟨gpkBuildDescriptor 1 1 4 1 16, some [1, 2, 3, 4]⟩
  readWord := 0x00400000
  outBytes := 64

/-- After fourteen jobs a SUBMIT finds a slot, and two rounds of a block and its record report `kOk`, but not three. -/
theorem job_slot_available_iff_sixteenth :
    let s := after { hasPool := true, poolBytes := 65536 } fourteenJobs
    (s.exec HighCommand.submit.code 0).stage kResult ≠ Status.queueFull.code ∧
    RoundsReportOk s [sampleRounds, sampleRounds] ∧ ¬RoundsReportOk s [sampleRounds, sampleRounds, sampleRounds] := by
  intro s
  have hlive : s.allocationForHandle (s.stage kArg0) = some 0 := by decide +kernel
  have hjobs : (issuedJobs s.trace).length = 14 := by decide +kernel
  have hempty : s.completions.contents = [] := by decide +kernel
  have hslot : s.inputSlot sampleRounds.p.desc = some 0 := by decide +kernel
  have hvalid : sampleRounds.Valid s :=
    ⟨by decide +kernel, by decide +kernel, ⟨0, hslot, fun hnone => by cases hnone⟩, by decide +kernel, by decide,
      by decide⟩
  have hslots := job_slot_available_iff { hasPool := true, poolBytes := 65536 } fourteenJobs
  rw [show after { hasPool := true, poolBytes := 65536 } fourteenJobs = s from rfl] at hslots
  clear_value s
  obtain ⟨hsubmit, -, hrounds⟩ := hslots
  refine ⟨(hsubmit 0 0 hlive).mpr (by rw [hjobs]; decide), ?_, ?_⟩
  · refine (hrounds [sampleRounds, sampleRounds] hempty ?_).mpr (by rw [hjobs]; decide)
    simp [hvalid]
  · intro hthree
    have hmany := (hrounds [sampleRounds, sampleRounds, sampleRounds] hempty (by simp [hvalid])).mp hthree
    rw [hjobs] at hmany
    exact absurd hmany (by decide)

end Device

end GekkoPak
