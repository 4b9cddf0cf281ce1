import GekkoPak.Device.Correctness.Jobs

/-!
# `Device.Correctness.Batch` — one block of many descriptors, many blocks of one

How many descriptors share a block is visible in the modeled times and in nothing else: `Agree` is equality of
pool, tables and queue up to the four timing fields, every descriptor keeps it whatever block it stands in
(`Agree.processDescriptor`), and so a batch and its descriptors submitted one by one end in the same state.

Inside a block, a descriptor that is refused is not undone: inline input is copied in before the output range and
the job table are looked at (`failed_descriptor_untouched_iff` says when that leaves nothing behind).
-/

namespace GekkoPak

open Basis

/-- A job without its modeled time. -/
def Job.untimed (job : Job) : Job := { job with modeledUs := 0, speedupX1000 := 0 }

/-- A record without its modeled time and the size of its batch. -/
def CompletionRecordV1.untimed (r : CompletionRecordV1) : CompletionRecordV1 :=
  { r with modeledUs := 0, speedupX1000 := 0, transportUsX1000 := 0, batchSize := 0 }

namespace Device

/-- Equal but for timing. -/
structure Agree (s t : Device) : Prop where
  pool        : s.pool = t.pool
  allocations : s.allocations = t.allocations
  nextJob     : s.nextJob = t.nextJob
  jobs        : ∀ i, (s.jobs i).untimed = (t.jobs i).untimed
  queue       : s.completions.contents.map CompletionRecordV1.untimed =
    t.completions.contents.map CompletionRecordV1.untimed

namespace Agree

variable {s t : Device}

theorem refl (s : Device) : Agree s s := ⟨rfl, rfl, rfl, fun _ => rfl, rfl⟩

theorem count (h : Agree s t) : s.completions.count = t.completions.count := by
  have hlen := congrArg List.length h.queue
  simpa using hlen

theorem allocationForHandle (h : Agree s t) (handle : UInt32) :
    s.allocationForHandle handle = t.allocationForHandle handle := by
  unfold Device.allocationForHandle
  rw [h.allocations]

theorem inputSlot (h : Agree s t) (desc : JobDescriptorV1) : s.inputSlot desc = t.inputSlot desc := by
  unfold Device.inputSlot
  rw [h.allocationForHandle, h.allocations]

theorem outputOk (h : Agree s t) (desc : JobDescriptorV1) : s.outputOk desc = t.outputOk desc := by
  unfold Device.outputOk
  rw [h.allocationForHandle, h.allocations]

theorem freeJobSlot (h : Agree s t) : s.freeJobSlot = t.freeJobSlot := by
  have hlive : ∀ i, (s.jobs i).live = (t.jobs i).live := by
    intro i
    have huntimed : (s.jobs i).untimed.live = (t.jobs i).untimed.live := by rw [h.jobs i]
    exact huntimed
  unfold Device.freeJobSlot
  simp only [hlive]

theorem pushCompletion (h : Agree s t) {r r' : CompletionRecordV1} (hr : r.untimed = r'.untimed) :
    Agree (s.pushCompletion r).1 (t.pushCompletion r').1 := by
  refine ⟨h.pool, h.allocations, h.nextJob, h.jobs, ?_⟩
  have hcount := h.count
  rcases Nat.lt_or_ge s.completions.count kCompletionQueueDepth with hlt | hge
  · rw [(pushCompletion_room hlt r).2.2, (pushCompletion_room (hcount ▸ hlt) r').2.2, List.map_append,
      List.map_append, h.queue, List.map_singleton, List.map_singleton, hr]
  · rw [(pushCompletion_full hge r).2.2, (pushCompletion_full (hcount ▸ hge) r').2.2]
    exact h.queue

theorem refuse (h : Agree s t) {c c' : CompletionRecordV1} (hc : c.untimed = c'.untimed) (st : Status) :
    Agree (s.refuse c st).1 (t.refuse c' st).1 :=
  h.pushCompletion (congrArg (fun r : CompletionRecordV1 => { r with status := st.code16 }) hc)

theorem stageInline (h : Agree s t) (i : Fin kMaxAllocations) (desc : JobDescriptorV1) (bs : List UInt8) :
    Agree (s.stageInline i desc bs) (t.stageInline i desc bs) := by
  refine ⟨?_, ?_, h.nextJob, h.jobs, h.queue⟩
  · show s.pool.write _ bs = t.pool.write _ bs
    rw [h.pool, h.allocations]
  · show Function.update s.allocations i _ = Function.update t.allocations i _
    rw [h.allocations]

theorem issueJob (h : Agree s t) (slot : Fin kMaxJobs) {job job' : Job} (hjob : job.untimed = job'.untimed) :
    Agree (s.issueJob slot job) (t.issueJob slot job') := by
  refine ⟨h.pool, h.allocations, ?_, ?_, h.queue⟩
  · show s.nextJob + 1 = t.nextJob + 1
    rw [h.nextJob]
  · intro i
    show (Function.update s.jobs slot job i).untimed = (Function.update t.jobs slot job' i).untimed
    by_cases hi : i = slot
    · rw [hi, Function.update_self, Function.update_self]
      exact hjob
    · rw [Function.update_of_ne hi, Function.update_of_ne hi]
      exact h.jobs i

/-- The part after the input is in place. The share of the transport goes into the times only. -/
theorem runDescriptor (h : Agree s t) (i : Fin kMaxAllocations) (desc : JobDescriptorV1)
    {c c' : CompletionRecordV1} (hc : c.untimed = c'.untimed) (share share' : UInt32) :
    Agree (s.runDescriptor i desc c share).1 (t.runDescriptor i desc c' share').1 := by
  unfold Device.runDescriptor
  rw [h.outputOk, h.freeJobSlot]
  cases t.outputOk desc with
  | false => exact h.refuse hc .badHandle
  | true =>
    simp only [Bool.not_true, Bool.false_eq_true, if_false]
    cases t.freeJobSlot with
    | none => exact h.refuse hc .queueFull
    | some slot =>
      have hsum : fnv1a (s.pool.read ((s.allocations i).offset.toNat + desc.inputOffset.toNat) desc.inputLength.toNat)
          = fnv1a (t.pool.read ((t.allocations i).offset.toNat + desc.inputOffset.toNat) desc.inputLength.toNat) := by
        rw [h.pool, h.allocations]
      have hhash : Agree (s.poolHash desc.inputHandle
            ((s.allocations i).offset.toNat + desc.inputOffset.toNat) desc.inputLength.toNat).1
          (t.poolHash desc.inputHandle
            ((t.allocations i).offset.toNat + desc.inputOffset.toNat) desc.inputLength.toNat).1 :=
        ⟨h.pool, h.allocations, h.nextJob, h.jobs, h.queue⟩
      refine (hhash.issueJob slot ?_).pushCompletion ?_
      · simp only [Job.untimed, poolHash, record_nextJob, hsum, h.nextJob]
      · have hrec := congrArg (fun r : CompletionRecordV1 => { r with
          jobHandle := t.nextJob
          checksum := fnv1a (t.pool.read ((t.allocations i).offset.toNat + desc.inputOffset.toNat)
            desc.inputLength.toNat) }) hc
        simp only [CompletionRecordV1.untimed, poolHash, record_nextJob, hsum, h.nextJob] at hrec ⊢
        exact hrec

/-- **A descriptor does the same in whatever block it stands**, up to timing. -/
theorem processDescriptor (h : Agree s t) (n n' share share' : UInt32) (p : ParsedDescriptor) :
    Agree (s.processDescriptor n share p).1 (t.processDescriptor n' share' p).1 := by
  have hc : (completionFor p.desc n share).untimed = (completionFor p.desc n' share').untimed := rfl
  unfold Device.processDescriptor
  rw [h.inputSlot]
  cases t.inputSlot p.desc with
  | none => exact h.refuse hc .badHandle
  | some i =>
    cases p.input with
    | some bs => exact (h.stageInline i p.desc bs).runDescriptor i p.desc hc share share'
    | none =>
      simp only [h.allocations]
      split
      · exact h.refuse hc .badDescriptor
      · exact h.runDescriptor i p.desc hc share share'

theorem setResult (h : Agree s t) (st : Status) : Agree s (t.setResult st) :=
  ⟨h.pool, h.allocations, h.nextJob, h.jobs, h.queue⟩

end Agree

/-! ## A batch and its descriptors one by one -/

/-- `op` is an F4 that is accepted at the door and holds the descriptors `ps`. -/
def Submits (ps : List ParsedDescriptor) (op : WireOp) : Prop :=
  ∃ word bytes, op = .writeBlock kSelectorSubmission word (some bytes) ∧
    BlockAccepted kSelectorSubmission word bytes ∧ parse bytes (blockLength word) = .ok ps

/-- What an F4 that holds `ps` does. -/
theorem step_submits {ps : List ParsedDescriptor} {op : WireOp} (h : Submits ps op) (s : Device) :
    ∃ st, (s.step op).1 = (s.runBlock ps).1.setResult st := by
  obtain ⟨word, bytes, rfl, hacc, hparse⟩ := h
  exact ⟨_, congrArg Prod.fst (writeBlock_parsed hacc hparse)⟩

theorem Submits.length_le {ps : List ParsedDescriptor} {op : WireOp} (h : Submits ps op) : ps.length ≤ 8 := by
  obtain ⟨word, bytes, -, ⟨-, -, hblock, hlen⟩, hparse⟩ := h
  obtain ⟨-, rest, hdec, -⟩ := (parse_eq_ok hlen hblock).mp hparse
  have hsum : 64 * ps.length + rest.length ≤ (bytes.take (blockLength word)).length := hdec.length_le
  have hbound : blockLength word ≤ 512 := hblock
  rw [List.length_take] at hsum
  omega

/-- The F4 of a client: the descriptors with their inline inputs, padded with zeros to a whole block. -/
def submission (ps : List ParsedDescriptor) : WireOp :=
  .writeBlock kSelectorSubmission (UInt32.ofNat (encodeBlock ps).length)
    (some (encodeBlock ps ++ List.replicate (kBlockBytes - (encodeBlock ps).length) 0))

theorem submits_submission {ps : List ParsedDescriptor} (hne : ps ≠ []) (hwf : ∀ p ∈ ps, p.WellFormed)
    (hfit : (encodeBlock ps).length ≤ kBlockBytes) : Submits ps (submission ps) := by
  have hblock : (encodeBlock ps).length ≤ 512 := hfit
  have hpos : (encodeBlock ps).length ≠ 0 := by
    obtain ⟨p, rest, rfl⟩ := List.exists_cons_of_ne_nil hne
    rw [encodeBlock_cons, ParsedDescriptor.encode]
    simp [kDescriptorBytes]
  have hlen : blockLength (UInt32.ofNat (encodeBlock ps).length) = (encodeBlock ps).length := by
    have hnat : (UInt32.ofNat (encodeBlock ps).length).toNat = (encodeBlock ps).length :=
      UInt32.toNat_ofNat_of_lt' (by simp only [UInt32.size]; omega)
    unfold blockLength
    rw [UInt32.toNat_and, hnat, show (0xFFFF : UInt32).toNat = 2 ^ 16 - 1 from rfl, Nat.and_two_pow_sub_one_eq_mod]
    omega
  have hle : (encodeBlock ps).length ≤
      (encodeBlock ps ++ List.replicate (kBlockBytes - (encodeBlock ps).length) (0 : UInt8)).length := by
    rw [List.length_append]
    exact Nat.le_add_right _ _
  refine ⟨_, _, rfl, ⟨rfl, ?_, ?_, ?_⟩, ?_⟩
  · rw [hlen]; exact hpos
  · rw [hlen]; exact hfit
  · rw [hlen]; exact hle
  · rw [hlen, parse_eq_ok hle hfit, List.take_left]
    exact ⟨hne, [], ⟨hwf, (List.append_nil _).symm⟩, Or.inl (by decide)⟩

/-- The loop over a batch, against one block for each of its descriptors. -/
theorem agree_batch (config : Config) (n share : UInt32) {singles : List WireOp} {ps : List ParsedDescriptor}
    (hsingles : List.Forall₂ (fun op p => Submits [p] op) singles ps) :
    ∀ {s t : Device} (dropped : Bool), Agree s t →
      Agree (s.processDescriptors n share ps dropped).1 ((machine config).runFrom t singles) := by
  induction hsingles with
  | nil => intro s t dropped h; exact h
  | @cons op p singles ps hop _ ih =>
    intro s t dropped h
    obtain ⟨st, hstep⟩ := step_submits hop t
    have hone : (t.runBlock [p]).1 =
        (t.processDescriptor (UInt32.ofNat 1) (t.transportShare (UInt32.ofNat 1)) p).1 := rfl
    have hnext : (machine config).next t op = (t.runBlock [p]).1.setResult st := hstep
    show Agree (Device.processDescriptors _ n share ps _).1 ((machine config).runFrom ((machine config).next t op) singles)
    rw [hnext, hone]
    exact ih _ ((h.processDescriptor _ _ _ _ p).setResult st)

/-- **Batching is a pure optimisation.** After every run, for every list of well-formed descriptors that fits in a
    block: it can be submitted as one F4, and each of its descriptors in an F4 of its own; and whichever way the
    blocks are laid out, the two submissions lead to the same pool, allocation table, next handle and queue length,
    and to jobs and queued records that differ in timing alone. -/
theorem batching_pure (config : Config) (ops : List WireOp) (ps : List ParsedDescriptor) (hne : ps ≠ [])
    (hwf : ∀ p ∈ ps, p.WellFormed) (hfit : (encodeBlock ps).length ≤ kBlockBytes) :
    Submits ps (submission ps) ∧ List.Forall₂ (fun op p => Submits [p] op) (ps.map (fun p => submission [p])) ps ∧
    ∀ batch singles, Submits ps batch → List.Forall₂ (fun op p => Submits [p] op) singles ps →
      let one := after config (ops ++ [batch])
      let many := after config (ops ++ singles)
      one.pool = many.pool ∧ one.allocations = many.allocations ∧ one.nextJob = many.nextJob ∧
      one.completions.count = many.completions.count ∧ (∀ i, (one.jobs i).untimed = (many.jobs i).untimed) ∧
      one.completions.contents.map CompletionRecordV1.untimed =
        many.completions.contents.map CompletionRecordV1.untimed := by
  refine ⟨submits_submission hne hwf hfit, ?_, ?_⟩
  · have hpart : ∀ p ∈ ps, (encodeBlock [p]).length ≤ kBlockBytes := by
      intro p hp
      refine Nat.le_trans ?_ hfit
      have hone : encodeBlock [p] = p.encode := List.append_nil _
      rw [hone]
      exact (List.sublist_flatten_of_mem (List.mem_map_of_mem hp)).length_le
    rw [List.forall₂_map_left_iff, List.forall₂_same]
    intro p hp
    refine submits_submission (by simp) ?_ (hpart p hp)
    intro q hq
    rw [List.mem_singleton.mp hq]
    exact hwf p hp
  · intro batch singles hbatch hsingles one many
    obtain ⟨st, hstep⟩ := step_submits hbatch (after config ops)
    have hone : one = ((after config ops).runBlock ps).1.setResult st := by
      show (machine config).run (ops ++ [batch]) = _
      rw [Machine.run_concat]
      exact hstep
    have hmany : many = (machine config).runFrom (after config ops) singles := Machine.run_append _ ops singles
    have hagree : Agree one many := by
      rw [hone, hmany]
      have h := agree_batch config (UInt32.ofNat ps.length)
        ((after config ops).transportShare (UInt32.ofNat ps.length)) hsingles false (Agree.refl (after config ops))
      exact ⟨h.pool, h.allocations, h.nextJob, h.jobs, h.queue⟩
    exact ⟨hagree.pool, hagree.allocations, hagree.nextJob, hagree.count, hagree.jobs, hagree.queue⟩

/-- Two descriptors over the same four bytes of one buffer. -/
theorem batching_pure_overwrite :
    let config : Config := { hasPool := true, poolBytes := 65536 }
    let ops : List WireOp := [.writeReg 0 16, .exec HighCommand.alloc.code 0]
    let ps : List ParsedDescriptor := [⟨gpkBuildDescriptor 1 1 4 1 16, some [1, 2, 3, 4]⟩,
      ⟨gpkBuildDescriptor 2 1 4 1 16, some [5, 6, 7, 8]⟩]
    (after config (ops ++ [submission ps])).completions.contents.map CompletionRecordV1.untimed =
      (after config (ops ++ ps.map (fun p => submission [p]))).completions.contents.map CompletionRecordV1.untimed := by
  intro config ops ps
  have hwf : ∀ p ∈ ps, p.WellFormed := by
    intro p hp
    rcases List.mem_pair.mp hp with rfl | rfl <;> exact ⟨rfl, by decide, by decide⟩
  obtain ⟨hbatch, hsingles, hagree⟩ := batching_pure config ops ps (by simp [ps]) hwf (by decide +kernel)
  exact (hagree _ _ hbatch hsingles).2.2.2.2.2

/-! ## A descriptor that is refused -/

/-- The device inside an F4 that holds `parsed`, when the descriptors `done` have been settled. -/
def midBlock (s : Device) (parsed done : List ParsedDescriptor) : Device :=
  (s.processDescriptors (UInt32.ofNat parsed.length) (s.transportShare (UInt32.ofNat parsed.length)) done false).1

theorem processDescriptors_concat (n share : UInt32) (done : List ParsedDescriptor) (p : ParsedDescriptor) :
    ∀ (s : Device) (dropped : Bool), (s.processDescriptors n share (done ++ [p]) dropped).1 =
      ((s.processDescriptors n share done dropped).1.processDescriptor n share p).1 := by
  induction done with
  | nil => intro s dropped; rfl
  | cons q done ih => intro s dropped; exact ih _ _

/-- Pool, tables and next handle are the same. -/
def Untouched (s t : Device) : Prop :=
  t.pool = s.pool ∧ t.allocations = s.allocations ∧ t.jobs = s.jobs ∧ t.nextJob = s.nextJob

/-- The inline input of `p`, if it would be copied in at all, is in the buffer already and marked as uploaded. -/
def InputInPlace (s : Device) (p : ParsedDescriptor) : Prop :=
  ∀ bs i, p.input = some bs → s.inputSlot p.desc = some i →
    s.pool.read ((s.allocations i).offset.toNat + p.desc.inputOffset.toNat) bs.length = bs ∧
    p.desc.inputOffset + p.desc.inputLength ≤ (s.allocations i).uploaded

theorem max32_eq_left {a b : UInt32} : max32 a b = a ↔ b ≤ a := by
  rw [← UInt32.toNat_inj, max32_toNat, UInt32.le_iff_toNat_le]
  omega

/-- What staging leaves behind. -/
theorem untouched_staged {s : Device} {p : ParsedDescriptor} {i : Fin kMaxAllocations}
    (hin : s.inputSlot p.desc = some i) : Untouched s (s.staged i p) ↔ s.InputInPlace p := by
  unfold staged
  cases hp : p.input with
  | none =>
    refine ⟨fun _ bs j hbs => ?_, fun _ => ⟨rfl, rfl, rfl, rfl⟩⟩
    rw [hp] at hbs
    cases hbs
  | some bs =>
    have hpool : (s.stageInline i p.desc bs).pool = s.pool ↔
        s.pool.read ((s.allocations i).offset.toNat + p.desc.inputOffset.toNat) bs.length = bs := Mem.write_eq_self
    have htable : (s.stageInline i p.desc bs).allocations = s.allocations ↔
        p.desc.inputOffset + p.desc.inputLength ≤ (s.allocations i).uploaded := by
      show Function.update s.allocations i _ = s.allocations ↔ _
      rw [Function.update_eq_self_iff, ← max32_eq_left]
      constructor
      · intro h
        exact congrArg Allocation.uploaded h
      · intro h
        rw [h]
    constructor
    · rintro ⟨h1, h2, -, -⟩ bs' j hbs hj
      obtain rfl := Option.some.inj (hp.symm.trans hbs)
      obtain rfl := Option.some.inj (hin.symm.trans hj)
      exact ⟨hpool.mp h1, htable.mp h2⟩
    · intro h
      obtain ⟨h1, h2⟩ := h bs i hp hin
      exact ⟨hpool.mpr h1, htable.mpr h2, rfl, rfl⟩

/-- One turn of the loop at a descriptor that is refused. -/
theorem refused_untouched_iff (s : Device) (n share : UInt32) (p : ParsedDescriptor) :
    ∃ r, produced (s.processDescriptor n share p).1.trace = produced s.trace ++ [r] ∧
      (r.status ≠ Status.ok.code16 → (Untouched s (s.processDescriptor n share p).1 ↔ s.InputInPlace p)) := by
  obtain ⟨t, r, hd, heq⟩ := processDescriptor_step s n share p
  rw [heq]
  refine ⟨r, ?_, ?_⟩
  · rw [pushCompletion_produced, (descriptor_queue hd).2.1]
  · intro hst
    show Untouched s t ↔ _   -- the record goes to the queue
    cases hd with
    | badInput hin =>
      refine ⟨fun _ bs i _ hi => ?_, fun _ => ⟨rfl, rfl, rfl, rfl⟩⟩
      rw [hin] at hi
      cases hi
    | notUploaded i _ hnone =>
      refine ⟨fun _ bs j hbs => ?_, fun _ => ⟨rfl, rfl, rfl, rfl⟩⟩
      rw [hnone] at hbs
      cases hbs
    | badOutput i hin | noSlot i hin => exact untouched_staged hin
    | accepted => exact absurd rfl hst

/-- **When a refused descriptor leaves no trace.** After every run, for every F4 that parses: it settles its
    descriptors one after the other; each produces one record, and if that is not `kOk`, the descriptor has left
    pool, allocation table, job table and next handle as they were iff its inline input was in place already. -/
theorem failed_descriptor_untouched_iff (config : Config) (ops : List WireOp) {op : WireOp}
    {parsed : List ParsedDescriptor} (hop : Submits parsed op) :
    (∃ st, (after config (ops ++ [op])) = ((after config ops).midBlock parsed parsed).setResult st) ∧
    ∀ done p rest, parsed = done ++ p :: rest →
      let s := (after config ops).midBlock parsed done
      let t := (after config ops).midBlock parsed (done ++ [p])
      ∃ r, produced t.trace = produced s.trace ++ [r] ∧
        (r.status ≠ Status.ok.code16 → (Untouched s t ↔ s.InputInPlace p)) := by
  constructor
  · obtain ⟨st, hstep⟩ := step_submits hop (after config ops)
    refine ⟨st, ?_⟩
    show (machine config).run (ops ++ [op]) = _
    rw [Machine.run_concat]
    exact hstep
  · intro done p rest _ s t
    have ht : t = (s.processDescriptor (UInt32.ofNat parsed.length)
        ((after config ops).transportShare (UInt32.ofNat parsed.length)) p).1 :=
      processDescriptors_concat _ _ done p (after config ops) false
    rw [ht]
    exact refused_untouched_iff s _ _ p

/-- A descriptor with inline input whose output handle was never allocated. -/
def strayOutput : ParsedDescriptor :=
  ⟨{ gpkBuildDescriptor 1 1 4 1 16 with outputHandle := 9 }, some [1, 2, 3, 4]⟩

theorem submits_strayOutput : Submits [strayOutput] (submission [strayOutput]) := by
  refine submits_submission (by simp) ?_ (by decide +kernel)
  intro p hp
  rw [List.mem_singleton.mp hp]
  exact ⟨rfl, by decide, by decide⟩

/-- After ALLOC and one submission of `strayOutput` the bytes are in place, so a second one changes nothing. -/
theorem failed_descriptor_repeated :
    let config : Config := { hasPool := true, poolBytes := 65536 }
    let ops : List WireOp := [.writeReg 0 16, .exec HighCommand.alloc.code 0, submission [strayOutput]]
    let s := (after config ops).midBlock [strayOutput] []
    Untouched s ((after config ops).midBlock [strayOutput] [strayOutput]) := by
  intro config ops s
  obtain ⟨-, hall⟩ := failed_descriptor_untouched_iff config ops submits_strayOutput
  obtain ⟨r, hr, hiff⟩ := hall [] strayOutput [] rfl
  have hplace : s.InputInPlace strayOutput := by
    intro bs i hbs hi
    obtain rfl : [1, 2, 3, 4] = bs := Option.some.inj hbs
    obtain rfl : 0 = i := Option.some.inj ((show s.inputSlot strayOutput.desc = some 0 by decide +kernel).symm.trans hi)
    decide +kernel
  refine (hiff ?_).mpr hplace
  have hlast : (produced ((after config ops).midBlock [strayOutput] [strayOutput]).trace).map (fun r => r.status) =
      (produced s.trace).map (fun r => r.status) ++ [Status.badHandle.code16] := by decide +kernel
  have hnew := congrArg (List.map (fun r => r.status)) hr
  rw [List.map_append] at hnew
  have hstatus := List.append_cancel_left (hnew.symm.trans hlast)
  rw [List.map_singleton] at hstatus
  rw [List.head_eq_of_cons_eq hstatus]
  decide

/-- The first submission of `strayOutput` is refused with `kBadHandle`, and its bytes stay in the pool. -/
theorem failed_descriptor_leaves_bytes :
    let config : Config := { hasPool := true, poolBytes := 65536 }
    let ops : List WireOp := [.writeReg 0 16, .exec HighCommand.alloc.code 0]
    let s := (after config ops).midBlock [strayOutput] []
    let t := (after config ops).midBlock [strayOutput] [strayOutput]
    Submits [strayOutput] (submission [strayOutput]) ∧
    (produced t.trace).map (fun r => r.status) = (produced s.trace).map (fun r => r.status) ++
      [Status.badHandle.code16] ∧ ¬ Untouched s t := by
  intro config ops s t
  refine ⟨submits_strayOutput, ?_, ?_⟩
  · decide +kernel
  · rintro ⟨hpool, -⟩
    have hbyte : t.pool 0 = s.pool 0 := by rw [hpool]
    exact absurd hbyte (by decide +kernel)

end Device

end GekkoPak
