import GekkoPak.Device.Correctness.Alloc

/-!
# `Device.Correctness.Queue` — completions: exactly once, in order, none lost silently

The history records every `PushCompletion` with its outcome. Two readings of it: `accepted`, the records the
queue took, and `produced`, all of them. The queue account is kept one operation at a time (`queue_step`): what
was in the queue and what the operation added is what it delivered and what is in the queue now. Over a run the
accounts add up to `accepted = delivered ++ contents`.
-/

namespace GekkoPak

open Basis

/-- The records the completion queue took, in order. -/
def accepted (trace : List Event) : List CompletionRecordV1 :=
  trace.filterMap (fun e =>
    match e with
    | .completion r true => some r
    | _ => none)

/-- The records produced, taken or not, in order. -/
def produced (trace : List Event) : List CompletionRecordV1 :=
  trace.filterMap (fun e =>
    match e with
    | .completion r _ => some r
    | _ => none)

theorem accepted_append (es es' : List Event) : accepted (es ++ es') = accepted es ++ accepted es' :=
  List.filterMap_append

theorem produced_append (es es' : List Event) : produced (es ++ es') = produced es ++ produced es' :=
  List.filterMap_append

section Events

variable (trace : List Event) (handle : UInt32) (start len : Nat) (job : Job)

theorem accepted_access : accepted (trace ++ [.access handle start len]) = accepted trace := by
  rw [accepted_append]
  exact List.append_nil _

theorem accepted_issued : accepted (trace ++ [.issued job]) = accepted trace := by
  rw [accepted_append]
  exact List.append_nil _

theorem produced_access : produced (trace ++ [.access handle start len]) = produced trace := by
  rw [produced_append]
  exact List.append_nil _

theorem produced_issued : produced (trace ++ [.issued job]) = produced trace := by
  rw [produced_append]
  exact List.append_nil _

end Events

/-- The record bytes a response carries. -/
def Response.delivered : Response → List UInt8
  | .block written out => out.take written
  | _ => []

/-- The record bytes of all responses of a run, one after the other. -/
def deliveredBytes (outs : List Response) : List UInt8 := outs.flatMap Response.delivered

namespace Device

/-! ## One push -/

theorem pushCompletion_trace (s : Device) (r : CompletionRecordV1) :
    (s.pushCompletion r).1.trace = s.trace ++ [.completion r (s.pushCompletion r).2] := rfl

theorem pushCompletion_produced (s : Device) (r : CompletionRecordV1) :
    produced (s.pushCompletion r).1.trace = produced s.trace ++ [r] := by
  rw [pushCompletion_trace, produced_append]
  rfl

/-- There was room: the record is taken and goes to the back. -/
theorem pushCompletion_room {s : Device} (h : s.completions.count < kCompletionQueueDepth)
    (r : CompletionRecordV1) :
    (s.pushCompletion r).2 = true ∧ accepted (s.pushCompletion r).1.trace = accepted s.trace ++ [r] ∧
      (s.pushCompletion r).1.completions.contents = s.completions.contents ++ [r] := by
  have hq : (s.pushCompletion r).2 = true := Ring.push_accepted.mpr h
  refine ⟨hq, ?_, Ring.contents_push h r⟩
  rw [pushCompletion_trace, hq, accepted_append]
  rfl

/-- There was none: the record is refused and the queue stays. -/
theorem pushCompletion_full {s : Device} (h : kCompletionQueueDepth ≤ s.completions.count)
    (r : CompletionRecordV1) :
    (s.pushCompletion r).2 = false ∧ accepted (s.pushCompletion r).1.trace = accepted s.trace ∧
      (s.pushCompletion r).1.completions.contents = s.completions.contents := by
  have hpush := Ring.push_full h r
  have hq : (s.pushCompletion r).2 = false := by
    show (s.completions.push r).2 = false
    rw [hpush]
  refine ⟨hq, ?_, ?_⟩
  · rw [pushCompletion_trace, hq, accepted_append]
    exact List.append_nil _
  · show (s.completions.push r).1.contents = _
    rw [hpush]

/-! ## The account of one operation -/

/-- From `s` to `t` the queue only grew, by records that were accepted. -/
def OnlyPushed (s t : Device) : Prop :=
  ∃ new, accepted t.trace = accepted s.trace ++ new ∧ t.completions.contents = s.completions.contents ++ new

theorem OnlyPushed.refl (s : Device) : OnlyPushed s s := ⟨[], (List.append_nil _).symm, (List.append_nil _).symm⟩

theorem OnlyPushed.of_quiet {s t u : Device} (h : OnlyPushed s t) (hq : Quiet t u) : OnlyPushed s u := by
  obtain ⟨new, ha, hc⟩ := h
  exact ⟨new, by rw [hq.trace]; exact ha, by rw [hq.completions]; exact hc⟩

/-- An F1 leaves the queue alone. -/
theorem exec_queue {s t : Device} {c : Option HighCommand} (hstep : ExecStep s c t) :
    accepted t.trace = accepted s.trace ∧ produced t.trace = produced s.trace ∧ t.completions = s.completions := by
  cases hstep with
  | refused | hello | getCaps | allocated | polled | collected | freed | completed => exact ⟨rfl, rfl, rfl⟩
  | uploaded i =>
    refine ⟨?_, ?_, rfl⟩
    · show accepted ((s.trace ++ [.access _ _ _]) ++ [.access _ _ _]) = _
      rw [accepted_access, accepted_access]
    · show produced ((s.trace ++ [.access _ _ _]) ++ [.access _ _ _]) = _
      rw [produced_access, produced_access]
  | submitted i slot =>
    refine ⟨?_, ?_, rfl⟩
    · show accepted ((s.trace ++ [.access _ _ _]) ++ [.issued _]) = _
      rw [accepted_issued, accepted_access]
    · show produced ((s.trace ++ [.access _ _ _]) ++ [.issued _]) = _
      rw [produced_issued, produced_access]

/-- An F5 leaves no trace. -/
theorem readBlock_trace (s : Device) (selector : UInt8) (word : UInt32) (out : Option Nat) :
    (s.readBlock selector word out).1.trace = s.trace := by
  rcases readBlock_cases s selector word out with ⟨heq, -⟩ | ⟨outBytes, q, -, -, -, heq⟩
  · rw [heq]; rfl
  · rw [heq]; rfl

theorem staged_queue (s : Device) (i : Fin kMaxAllocations) (p : ParsedDescriptor) :
    accepted (s.staged i p).trace = accepted s.trace ∧ produced (s.staged i p).trace = produced s.trace ∧
      (s.staged i p).completions = s.completions := by
  unfold staged
  cases p.input with
  | none => exact ⟨rfl, rfl, rfl⟩
  | some bs => exact ⟨accepted_access _ _ _ _, produced_access _ _ _ _, rfl⟩

/-- Before its record is pushed, a descriptor leaves the queue alone. -/
theorem descriptor_queue {s t : Device} {batchSize share : UInt32} {p : ParsedDescriptor}
    {r : CompletionRecordV1} (hd : DescriptorStep s batchSize share p t r) :
    accepted t.trace = accepted s.trace ∧ produced t.trace = produced s.trace ∧
      t.completions = s.completions := by
  cases hd with
  | badInput | notUploaded => exact ⟨rfl, rfl, rfl⟩
  | badOutput i | noSlot i => exact staged_queue s i p
  | accepted i slot =>
    obtain ⟨ha, hp, hc⟩ := staged_queue s i p
    refine ⟨?_, ?_, hc⟩
    · show GekkoPak.accepted (((s.staged i p).trace ++ [.access _ _ _]) ++ [.issued _]) = _
      rw [accepted_issued, accepted_access, ha]
    · show produced (((s.staged i p).trace ++ [.access _ _ _]) ++ [.issued _]) = _
      rw [produced_issued, produced_access, hp]

theorem onlyPushed_descriptor {s t u : Device} (h : OnlyPushed s t) {batchSize share : UInt32}
    {p : ParsedDescriptor} {r : CompletionRecordV1} (hd : DescriptorStep t batchSize share p u r) :
    OnlyPushed s (u.pushCompletion r).1 := by
  obtain ⟨new, ha, hc⟩ := h
  obtain ⟨ha', -, hc'⟩ := descriptor_queue hd
  rcases Nat.lt_or_ge u.completions.count kCompletionQueueDepth with hroom | hfull
  · obtain ⟨-, hacc, hcont⟩ := pushCompletion_room hroom r
    refine ⟨new ++ [r], ?_, ?_⟩
    · rw [hacc, ha', ha, List.append_assoc]
    · rw [hcont, hc', hc, List.append_assoc]
  · obtain ⟨-, hacc, hcont⟩ := pushCompletion_full hfull r
    exact ⟨new, by rw [hacc, ha', ha], by rw [hcont, hc', hc]⟩

/-- **The queue account of one operation**: what was there and what came in is what went out and what is
    there. -/
theorem queue_step (s : Device) (op : WireOp) :
    ∃ new out, accepted (s.step op).1.trace = accepted s.trace ++ new ∧
      s.completions.contents ++ new = out ++ (s.step op).1.completions.contents ∧
      (s.step op).2.delivered = recordBytes out := by
  -- every operation but F5 delivers nothing
  have hpush : ∀ t, OnlyPushed s t → ∃ new out, accepted t.trace = accepted s.trace ++ new ∧
      s.completions.contents ++ new = out ++ t.completions.contents ∧ [] = recordBytes out := by
    rintro t ⟨new, ha, hc⟩
    exact ⟨new, [], ha, hc.symm, rfl⟩
  cases op with
  | writeReg index value => exact hpush _ ((OnlyPushed.refl s).of_quiet (quiet_writeReg s index value))
  | readReg index => exact hpush _ (OnlyPushed.refl s)
  | writePayloadWord index value =>
    exact hpush _ ((OnlyPushed.refl s).of_quiet (quiet_writePayloadWord s index value))
  | exec command sequence =>
    obtain ⟨ha, -, hc⟩ := exec_queue (exec_step s command sequence)
    exact hpush (s.exec command sequence) ⟨[], by rw [ha, List.append_nil], by rw [hc, List.append_nil]⟩
  | writeBlock selector word data =>
    refine hpush (s.writeBlock selector word data).1 ?_
    rcases writeBlock_cases s selector word data with
      ⟨heq, -⟩ | ⟨bytes, -, -, ⟨st, -, heq⟩ | ⟨parsed, -, heq⟩⟩
    · rw [heq]; exact (OnlyPushed.refl s).of_quiet (quiet_setResult s _)
    · rw [heq]; exact (OnlyPushed.refl s).of_quiet (quiet_setResult s st)
    · rw [heq]
      refine OnlyPushed.of_quiet ?_ (quiet_setResult _ _)
      refine processDescriptors_invariant (I := OnlyPushed s) ?_ (OnlyPushed.refl s)
      intro p _ t u r hI hd
      exact onlyPushed_descriptor hI hd
  | readBlock selector word out =>
    show ∃ new delivered, accepted (s.readBlock selector word out).1.trace = _ ∧
      _ = delivered ++ (s.readBlock selector word out).1.completions.contents ∧
      (s.readBlock selector word out).2.2.take (s.readBlock selector word out).2.1 = recordBytes delivered
    rcases readBlock_cases s selector word out with ⟨heq, -⟩ | ⟨outBytes, q, -, -, hcont, heq⟩
    · rw [heq]
      exact ⟨[], [], (List.append_nil _).symm, List.append_nil _, rfl⟩
    · rw [heq]
      refine ⟨[], s.completions.contents.take (s.readCount word outBytes), (List.append_nil _).symm, ?_, ?_⟩
      · rw [List.append_nil]; exact hcont
      · have hlen : (recordBytes (s.completions.contents.take (s.readCount word outBytes))).length
            = kCompletionBytes * s.readCount word outBytes := by
          rw [recordBytes_length, List.length_take, Ring.contents_length, Nat.min_eq_left]
          exact Nat.min_le_left _ _
        exact List.take_left' hlen

/-! ## Exactly once, in order -/

/-- **The account of a run.** -/
theorem queue_account (config : Config) (ops : List WireOp) :
    ∃ out, recordBytes out = deliveredBytes ((machine config).outs ops) ∧
      accepted (after config ops).trace = out ++ (after config ops).completions.contents := by
  refine Machine.invariant_run (M := machine config)
    (I := fun ops s => ∃ out, recordBytes out = deliveredBytes ((machine config).outs ops) ∧
      accepted s.trace = out ++ s.completions.contents) ⟨[], rfl, rfl⟩ ?_ ops
  rintro ops op ⟨out, hbytes, hacc⟩
  obtain ⟨new, out', hnew, hbal, hdel⟩ := queue_step ((machine config).run ops) op
  refine ⟨out ++ out', ?_, ?_⟩
  · -- what went out
    have hsplit : recordBytes (out ++ out') = recordBytes out ++ recordBytes out' := List.flatMap_append
    have houts : deliveredBytes ((machine config).outs (ops ++ [op])) =
        deliveredBytes ((machine config).outs ops) ++ (((machine config).run ops).step op).2.delivered := by
      rw [Machine.outs_concat, deliveredBytes, List.flatMap_append]
      exact congrArg _ (List.append_nil _)
    rw [hsplit, houts, hbytes, hdel]
  · -- what came in
    show accepted (((machine config).run ops).step op).1.trace = _
    rw [hnew, hacc, List.append_assoc, hbal, ← List.append_assoc]
    rfl

theorem readReg_depth (s : Device) : (s.readReg kEventCompletionDepth).toNat = s.completions.contents.length := by
  have hcount : s.completions.count ≤ 16 := s.completions.count_le
  rw [Ring.contents_length]
  exact UInt32.toNat_ofNat_of_lt' (by simp only [UInt32.size]; omega)

/-- **The completion queue is an exactly-once FIFO.** After every run: the records accepted are, in order and
    byte for byte, those delivered by the F5s so far followed by those in the queue; the queue holds at most 16
    and F2 index 0xFE reads how many; an accepted F5 delivers and removes exactly the oldest
    `min |Q| (min len out_bytes / 64)`, with zeroes behind them; any other F5 delivers and removes nothing. -/
theorem completion_queue_fifo (config : Config) (ops : List WireOp) :
    let s := after config ops
    (∃ delivered, recordBytes delivered = deliveredBytes ((machine config).outs ops) ∧
      accepted s.trace = delivered ++ s.completions.contents) ∧
    s.completions.contents.length ≤ kCompletionQueueDepth ∧
    (s.readReg kEventCompletionDepth).toNat = s.completions.contents.length ∧
    (∀ selector word outBytes, ReadAccepted selector word outBytes →
      let n := min s.completions.contents.length (min (readLength word) outBytes / kCompletionBytes)
      let (t, written, out) := s.readBlock selector word (some outBytes)
      written = kCompletionBytes * n ∧
      out = recordBytes (s.completions.contents.take n) ++ List.replicate (outBytes - written) 0 ∧
      t.completions.contents = s.completions.contents.drop n) ∧
    (∀ selector word out, (∀ outBytes, out = some outBytes → ¬ ReadAccepted selector word outBytes) →
      let (t, written, buffer) := s.readBlock selector word out
      written = 0 ∧ (∀ b ∈ buffer, b = 0) ∧ t.completions.contents = s.completions.contents) := by
  intro s
  refine ⟨queue_account config ops, ?_, readReg_depth s, ?_, ?_⟩
  · rw [Ring.contents_length]
    exact s.completions.count_le
  · intro selector word outBytes hok
    rcases readBlock_cases s selector word (some outBytes) with ⟨-, hno⟩ | ⟨n, q, hn, -, hcont, heq⟩
    · exact absurd hok (hno outBytes rfl)
    · cases hn
      have hcount : min s.completions.contents.length (min (readLength word) outBytes / kCompletionBytes)
          = s.readCount word outBytes := by
        rw [Ring.contents_length]
        rfl
      have hle : s.readCount word outBytes ≤ s.completions.contents.length := by
        rw [← hcount]
        exact Nat.min_le_left _ _
      have hrest : q.contents = s.completions.contents.drop (s.readCount word outBytes) := by
        conv_rhs => rw [hcont]
        exact (List.drop_left' (by rw [List.length_take, Nat.min_eq_left hle])).symm
      simp only [heq, hcount]
      exact ⟨trivial, trivial, hrest⟩
  · intro selector word out hno
    rcases readBlock_cases s selector word out with ⟨heq, -⟩ | ⟨n, q, hn, hok, -, -⟩
    · simp only [heq]
      exact ⟨trivial, fun b hb => List.eq_of_mem_replicate hb, rfl⟩
    · exact absurd hok (hno n hn)

/-- `n` descriptors over handle 9. -/
def strayBlock (n : Nat) : List UInt8 :=
  (List.range n).flatMap (fun i => (gpkBuildDescriptor (UInt32.ofNat i) 9 16 0 100).toBytes)

/-- Eight records in, five out, twelve more in: the queue has gone round its end. -/
def wrappedRun : List WireOp :=
  [.writeBlock kSelectorSubmission 512 (some (strayBlock 8)), .readBlock kSelectorCompletion 0x01400000 (some 320),
    .writeBlock kSelectorSubmission 512 (some (strayBlock 8)), .writeBlock kSelectorSubmission 256 (some (strayBlock 4))]

/-- With fifteen records in the queue, an F5 of 192 bytes into a buffer of 150 delivers the oldest two; one with another
    selector delivers none. -/
theorem completion_queue_fifo_wrapped :
    (after {} wrappedRun).completions.contents.map (fun r => r.sequence) =
      [5, 6, 7, 0, 1, 2, 3, 4, 5, 6, 7, 0, 1, 2, 3] ∧
    ((after {} wrappedRun).readBlock kSelectorCompletion 0x00C00000 (some 150)).2.1 = 128 ∧
    ((after {} wrappedRun).readBlock kSelectorCompletion 0x00C00000 (some 150)).1.completions.contents =
      (after {} wrappedRun).completions.contents.drop 2 ∧
    ((after {} wrappedRun).readBlock 7 0x00C00000 (some 150)).1.completions.contents =
      (after {} wrappedRun).completions.contents := by
  have hqueued : (after {} wrappedRun).completions.contents.map (fun r => r.sequence) =
      [5, 6, 7, 0, 1, 2, 3, 4, 5, 6, 7, 0, 1, 2, 3] := by decide +kernel
  have hfifo := completion_queue_fifo {} wrappedRun
  generalize after {} wrappedRun = s at hqueued hfifo ⊢
  have hlen : s.completions.contents.length = 15 := by
    have hmapped := congrArg List.length hqueued
    rw [List.length_map] at hmapped
    exact hmapped
  have htwo : min s.completions.contents.length (min (readLength 0x00C00000) 150 / kCompletionBytes) = 2 := by
    rw [hlen]
    decide
  obtain ⟨-, -, -, hok, hno⟩ := hfifo
  have hread := hok kSelectorCompletion 0x00C00000 150 (by decide)
  rw [htwo] at hread
  exact ⟨hqueued, hread.1, hread.2.2, (hno 7 0x00C00000 (some 150) (by rintro _ ⟨⟩; decide)).2.2⟩

/-! ## One record for each descriptor -/

/-- `r` is the record of descriptor `p` in a batch of `batchSize`, whatever its status. -/
def Answers (batchSize : UInt32) (p : ParsedDescriptor) (r : CompletionRecordV1) : Prop :=
  r.magic = kCompletionMagic ∧ r.sequence = p.desc.sequence ∧ r.outputLength = p.desc.outputLength ∧
    r.softwareUs = p.desc.arg0 ∧ r.batchSize = batchSize ∧
    r.status ∈ [Status.ok.code16, Status.badHandle.code16, Status.badDescriptor.code16, Status.queueFull.code16]

theorem descriptor_answers {s t : Device} {batchSize share : UInt32} {p : ParsedDescriptor}
    {r : CompletionRecordV1} (hd : DescriptorStep s batchSize share p t r) : Answers batchSize p r := by
  cases hd <;> exact ⟨rfl, rfl, rfl, rfl, rfl, by simp [recordOf, completionFor]⟩

/-- Where the loop stands: the records of the descriptors done, those that fit in the queue, and the flag. -/
def LoopState (s : Device) (batchSize : UInt32) (done : List ParsedDescriptor) (t : Device) (dropped : Bool) : Prop :=
  ∃ rs, List.Forall₂ (Answers batchSize) done rs ∧ produced t.trace = produced s.trace ++ rs ∧
    t.completions.contents =
      s.completions.contents ++ rs.take (kCompletionQueueDepth - s.completions.contents.length) ∧
    (dropped = true ↔ kCompletionQueueDepth - s.completions.contents.length < rs.length)

theorem loopState_descriptor {s t u : Device} {batchSize share : UInt32} {done : List ParsedDescriptor}
    {dropped : Bool} {p : ParsedDescriptor} {r : CompletionRecordV1} (h : LoopState s batchSize done t dropped)
    (hd : DescriptorStep t batchSize share p u r) :
    LoopState s batchSize (done ++ [p]) (u.pushCompletion r).1 (dropped || !(u.pushCompletion r).2) := by
  obtain ⟨rs, hans, hprod, hcont, hdrop⟩ := h
  obtain ⟨-, hprod', hqueue⟩ := descriptor_queue hd
  have hans' : List.Forall₂ (Answers batchSize) (done ++ [p]) (rs ++ [r]) :=
    List.rel_append hans (List.Forall₂.cons (descriptor_answers hd) List.Forall₂.nil)
  have hprod'' : produced (u.pushCompletion r).1.trace = produced s.trace ++ (rs ++ [r]) := by
    rw [pushCompletion_produced, hprod', hprod, List.append_assoc]
  have hcount : u.completions.count =
      s.completions.contents.length + min (16 - s.completions.contents.length) rs.length := by
    rw [hqueue, ← Ring.contents_length, hcont, List.length_append, List.length_take]
  have hs : s.completions.contents.length ≤ 16 := by
    rw [Ring.contents_length]
    exact s.completions.count_le
  -- the push succeeds as long as the records before it all fitted
  rcases Nat.lt_or_ge u.completions.count 16 with hroom | hfull
  · obtain ⟨hflag, -, hcont'⟩ := pushCompletion_room hroom r
    have hfit : rs.length < 16 - s.completions.contents.length := by omega
    refine ⟨rs ++ [r], hans', hprod'', ?_, ?_⟩
    · rw [hcont', hqueue, hcont, List.append_assoc, List.take_of_length_le (Nat.le_of_lt hfit),
        List.take_of_length_le]
      rw [List.length_append]
      exact hfit
    · rw [hflag, Bool.not_true, Bool.or_false, hdrop, List.length_append]
      show 16 - _ < _ ↔ 16 - _ < _ + 1
      omega
  · obtain ⟨hflag, -, hcont'⟩ := pushCompletion_full hfull r
    have hfit : 16 - s.completions.contents.length ≤ rs.length := by omega
    refine ⟨rs ++ [r], hans', hprod'', ?_, ?_⟩
    · rw [hcont', hqueue, hcont, List.take_append_of_le_length hfit]
    · rw [hflag, Bool.not_false, Bool.or_true, List.length_append]
      exact ⟨fun _ => Nat.lt_succ_of_le hfit, fun _ => rfl⟩

theorem runBlock_loopState (s : Device) (parsed : List ParsedDescriptor) :
    LoopState s (UInt32.ofNat parsed.length) parsed (s.runBlock parsed).1 (s.runBlock parsed).2 := by
  refine processDescriptors_run (I := LoopState s (UInt32.ofNat parsed.length)) ?_ ?_
  · intro done p _ t dropped u r hI hd
    exact loopState_descriptor hI hd
  · exact ⟨[], List.Forall₂.nil, (List.append_nil _).symm, by rw [List.take_nil, List.append_nil], by simp⟩

/-- **No completion is lost silently.** In every reachable state, a block that is accepted and parses to `n`
    descriptors produces one record for each, in order, carrying that descriptor's sequence, output length and
    software time and the batch size `n`, whatever statuses they get; the queue gets the first
    `min n (16 - q)` of them behind what it had; and the answer, in RESULT too, is `kQueueFull` iff
    `n > 16 - q` and `kOk` otherwise. -/
theorem completions_not_lost (config : Config) (ops : List WireOp) (selector : UInt8) (word : UInt32)
    (bytes : List UInt8) (parsed : List ParsedDescriptor) (hacc : BlockAccepted selector word bytes)
    (hparse : parse bytes (blockLength word) = .ok parsed) :
    let s := after config ops
    let q := s.completions.contents.length
    let n := parsed.length
    let (t, status) := s.writeBlock selector word (some bytes)
    ∃ rs, produced t.trace = produced s.trace ++ rs ∧
      List.Forall₂ (fun p r => r.sequence = p.desc.sequence ∧ r.outputLength = p.desc.outputLength ∧
        r.softwareUs = p.desc.arg0 ∧ r.batchSize.toNat = n ∧
        r.status ∈ [Status.ok.code16, Status.badHandle.code16, Status.badDescriptor.code16,
          Status.queueFull.code16]) parsed rs ∧
      t.completions.contents = s.completions.contents ++ rs.take (min n (16 - q)) ∧
      status = (if n > 16 - q then .queueFull else .ok) ∧ t.stage kResult = status.code := by
  intro s q n
  obtain ⟨rs, hans, hprod, hcont, hdrop⟩ := runBlock_loopState s parsed
  have hlen : rs.length = n := hans.length_eq.symm
  -- the batch size is stored as a word; a block of 512 bytes holds at most eight descriptors
  have hn : n ≤ 8 := by
    obtain ⟨-, rest, hdec, -⟩ := (parse_eq_ok hacc.2.2.2 hacc.2.2.1).mp hparse
    have hsize : 64 * n + rest.length ≤ (bytes.take (blockLength word)).length := hdec.length_le
    have hblock : blockLength word ≤ 512 := hacc.2.2.1
    rw [List.length_take] at hsize
    omega
  have hbatch : (UInt32.ofNat parsed.length).toNat = n :=
    UInt32.toNat_ofNat_of_lt' (by simp only [UInt32.size]; omega)
  have hstatus : (if (s.runBlock parsed).2 then Status.queueFull else .ok) =
      if n > 16 - q then .queueFull else .ok := by
    have hiff : (s.runBlock parsed).2 = true ↔ n > 16 - q := by
      rw [hdrop, hlen]
    simp only [hiff]
  rw [writeBlock_parsed hacc hparse, hstatus]
  refine ⟨rs, hprod, ?_, ?_, rfl, ?_⟩
  · refine hans.imp ?_
    rintro p r ⟨-, h1, h2, h3, h4, h5⟩
    exact ⟨h1, h2, h3, by rw [h4]; exact hbatch, h5⟩
  · show (s.runBlock parsed).1.completions.contents = _
    rw [hcont, ← hlen, Nat.min_comm, ← List.take_take, List.take_length]
  · simp [setResult]

/-- A buffer of sixteen bytes, and fourteen records of descriptors over no live handle. -/
def nearlyFullRun : List WireOp :=
  [.writeReg 0 16, .exec HighCommand.alloc.code 0,
    .writeBlock kSelectorSubmission 512 (some (strayBlock 8)), .writeBlock kSelectorSubmission 384 (some (strayBlock 6))]

/-- Four descriptors: the last reads what the third writes, the first reads too early, the second names no buffer. -/
def mixedBlock : List ParsedDescriptor :=
  [⟨gpkBuildDescriptor 20 1 4 0 16, none⟩, ⟨gpkBuildDescriptor 21 9 4 0 16, none⟩,
    ⟨gpkBuildDescriptor 22 1 4 1 16, some [1, 2, 3, 4]⟩, ⟨gpkBuildDescriptor 23 1 4 0 16, none⟩]

/-- The device they lead to, with 64 KiB of pool. -/
def nearlyFull : Device := after { hasPool := true, poolBytes := 65536 } nearlyFullRun

/-- With room for two more records, a block that gets four of three kinds is answered with `kQueueFull`; the records are
    made all the same, and the first two are queued. -/
theorem completions_not_lost_mixed :
    ∃ rs, produced (nearlyFull.writeBlock kSelectorSubmission 260 (some (encodeBlock mixedBlock))).1.trace =
        produced nearlyFull.trace ++ rs ∧
      rs.map (fun r => r.status) = [Status.badDescriptor.code16, Status.badHandle.code16, Status.ok.code16,
        Status.ok.code16] ∧
      (nearlyFull.writeBlock kSelectorSubmission 260 (some (encodeBlock mixedBlock))).1.completions.contents =
        nearlyFull.completions.contents ++ rs.take 2 ∧
      (nearlyFull.writeBlock kSelectorSubmission 260 (some (encodeBlock mixedBlock))).2 = .queueFull := by
  have hqueued : nearlyFull.completions.contents.length = 14 := by decide +kernel
  have hmade : (produced (nearlyFull.writeBlock kSelectorSubmission 260 (some (encodeBlock mixedBlock))).1.trace).map
      (fun r => r.status) = (produced nearlyFull.trace).map (fun r => r.status) ++ [Status.badDescriptor.code16,
        Status.badHandle.code16, Status.ok.code16, Status.ok.code16] := by decide +kernel
  have hacc : BlockAccepted kSelectorSubmission 260 (encodeBlock mixedBlock) := by decide +kernel
  have hparse : parse (encodeBlock mixedBlock) (blockLength 260) = .ok mixedBlock := by decide +kernel
  have hkept := completions_not_lost { hasPool := true, poolBytes := 65536 } nearlyFullRun
  rw [show after { hasPool := true, poolBytes := 65536 } nearlyFullRun = nearlyFull from rfl] at hkept
  dsimp only at hkept
  -- neither the device nor the bytes matter from here on
  generalize nearlyFull = s at hqueued hmade hkept ⊢
  generalize encodeBlock mixedBlock = bytes at hacc hparse hmade ⊢
  have hblock := hkept kSelectorSubmission 260 bytes mixedBlock hacc hparse
  generalize s.writeBlock kSelectorSubmission 260 (some bytes) = answer at hmade hblock ⊢
  obtain ⟨rs, hprod, -, hcont, hstatus, -⟩ := hblock
  rw [hqueued] at hcont hstatus
  refine ⟨rs, hprod, ?_, ?_, ?_⟩
  · rw [hprod, List.map_append] at hmade
    exact List.append_cancel_left hmade
  · exact hcont
  · exact hstatus

end Device

end GekkoPak
