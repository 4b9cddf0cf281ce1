import GekkoPak.Device.Correctness.Queue

/-!
# `Device.Correctness.Jobs` — the job table: answers are fixed, slots are not reclaimed

Jobs enter the table and never leave it. After `k` accepted jobs the table is exactly those jobs, in order, in
slots `0 .. k-1`, under handles `1 .. k` (`JobsInv`); POLL moves a job's readiness and nothing else. Two things
follow: whoever asks for a job's answer, when, and on which path, gets what was computed when it was accepted;
and after sixteen accepted jobs no slot is left, whatever has been answered.
-/

namespace GekkoPak

open Basis

/-- The jobs accepted, as they entered the table, in order. -/
def issuedJobs (trace : List Event) : List Job :=
  trace.filterMap (fun e =>
    match e with
    | .issued job => some job
    | _ => none)

@[simp] theorem issuedJobs_access (trace : List Event) (handle : UInt32) (start len : Nat) :
    issuedJobs (trace ++ [.access handle start len]) = issuedJobs trace := by
  simp [issuedJobs]

@[simp] theorem issuedJobs_completion (trace : List Event) (r : CompletionRecordV1) (queued : Bool) :
    issuedJobs (trace ++ [.completion r queued]) = issuedJobs trace := by
  simp [issuedJobs]

@[simp] theorem issuedJobs_issued (trace : List Event) (job : Job) :
    issuedJobs (trace ++ [.issued job]) = issuedJobs trace ++ [job] := by
  simp [issuedJobs]

/-! ## The invariant -/

/-- `job'` has the handle and the answer of `job`, and is ready if `job` was. -/
def Job.SameAnswer (job job' : Job) : Prop :=
  job'.handle = job.handle ∧ job'.modeledUs = job.modeledUs ∧ job'.speedupX1000 = job.speedupX1000 ∧
    job'.checksum = job.checksum ∧ job'.softwareUs = job.softwareUs ∧ (job.ready = true → job'.ready = true)

theorem Job.SameAnswer.refl (job : Job) : job.SameAnswer job := ⟨rfl, rfl, rfl, rfl, rfl, id⟩

theorem Job.SameAnswer.poll {job job' : Job} (h : job.SameAnswer job') : job.SameAnswer job'.poll := by
  obtain ⟨h1, h2, h3, h4, h5, h6⟩ := h
  unfold Job.poll
  cases hr : job'.ready with
  | true => exact ⟨h1, h2, h3, h4, h5, fun _ => hr⟩
  | false =>
    refine ⟨h1, h2, h3, h4, h5, ?_⟩
    intro hready
    rw [h6 hready] at hr
    cases hr

theorem Job.poll_live (job : Job) : job.poll.live = job.live := by
  unfold Job.poll
  cases job.ready <;> rfl

/-- **The job-table invariant**: the table is the accepted jobs, in order, under handles counting from one. -/
structure JobsInv (jobs : Fin kMaxJobs → Job) (nextJob : UInt32) (issued : List Job) : Prop where
  count_le : issued.length ≤ 16
  next     : nextJob.toNat = issued.length + 1
  handles  : ∀ i job, issued[i]? = some job → job.handle.toNat = i + 1
  live     : ∀ i, (jobs i).live = true ↔ i.val < issued.length
  answer   : ∀ (i : Fin kMaxJobs) job, issued[i.val]? = some job → job.SameAnswer (jobs i)

namespace JobsInv

variable {jobs : Fin kMaxJobs → Job} {nextJob : UInt32} {issued : List Job}

theorem zero : JobsInv (fun _ => Job.zero) 1 [] where
  count_le := Nat.zero_le 16
  next := rfl
  handles := by intro i job h; cases h
  live := by intro i; simp [Job.zero]
  answer := by intro i job h; cases h

/-- The free slot is the one after the last job; there is one as long as fewer than sixteen were accepted. -/
theorem freeSlot (h : JobsInv jobs nextJob issued) {slot : Fin kMaxJobs}
    (hfree : firstSlot (fun i => !(jobs i).live) = some slot) : slot.val = issued.length := by
  have hdead : ¬ slot.val < issued.length := by
    intro hlt
    have hfound := firstSlot_some hfree
    rw [(h.live slot).mpr hlt] at hfound
    cases hfound
  rcases Nat.lt_or_ge issued.length slot.val with hlt | hge
  · -- the slot numbered `issued.length` is free too, and comes first
    have hbefore : (⟨issued.length, Nat.lt_trans hlt slot.isLt⟩ : Fin kMaxJobs) < slot := hlt
    have hlive := firstSlot_lt hfree hbefore
    simp only [Bool.not_eq_false'] at hlive
    exact absurd ((h.live _).mp hlive) (Nat.lt_irrefl _)
  · omega

theorem freeSlot_none (h : JobsInv jobs nextJob issued) :
    firstSlot (fun i => !(jobs i).live) = none ↔ 16 ≤ issued.length := by
  rw [firstSlot_eq_none]
  constructor
  · intro hall
    have hlast := hall ⟨15, by decide⟩
    simp only [Bool.not_eq_false'] at hlast
    exact (h.live _).mp hlast
  · intro hle i
    have hi : i.val < 16 := i.isLt
    rw [(h.live i).mpr (by omega)]
    rfl

/-- Accepting a job. -/
theorem issue (h : JobsInv jobs nextJob issued) {slot : Fin kMaxJobs}
    (hfree : firstSlot (fun i => !(jobs i).live) = some slot) {job : Job} (hlive : job.live = true)
    (hhandle : job.handle = nextJob) :
    JobsInv (Function.update jobs slot job) (nextJob + 1) (issued ++ [job]) := by
  have hslot := h.freeSlot hfree
  have hlt : issued.length < 16 := by
    have hs : slot.val < 16 := slot.isLt
    omega
  have hlen : (issued ++ [job]).length = issued.length + 1 := by simp
  -- the new job goes to the end of the list and to the slot of that number
  constructor
  · rw [hlen]; exact hlt
  · have hnext := h.next
    rw [hlen, UInt32.toNat_add, hnext, show (1 : UInt32).toNat = 1 from rfl]
    omega
  · intro i j hij
    rcases Nat.lt_trichotomy i issued.length with hi | hi | hi
    · rw [List.getElem?_append_left hi] at hij
      exact h.handles i j hij
    · subst hi
      rw [List.getElem?_concat_length] at hij
      cases hij
      rw [hhandle, h.next]
    · rw [List.getElem?_eq_none (by omega)] at hij
      cases hij
  · intro i
    rw [hlen]
    by_cases hi : i = slot
    · subst hi
      rw [Function.update_self, hlive, hslot]
      simp
    · have hne : i.val ≠ slot.val := fun he => hi (Fin.ext he)
      rw [Function.update_of_ne hi, h.live i]
      omega
  · intro i j hij
    by_cases hi : i = slot
    · subst hi
      rw [hslot, List.getElem?_concat_length] at hij
      cases hij
      rw [Function.update_self]
      exact Job.SameAnswer.refl job
    · have hne : i.val ≠ slot.val := fun he => hi (Fin.ext he)
      have hil : i.val < issued.length := by
        have hsome := (List.getElem?_eq_some_iff.mp hij).1
        omega
      rw [Function.update_of_ne hi]
      rw [List.getElem?_append_left hil] at hij
      exact h.answer i j hij

/-- Polling a job. -/
theorem poll (h : JobsInv jobs nextJob issued) (i : Fin kMaxJobs) :
    JobsInv (Function.update jobs i (jobs i).poll) nextJob issued := by
  refine ⟨h.count_le, h.next, h.handles, ?_, ?_⟩
  · intro j
    by_cases hj : j = i
    · subst hj
      rw [Function.update_self, Job.poll_live]
      exact h.live j
    · rw [Function.update_of_ne hj]
      exact h.live j
  · intro j job hjob
    by_cases hj : j = i
    · subst hj
      rw [Function.update_self]
      exact (h.answer j job hjob).poll
    · rw [Function.update_of_ne hj]
      exact h.answer j job hjob

/-- A handle that was issued leads to the slot of its job. -/
theorem find (h : JobsInv jobs nextJob issued) {i : Fin kMaxJobs} {job : Job} (hjob : issued[i.val]? = some job) :
    firstSlot (fun j => (jobs j).live && (jobs j).handle == job.handle) = some i := by
  have hil : i.val < issued.length := (List.getElem?_eq_some_iff.mp hjob).1
  have hans := h.answer i job hjob
  apply firstSlot_eq_of_unique
  · rw [(h.live i).mpr hil, hans.1]
    simp
  · -- a live slot with the same handle has the same number, since handles count the jobs
    intro j hj
    simp only [Bool.and_eq_true, beq_iff_eq] at hj
    have hjl : j.val < issued.length := (h.live j).mp hj.1
    obtain ⟨job', hjob'⟩ : ∃ job', issued[j.val]? = some job' := ⟨_, List.getElem?_eq_getElem hjl⟩
    have h1 := h.handles i.val job hjob
    have h2 := h.handles j.val job' hjob'
    rw [← (h.answer j job' hjob').1, hj.2] at h2
    exact Fin.ext (by omega)

end JobsInv

namespace Device

/-! ## The invariant along runs -/

theorem staged_jobs (s : Device) (i : Fin kMaxAllocations) (p : ParsedDescriptor) :
    (s.staged i p).jobs = s.jobs ∧ (s.staged i p).nextJob = s.nextJob ∧
      issuedJobs (s.staged i p).trace = issuedJobs s.trace := by
  unfold staged
  cases p.input with
  | none => exact ⟨rfl, rfl, rfl⟩
  | some bs => exact ⟨rfl, rfl, issuedJobs_access _ _ _ _⟩

/-- Before its record is pushed, a descriptor either leaves the jobs alone or issues one. -/
theorem descriptor_jobs {s t : Device} {batchSize share : UInt32} {p : ParsedDescriptor}
    {r : CompletionRecordV1} (hd : DescriptorStep s batchSize share p t r) :
    (t.jobs = s.jobs ∧ t.nextJob = s.nextJob ∧ issuedJobs t.trace = issuedJobs s.trace ∧
      r.status ≠ Status.ok.code16) ∨
    ∃ slot job, s.freeJobSlot = some slot ∧ job.live = true ∧ job.ready = true ∧ job.handle = s.nextJob ∧
      t.jobs = Function.update s.jobs slot job ∧ t.nextJob = s.nextJob + 1 ∧
      issuedJobs t.trace = issuedJobs s.trace ++ [job] ∧ r.status = Status.ok.code16 ∧
      r.jobHandle = job.handle ∧ r.modeledUs = job.modeledUs ∧ r.speedupX1000 = job.speedupX1000 ∧
      r.checksum = job.checksum ∧ r.softwareUs = job.softwareUs := by
  cases hd with
  | badInput | notUploaded => exact Or.inl ⟨rfl, rfl, rfl, fun h => absurd (Status.code16_inj h) (by decide)⟩
  | badOutput i | noSlot i =>
    obtain ⟨h1, h2, h3⟩ := staged_jobs s i p
    exact Or.inl ⟨h1, h2, h3, fun h => absurd (Status.code16_inj h) (by decide)⟩
  | accepted i slot hin hup hout hfree =>
    obtain ⟨h1, h2, h3⟩ := staged_jobs s i p
    refine Or.inr ⟨slot, (s.staged i p).blockJob i p.desc share, hfree, rfl, rfl, h2, ?_, ?_, ?_,
      rfl, rfl, rfl, rfl, rfl, rfl⟩
    · show Function.update (s.staged i p).jobs slot _ = _
      rw [h1]
    · show (s.staged i p).nextJob + 1 = _
      rw [h2]
    · show issuedJobs (((s.staged i p).trace ++ [.access _ _ _]) ++ [.issued _]) = _
      rw [issuedJobs_issued, issuedJobs_access, h3]

/-- The job-table invariant of a device. -/
def JobsSound (s : Device) : Prop := JobsInv s.jobs s.nextJob (issuedJobs s.trace)

theorem jobsSound_descriptor {s t : Device} {batchSize share : UInt32} {p : ParsedDescriptor}
    {r : CompletionRecordV1} (hs : JobsSound s) (hd : DescriptorStep s batchSize share p t r) :
    JobsSound (t.pushCompletion r).1 := by
  unfold JobsSound
  rw [pushCompletion_trace, issuedJobs_completion]
  show JobsInv t.jobs t.nextJob (issuedJobs t.trace)
  rcases descriptor_jobs hd with ⟨h1, h2, h3, -⟩ | ⟨slot, job, hfree, hlive, -, hhandle, h1, h2, h3, -⟩
  · rw [h1, h2, h3]; exact hs
  · rw [h1, h2, h3]; exact JobsInv.issue hs hfree hlive hhandle

/-- **Every operation keeps the job-table invariant.** -/
theorem jobsSound_step {s : Device} (op : WireOp) (hs : JobsSound s) : JobsSound (s.step op).1 := by
  refine step_keeps ?_ ?_ ?_ ?_ op hs
  · intro u t hq hu
    unfold JobsSound
    rw [hq.jobs, hq.nextJob, hq.trace]
    exact hu
  · intro u c t hstep hu
    cases hstep with
    | refused | hello | getCaps | allocated | collected | freed | completed => exact hu
    | uploaded i =>
      show JobsInv u.jobs u.nextJob (issuedJobs ((u.trace ++ [.access _ _ _]) ++ [.access _ _ _]))
      rw [issuedJobs_access, issuedJobs_access]
      exact hu
    | submitted i slot hslot hfree =>
      show JobsInv (Function.update u.jobs slot (u.submitJob i)) (u.nextJob + 1)
        (issuedJobs ((u.trace ++ [.access _ _ _]) ++ [.issued (u.submitJob i)]))
      rw [issuedJobs_issued, issuedJobs_access]
      exact JobsInv.issue hu hfree rfl rfl
    | polled i => exact JobsInv.poll hu i
  · intro u b share p t r hd hu
    exact jobsSound_descriptor hu hd
  · -- F5 moves the queue only
    intro u q k _ hu
    exact hu

theorem jobsSound_after (config : Config) (ops : List WireOp) : JobsSound (after config ops) :=
  Machine.invariant (M := machine config) JobsInv.zero (fun _ op hs => jobsSound_step op hs)
    (Machine.reachable_run _ ops)

/-- Of all F1 commands only SUBMIT issues a job. -/
theorem issuedJobs_exec {s t : Device} {c : Option HighCommand} (hstep : ExecStep s c t) :
    issuedJobs t.trace = issuedJobs s.trace ∨
    ∃ i, s.allocationForHandle (s.stage kArg0) = some i ∧
      issuedJobs t.trace = issuedJobs s.trace ++ [s.submitJob i] := by
  cases hstep with
  | refused | hello | getCaps | allocated | polled | collected | freed | completed => exact Or.inl rfl
  | uploaded i =>
    left
    show issuedJobs ((s.trace ++ [.access _ _ _]) ++ [.access _ _ _]) = _
    rw [issuedJobs_access, issuedJobs_access]
  | submitted i slot hslot =>
    refine Or.inr ⟨i, hslot, ?_⟩
    show issuedJobs ((s.trace ++ [.access _ _ _]) ++ [.issued (s.submitJob i)]) = _
    rw [issuedJobs_issued, issuedJobs_access]

/-- Accepted jobs are never struck from the record. -/
theorem issuedJobs_step (s : Device) (op : WireOp) : issuedJobs s.trace <+: issuedJobs (s.step op).1.trace := by
  refine step_keeps (I := fun t => issuedJobs s.trace <+: issuedJobs t.trace) ?_ ?_ ?_ ?_ op (List.prefix_refl _)
  · intro u t hq hu
    rw [hq.trace]; exact hu
  · intro u c t hstep hu
    rcases issuedJobs_exec hstep with heq | ⟨i, -, heq⟩
    · rw [heq]; exact hu
    · rw [heq]; exact hu.trans (List.prefix_append _ _)
  · intro u b share p t r hd hu
    rw [pushCompletion_trace, issuedJobs_completion]
    rcases descriptor_jobs hd with ⟨-, -, h3, -⟩ | ⟨slot, job, -, -, -, -, -, -, h3, -⟩
    · rw [h3]; exact hu
    · rw [h3]; exact hu.trans (List.prefix_append _ _)
  · intro u q k _ hu
    exact hu

theorem issuedJobs_run (config : Config) (pre post : List WireOp) :
    issuedJobs (after config pre).trace <+: issuedJobs (after config (pre ++ post)).trace := by
  induction post using List.reverseRecOn with
  | nil => rw [List.append_nil]
  | append_singleton post op ih =>
    rw [← List.append_assoc, after, after, Machine.run_concat]
    exact ih.trans (issuedJobs_step _ op)

/-! ## SUBMIT and COLLECT, forwards -/

theorem exec_collect {s : Device} {slot : Fin kMaxJobs} (hjob : s.jobForHandle (s.stage kArg0) = some slot)
    (sequence : UInt32) :
    s.exec HighCommand.collect.code sequence =
      if (s.jobs slot).ready then
        s.report .ok (s.jobs slot).modeledUs (s.jobs slot).speedupX1000 (s.jobs slot).checksum
          (s.jobs slot).softwareUs
      else s.report .notReady 0 0 0 0 := by
  unfold exec
  rw [clearOutputs_eq, HighCommand.ofCode_code]
  simp only [execCommand, execCollect,
    show ∀ r, (s.report .ok 0 0 0 0).jobForHandle r = s.jobForHandle r from fun _ => rfl,
    show (s.report .ok 0 0 0 0).stage kArg0 = s.stage kArg0 from rfl, hjob,
    show (s.report .ok 0 0 0 0).jobs = s.jobs from rfl]
  cases (s.jobs slot).ready with
  | false => simp [setResult_report]
  | true => simp [setOut_report]

/-- A SUBMIT over a live allocation is accepted exactly when there is a free slot. -/
theorem exec_submit {s : Device} {i : Fin kMaxAllocations}
    (hslot : s.allocationForHandle (s.stage kArg0) = some i) (sequence : UInt32) :
    s.exec HighCommand.submit.code sequence =
      match s.freeJobSlot with
      | none      => s.report .queueFull 0 0 0 0
      | some slot => ((s.poolHash (s.stage kArg0) (s.allocations i).offset.toNat
          (s.allocations i).uploaded.toNat).1.issueJob slot (s.submitJob i)).report .ok s.nextJob
            (s.submitJob i).modeledUs 0 0 := by
  unfold exec
  rw [clearOutputs_eq, HighCommand.ofCode_code]
  simp only [execCommand, execSubmit,
    show ∀ r, (s.report .ok 0 0 0 0).allocationForHandle r = s.allocationForHandle r from fun _ => rfl,
    show (s.report .ok 0 0 0 0).stage kArg0 = s.stage kArg0 from rfl, hslot,
    show (s.report .ok 0 0 0 0).freeJobSlot = s.freeJobSlot from rfl]
  cases s.freeJobSlot with
  | none => simp only [setResult_report]
  | some slot =>
    exact setOuts_report ((s.poolHash (s.stage kArg0) (s.allocations i).offset.toNat
      (s.allocations i).uploaded.toNat).1.issueJob slot (s.submitJob i)) .ok s.nextJob (s.submitJob i).modeledUs

/-! ## A job's answer is fixed when it is accepted -/

/-- `t` is the outcome of a COLLECT that returned the answer of `job`. -/
def Collected (t : Device) (job : Job) : Prop :=
  t.stage kResult = Status.ok.code ∧ t.stage kOut0 = job.modeledUs ∧ t.stage kOut1 = job.speedupX1000 ∧
    t.stage kOut2 = job.checksum ∧ t.stage kOut3 = job.softwareUs

/-- The completion record `r` carries the answer of `job`, which needs no polling. -/
def Carries (r : CompletionRecordV1) (job : Job) : Prop :=
  r.jobHandle = job.handle ∧ r.modeledUs = job.modeledUs ∧ r.speedupX1000 = job.speedupX1000 ∧
    r.checksum = job.checksum ∧ r.softwareUs = job.softwareUs ∧ job.ready = true

/-- The records with status `kOk`. -/
def okRecords (rs : List CompletionRecordV1) : List CompletionRecordV1 :=
  rs.filter (fun r => r.status == Status.ok.code16)

theorem handles_range {s : Device} (hs : JobsSound s) :
    (issuedJobs s.trace).map (fun job => job.handle.toNat) = List.range' 1 (issuedJobs s.trace).length := by
  apply List.ext_getElem
  · simp
  · intro i h1 h2
    rw [List.length_map] at h1
    rw [List.getElem_map, hs.handles i _ (List.getElem?_eq_getElem h1), List.getElem_range']
    omega

/-- **COLLECT of an accepted job**, in any sound state. -/
theorem collect_issued {s : Device} (hs : JobsSound s) {job : Job} (hjob : job ∈ issuedJobs s.trace)
    (harg : s.stage kArg0 = job.handle) (sequence : UInt32) :
    ∃ slot, s.jobForHandle job.handle = some slot ∧ (job.ready = true → (s.jobs slot).ready = true) ∧
      if (s.jobs slot).ready = true then Collected (s.exec HighCommand.collect.code sequence) job
      else (s.exec HighCommand.collect.code sequence).stage kResult = Status.notReady.code := by
  obtain ⟨k, hk⟩ := List.getElem?_of_mem hjob
  have hlt : k < 16 := Nat.lt_of_lt_of_le (List.getElem?_eq_some_iff.mp hk).1 hs.count_le
  have hne : job.handle ≠ 0 := by
    intro h0
    have hh := hs.handles k job hk
    rw [h0] at hh
    cases hh
  have hfind : s.jobForHandle job.handle = some ⟨k, hlt⟩ := by
    unfold jobForHandle
    rw [if_neg hne]
    exact JobsInv.find hs (i := ⟨k, hlt⟩) hk
  obtain ⟨-, h1, h2, h3, h4, h5⟩ := hs.answer ⟨k, hlt⟩ job hk
  refine ⟨⟨k, hlt⟩, hfind, h5, ?_⟩
  rw [← harg] at hfind
  rw [exec_collect hfind]
  cases (s.jobs ⟨k, hlt⟩).ready with
  | false => exact rfl
  | true => exact ⟨rfl, h1, h2, h3, h4⟩

/-- The records of a block with status `kOk` carry the answers of the jobs it issued, one to one and in order. -/
theorem runBlock_jobs (s : Device) (parsed : List ParsedDescriptor) :
    ∃ rs js, produced (s.runBlock parsed).1.trace = produced s.trace ++ rs ∧
      issuedJobs (s.runBlock parsed).1.trace = issuedJobs s.trace ++ js ∧
      List.Forall₂ Carries (okRecords rs) js := by
  refine processDescriptors_run
    (I := fun _ t _ => ∃ rs js, produced t.trace = produced s.trace ++ rs ∧
      issuedJobs t.trace = issuedJobs s.trace ++ js ∧ List.Forall₂ Carries (okRecords rs) js)
    ?_ ⟨[], [], (List.append_nil _).symm, (List.append_nil _).symm, List.Forall₂.nil⟩
  rintro done p - t dropped u r ⟨rs, js, hprod, hiss, hall⟩ hd
  have hprod' : produced (u.pushCompletion r).1.trace = produced s.trace ++ (rs ++ [r]) := by
    rw [pushCompletion_produced, (descriptor_queue hd).2.1, hprod, List.append_assoc]
  have htrace : issuedJobs (u.pushCompletion r).1.trace = issuedJobs u.trace := by
    rw [pushCompletion_trace, issuedJobs_completion]
  rcases descriptor_jobs hd with
    ⟨-, -, h3, hst⟩ | ⟨slot, job, -, -, hready, -, -, -, h3, hst, hc1, hc2, hc3, hc4, hc5⟩
  · have hok : okRecords (rs ++ [r]) = okRecords rs := by simp [okRecords, hst]
    exact ⟨rs ++ [r], js, hprod', by rw [htrace, h3, hiss], by rw [hok]; exact hall⟩
  · have hok : okRecords (rs ++ [r]) = okRecords rs ++ [r] := by simp [okRecords, hst]
    refine ⟨rs ++ [r], js ++ [job], hprod', by rw [htrace, h3, hiss, List.append_assoc], ?_⟩
    rw [hok]
    exact List.rel_append hall (List.Forall₂.cons ⟨hc1, hc2, hc3, hc4, hc5, hready⟩ List.Forall₂.nil)

theorem writeBlock_jobs (s : Device) (selector : UInt8) (word : UInt32) (data : Option (List UInt8)) :
    ∃ rs js, produced (s.writeBlock selector word data).1.trace = produced s.trace ++ rs ∧
      issuedJobs (s.writeBlock selector word data).1.trace = issuedJobs s.trace ++ js ∧
      List.Forall₂ Carries (okRecords rs) js := by
  have hnone : ∃ rs js, produced s.trace = produced s.trace ++ rs ∧
      issuedJobs s.trace = issuedJobs s.trace ++ js ∧ List.Forall₂ Carries (okRecords rs) js :=
    ⟨[], [], (List.append_nil _).symm, (List.append_nil _).symm, List.Forall₂.nil⟩
  rcases writeBlock_cases s selector word data with
    ⟨heq, -⟩ | ⟨bytes, -, -, ⟨st, -, heq⟩ | ⟨parsed, -, heq⟩⟩
  · rw [heq]; exact hnone
  · rw [heq]; exact hnone
  · rw [heq]; exact runBlock_jobs s parsed

/-- **A job's answer is fixed at submission and both paths agree.** After every run: the jobs accepted so far
    have handles 1, 2, 3, … in order; whatever follows, they stay accepted, and a COLLECT of any of them finds it
    and, if it is ready (a block job always is), returns exactly the answer computed when it was accepted; an
    accepted SUBMIT adds the job it computes and reports its handle; and the `kOk` records of a block carry the
    answers of the jobs it added. -/
theorem job_answer_fixed (config : Config) (ops : List WireOp) :
    let s := after config ops
    let jobs := issuedJobs s.trace
    jobs.map (fun job => job.handle.toNat) = List.range' 1 jobs.length ∧
    (∀ post, jobs <+: issuedJobs (after config (ops ++ post)).trace) ∧
    (∀ job ∈ jobs, ∀ post sequence,
      let t := after config (ops ++ post)
      t.stage kArg0 = job.handle →
      ∃ slot, t.jobForHandle job.handle = some slot ∧ (job.ready = true → (t.jobs slot).ready = true) ∧
        if (t.jobs slot).ready = true then Collected (t.exec HighCommand.collect.code sequence) job
        else (t.exec HighCommand.collect.code sequence).stage kResult = Status.notReady.code) ∧
    (∀ sequence, (s.exec HighCommand.submit.code sequence).stage kResult = Status.ok.code →
      ∃ i, s.allocationForHandle (s.stage kArg0) = some i ∧
        issuedJobs (s.exec HighCommand.submit.code sequence).trace = jobs ++ [s.submitJob i] ∧
        (s.exec HighCommand.submit.code sequence).stage kOut0 = (s.submitJob i).handle) ∧
    (∀ selector word data,
      ∃ rs js, produced (s.writeBlock selector word data).1.trace = produced s.trace ++ rs ∧
        issuedJobs (s.writeBlock selector word data).1.trace = jobs ++ js ∧
        List.Forall₂ Carries (okRecords rs) js) := by
  intro s jobs
  refine ⟨handles_range (jobsSound_after config ops), issuedJobs_run config ops, ?_, ?_, writeBlock_jobs s⟩
  · intro job hjob post sequence t harg
    -- the job is still on the record, so the invariant of the later state finds it
    have hlater : job ∈ issuedJobs t.trace := (issuedJobs_run config ops post).subset hjob
    exact collect_issued (jobsSound_after config (ops ++ post)) hlater harg sequence
  · intro sequence hok
    have hstep := exec_step s HighCommand.submit.code sequence
    rw [HighCommand.ofCode_code] at hstep
    generalize s.exec HighCommand.submit.code sequence = t at hstep hok ⊢
    cases hstep with
    | refused st hst => exact absurd (Status.code_inj hok) hst
    | submitted i slot hslot hfree =>
      refine ⟨i, hslot, ?_, rfl⟩
      show issuedJobs ((s.trace ++ [.access _ _ _]) ++ [.issued (s.submitJob i)]) = _
      rw [issuedJobs_issued, issuedJobs_access]

/-- One block job over a fresh buffer; its COLLECT succeeds at once. -/
theorem job_answer_fixed_block :
    let config : Config := { hasPool := true, poolBytes := 65536 }
    let block := encodeBlock [⟨gpkBuildDescriptor 1 1 4 1 16, some [1, 2, 3, 4]⟩]
    let ops : List WireOp := [.writeReg 0 16, .exec HighCommand.alloc.code 0,
      .writeBlock kSelectorSubmission 68 (some block), .writeReg 0 1]
    ((after config ops).exec HighCommand.collect.code 0).stage kResult = Status.ok.code := by
  intro config block ops
  have hjobs : issuedJobs (after config ops).trace =
      [⟨1, 239, 14644, 1463068797, 3500, 0, true, true, 1⟩] := by decide +kernel
  obtain ⟨-, -, hcollect, -, -⟩ := job_answer_fixed config ops
  obtain ⟨slot, -, hready, hanswer⟩ := hcollect _ (by rw [hjobs]; exact List.mem_singleton_self _) [] 0
    (by decide +kernel)
  rw [List.append_nil] at hanswer hready
  rw [if_pos (hready rfl)] at hanswer
  exact hanswer.1

end Device

end GekkoPak
