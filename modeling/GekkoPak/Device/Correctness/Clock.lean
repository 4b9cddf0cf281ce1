import GekkoPak.Device.Correctness.Jobs

/-!
# `Device.Correctness.Clock` — each job's own readiness clock

A job's clock is how often it has been polled: a SUBMITted job starts at zero, a job from a block at two, and two
is ready. `Clock s h k` says that the job with handle `h` stands at `k`. A POLL with ARG0 = `h` moves it by one, and
nothing else in the device moves it (`clock_step`), so after any run it stands where the POLLs of `h` in that run
put it (`clock_run`).
-/

namespace GekkoPak

open Basis

namespace Device

/-! ## What the host sees -/

/-- `op` is an F1 POLL with ARG0 = `h`. -/
def Polls (s : Device) (h : UInt32) : WireOp → Bool
  | .exec command _ => HighCommand.ofCode command == some .poll && s.stage kArg0 == h
  | _ => false

/-- How many of `ops`, from `s` on, are POLLs of `h`. -/
def pollsFrom (s : Device) (h : UInt32) : List WireOp → Nat
  | []        => 0
  | op :: ops => (if s.Polls h op then 1 else 0) + (s.step op).1.pollsFrom h ops

/-- `op` is a SUBMIT that is accepted and answers `h`. -/
def SubmitIssues (s : Device) (op : WireOp) (h : UInt32) : Prop :=
  ∃ command sequence, op = .exec command sequence ∧ HighCommand.ofCode command = some .submit ∧
    (s.step op).1.stage kResult = Status.ok.code ∧ (s.step op).1.stage kOut0 = h

/-- The completion records an operation produces, queued or not. -/
def newRecords (s : Device) (op : WireOp) : List CompletionRecordV1 :=
  (produced (s.step op).1.trace).drop (produced s.trace).length

/-- `op` is an F4 and one of the records it produces is `kOk` under `h`. -/
def BlockIssues (s : Device) (op : WireOp) (h : UInt32) : Prop :=
  ∃ selector word data, op = .writeBlock selector word data ∧
    ∃ r ∈ s.newRecords op, r.status = Status.ok.code16 ∧ r.jobHandle = h

/-- `op` issues the job handle `h`. -/
def Issues (s : Device) (op : WireOp) (h : UInt32) : Prop := s.SubmitIssues op h ∨ s.BlockIssues op h

/-! ## The clock -/

end Device

/-- A live job with handle `h` that stands at `k` POLLs; from two on it is ready and the count no longer shows. -/
structure Job.StandsAt (h : UInt32) (k : Nat) (job : Job) : Prop where
  live   : job.live = true
  handle : job.handle = h
  polls  : job.pollsRemaining.toNat = 2 - k
  ready  : job.ready = true ↔ 2 ≤ k

/-- One POLL moves the clock by one. -/
theorem Job.StandsAt.poll {job : Job} {h : UInt32} {k : Nat} (hjob : job.StandsAt h k) :
    job.poll.StandsAt h (k + 1) := by
  obtain ⟨hlive, hhandle, hpolls, hready⟩ := hjob
  have hsame := (Job.SameAnswer.refl job).poll
  -- the two fields that move
  suffices hmove : job.poll.pollsRemaining.toNat = 2 - (k + 1) ∧ (job.poll.ready = true ↔ 2 ≤ k + 1) from
    ⟨(Job.poll_live job).trans hlive, hsame.1.trans hhandle, hmove.1, hmove.2⟩
  unfold Job.poll
  cases hr : job.ready with
  | true =>
    have hk : 2 ≤ k := hready.mp hr
    simp only [Bool.not_true, Bool.false_eq_true, if_false, hr, true_iff]
    omega
  | false =>
    have hk : ¬ 2 ≤ k := fun h2 => by rw [hready.mpr h2] at hr; cases hr
    have hpos : job.pollsRemaining > 0 := by
      rw [gt_iff_lt, UInt8.lt_iff_toNat_lt]
      show 0 < _
      omega
    have hleft : (job.pollsRemaining - 1).toNat = 2 - (k + 1) := by
      have hone : (1 : UInt8) ≤ job.pollsRemaining := by
        rw [UInt8.le_iff_toNat_le]
        show 1 ≤ _
        omega
      rw [UInt8.toNat_sub_of_le _ _ hone]
      show job.pollsRemaining.toNat - 1 = _
      omega
    simp only [Bool.not_false, if_true, if_pos hpos]
    refine ⟨hleft, ?_⟩
    by_cases hzero : job.pollsRemaining - 1 = 0
    · rw [if_pos hzero]
      rw [hzero] at hleft
      have h0 : 0 = 2 - (k + 1) := hleft
      exact ⟨fun _ => by omega, fun _ => rfl⟩
    · rw [if_neg hzero]
      have hne : (job.pollsRemaining - 1).toNat ≠ 0 := fun h0 => hzero (UInt8.toNat_inj.mp h0)
      exact ⟨fun h => Bool.noConfusion h, fun h => absurd h (by omega)⟩

namespace Device

/-- The job with handle `h` stands at `k`. -/
def Clock (s : Device) (h : UInt32) (k : Nat) : Prop := ∃ slot, (s.jobs slot).StandsAt h k

/-- In a sound table a live job is the one its handle leads to. -/
theorem jobForHandle_live {s : Device} (hs : JobsSound s) {slot : Fin kMaxJobs}
    (hlive : (s.jobs slot).live = true) : s.jobForHandle (s.jobs slot).handle = some slot := by
  have hlt := (hs.live slot).mp hlive
  obtain ⟨job, hjob⟩ : ∃ job, (issuedJobs s.trace)[slot.val]? = some job := ⟨_, List.getElem?_eq_getElem hlt⟩
  have hhandle := (hs.answer slot job hjob).1
  have hne : (s.jobs slot).handle ≠ 0 := by
    intro h0
    have hcount := hs.handles slot.val job hjob
    rw [← hhandle, h0] at hcount
    cases hcount
  unfold jobForHandle
  rw [if_neg hne, hhandle]
  exact JobsInv.find hs hjob

theorem jobForHandle_some {s : Device} {h : UInt32} {slot : Fin kMaxJobs} (hjob : s.jobForHandle h = some slot) :
    (s.jobs slot).live = true ∧ (s.jobs slot).handle = h := by
  unfold jobForHandle at hjob
  split at hjob
  · cases hjob
  · have hfound := firstSlot_some hjob
    simpa using hfound

theorem clock_congr {s t : Device} {h : UInt32} {k : Nat} (hjobs : t.jobs = s.jobs) (hc : s.Clock h k) :
    t.Clock h k := by
  unfold Clock
  rw [hjobs]
  exact hc

/-- A job entering a free slot moves no clock. -/
theorem clock_issue {s t : Device} {h : UInt32} {k : Nat} (hc : s.Clock h k) {slot : Fin kMaxJobs} {job : Job}
    (hfree : s.freeJobSlot = some slot) (hjobs : t.jobs = Function.update s.jobs slot job) : t.Clock h k := by
  obtain ⟨i, hi⟩ := hc
  have hdead := firstSlot_some hfree
  have hne : i ≠ slot := by
    rintro rfl
    rw [hi.live] at hdead
    cases hdead
  refine ⟨i, ?_⟩
  rw [hjobs, Function.update_of_ne hne]
  exact hi

theorem clock_descriptor {s t : Device} {batchSize share : UInt32} {p : ParsedDescriptor}
    {r : CompletionRecordV1} (hd : DescriptorStep s batchSize share p t r) {h : UInt32} {k : Nat}
    (hc : s.Clock h k) : (t.pushCompletion r).1.Clock h k := by
  rcases descriptor_jobs hd with ⟨hjobs, -⟩ | ⟨slot, job, hfree, -, -, -, hjobs, -⟩
  · exact clock_congr hjobs hc
  · exact clock_issue hc hfree hjobs

/-! ## POLL and COLLECT, forwards -/

theorem exec_poll (s : Device) (sequence : UInt32) :
    s.exec HighCommand.poll.code sequence =
      match s.jobForHandle (s.stage kArg0) with
      | none   => s.report .badHandle 0 0 0 0
      | some i => (s.setJob i (s.jobs i).poll).report .ok (if (s.jobs i).poll.ready then 1 else 0)
          (s.jobs i).poll.pollsRemaining.toUInt32 0 0 := by
  unfold exec
  rw [clearOutputs_eq, HighCommand.ofCode_code]
  simp only [execCommand, execPoll,
    show ∀ r, (s.report .ok 0 0 0 0).jobForHandle r = s.jobForHandle r from fun _ => rfl,
    show (s.report .ok 0 0 0 0).stage kArg0 = s.stage kArg0 from rfl]
  cases s.jobForHandle (s.stage kArg0) with
  | none => simp only [setResult_report]
  | some i =>
    exact setOuts_report (s.setJob i (s.jobs i).poll) .ok (if (s.jobs i).poll.ready then 1 else 0)
      (s.jobs i).poll.pollsRemaining.toUInt32

theorem exec_collect_none {s : Device} (hjob : s.jobForHandle (s.stage kArg0) = none) (sequence : UInt32) :
    s.exec HighCommand.collect.code sequence = s.report .badHandle 0 0 0 0 := by
  unfold exec
  rw [clearOutputs_eq, HighCommand.ofCode_code]
  simp only [execCommand, execCollect,
    show ∀ r, (s.report .ok 0 0 0 0).jobForHandle r = s.jobForHandle r from fun _ => rfl,
    show (s.report .ok 0 0 0 0).stage kArg0 = s.stage kArg0 from rfl, hjob, setResult_report]

/-- The next POLL of a job that stands at `k` is its number `k + 1`; a COLLECT goes by `k`. -/
theorem clock_answers {s : Device} (hs : JobsSound s) {k : Nat} (hc : s.Clock (s.stage kArg0) k) (sequence : UInt32) :
    (s.exec HighCommand.poll.code sequence).stage kResult = Status.ok.code ∧
    (s.exec HighCommand.poll.code sequence).stage kOut0 = (if 2 ≤ k + 1 then 1 else 0) ∧
    ((s.exec HighCommand.poll.code sequence).stage kOut1).toNat = 2 - (k + 1) ∧
    (s.exec HighCommand.collect.code sequence).stage kResult =
      (if 2 ≤ k then Status.ok.code else Status.notReady.code) := by
  obtain ⟨slot, hslot⟩ := hc
  have hfind := jobForHandle_live hs hslot.live
  rw [hslot.handle] at hfind
  rw [exec_poll, hfind]
  refine ⟨rfl, ?_, ?_, ?_⟩
  · show (if (s.jobs slot).poll.ready = true then (1 : UInt32) else 0) = _
    simp only [hslot.poll.ready]
  · show ((s.jobs slot).poll.pollsRemaining.toUInt32).toNat = _
    rw [UInt8.toNat_toUInt32]
    exact hslot.poll.polls
  · rw [exec_collect hfind]
    by_cases hk : 2 ≤ k
    · rw [if_pos hk, if_pos (hslot.ready.mpr hk)]
      rfl
    · rw [if_neg hk, if_neg (fun h => hk (hslot.ready.mp h))]
      rfl

/-! ## The clock along runs -/

theorem clock_exec {s : Device} (hs : JobsSound s) {h : UInt32} {k : Nat} (hc : s.Clock h k) (command : UInt8)
    (sequence : UInt32) :
    (s.exec command sequence).Clock h (k + if s.Polls h (.exec command sequence) then 1 else 0) := by
  cases hpoll : s.Polls h (.exec command sequence) with
  | true =>
    obtain ⟨hcode, rfl⟩ : HighCommand.ofCode command = some .poll ∧ s.stage kArg0 = h := by
      simpa [Polls] using hpoll
    obtain ⟨slot, hslot⟩ := hc
    have hfind := jobForHandle_live hs hslot.live
    rw [hslot.handle] at hfind
    have hexec : s.exec command sequence = s.exec HighCommand.poll.code sequence := by
      unfold exec
      rw [hcode, HighCommand.ofCode_code]
    rw [hexec, exec_poll, hfind]
    refine ⟨slot, ?_⟩
    show (Function.update s.jobs slot (s.jobs slot).poll slot).StandsAt _ _
    rw [Function.update_self]
    exact hslot.poll
  | false =>
    have hstep := exec_step s command sequence
    generalize hcode : HighCommand.ofCode command = c at hstep
    generalize s.exec command sequence = t at hstep ⊢
    cases hstep with
    | refused | hello | getCaps | allocated | uploaded | collected | freed | completed =>
      exact clock_congr rfl hc
    | submitted i slot hslot hfree => exact clock_issue hc hfree rfl
    | polled i hjob =>
      -- a POLL of another handle finds another job
      obtain ⟨slot, hslot⟩ := hc
      have hne : slot ≠ i := by
        rintro rfl
        have harg := (jobForHandle_some hjob).2
        rw [hslot.handle] at harg
        rw [Polls, hcode, harg] at hpoll
        simp at hpoll
      refine ⟨slot, ?_⟩
      show (Function.update s.jobs i (s.jobs i).poll slot).StandsAt _ _
      rw [Function.update_of_ne hne]
      exact hslot

/-- **Only a POLL of `h` moves the clock of `h`.** -/
theorem clock_step {s : Device} (hs : JobsSound s) {h : UInt32} {k : Nat} (hc : s.Clock h k) (op : WireOp) :
    (s.step op).1.Clock h (k + if s.Polls h op then 1 else 0) := by
  by_cases hop : ∃ command sequence, op = .exec command sequence
  · obtain ⟨command, sequence, rfl⟩ := hop
    exact clock_exec hs hc command sequence
  · have hno : s.Polls h op = false := by
      cases op with
      | exec command sequence => exact absurd ⟨command, sequence, rfl⟩ hop
      | writeReg | readReg | writePayloadWord | writeBlock | readBlock => rfl
    rw [hno]
    refine step_keeps_at (I := fun t => t.Clock h k) ?_ ?_ ?_ op ?_ hc
    · intro u t hq hu
      exact clock_congr hq.jobs hu
    · intro u b share p t r hd hu
      exact clock_descriptor hd hu
    · intro u q _ _ hu
      exact hu
    · intro command sequence he
      exact absurd ⟨command, sequence, he⟩ hop

/-- **A job's clock counts the POLLs of its handle.** -/
theorem clock_run {config : Config} {h : UInt32} (post : List WireOp) :
    ∀ {s : Device} {k : Nat}, JobsSound s → s.Clock h k →
      ((machine config).runFrom s post).Clock h (k + s.pollsFrom h post) := by
  induction post with
  | nil => intro s k _ hc; exact hc
  | cons op post ih =>
    intro s k hs hc
    have hnext := ih (jobsSound_step op hs) (clock_step hs hc op)
    rw [Nat.add_assoc] at hnext
    exact hnext

theorem pollsFrom_append (config : Config) (h : UInt32) (ops ops' : List WireOp) :
    ∀ s : Device, s.pollsFrom h (ops ++ ops') =
      s.pollsFrom h ops + ((machine config).runFrom s ops).pollsFrom h ops' := by
  induction ops with
  | nil => intro s; exact (Nat.zero_add _).symm
  | cons op ops ih =>
    intro s
    show _ + (s.step op).1.pollsFrom h (ops ++ ops') = _
    rw [ih, ← Nat.add_assoc]
    rfl

/-- An accepted SUBMIT starts a clock at zero. -/
theorem submit_clock {s : Device} {op : WireOp} {h : UInt32} (hi : s.SubmitIssues op h) :
    (s.step op).1.Clock h 0 := by
  obtain ⟨command, sequence, rfl, hcode, hok, hout⟩ := hi
  have hstep := exec_step s command sequence
  rw [hcode] at hstep
  change (s.exec command sequence).stage _ = _ at hok hout
  show (s.exec command sequence).Clock h 0
  generalize s.exec command sequence = t at hstep hok hout ⊢
  cases hstep with
  | refused st hst => exact absurd (Status.code_inj hok) hst
  | submitted i slot hslot hfree =>
    refine ⟨slot, ?_⟩
    show (Function.update s.jobs slot (s.submitJob i) slot).StandsAt h 0
    rw [Function.update_self]
    exact ⟨rfl, hout, rfl, by simp [submitJob]⟩

/-- A settled descriptor starts the clock of the job it reports at two. -/
theorem descriptor_clock {s t : Device} {batchSize share : UInt32} {p : ParsedDescriptor}
    {r : CompletionRecordV1} (hd : DescriptorStep s batchSize share p t r) (hok : r.status = Status.ok.code16) :
    (t.pushCompletion r).1.Clock r.jobHandle 2 := by
  cases hd with
  | badInput | notUploaded | badOutput | noSlot => exact absurd (Status.code16_inj hok) (by decide)
  | accepted i slot =>
    refine ⟨slot, ?_⟩
    show (Function.update (s.staged i p).jobs slot ((s.staged i p).blockJob i p.desc share) slot).StandsAt _ 2
    rw [Function.update_self]
    exact ⟨rfl, rfl, rfl, by simp [blockJob]⟩

/-- The jobs a block reports as accepted start at two. -/
theorem block_clock {s : Device} {op : WireOp} {h : UInt32} (hi : s.BlockIssues op h) : (s.step op).1.Clock h 2 := by
  obtain ⟨selector, word, data, rfl, r, hmem, hok, rfl⟩ := hi
  have hrun : ∃ rs, produced (s.writeBlock selector word data).1.trace = produced s.trace ++ rs ∧
      ∀ r ∈ rs, r.status = Status.ok.code16 → (s.writeBlock selector word data).1.Clock r.jobHandle 2 := by
    have hnone : ∃ rs, produced s.trace = produced s.trace ++ rs ∧
        ∀ r ∈ rs, r.status = Status.ok.code16 → s.Clock r.jobHandle 2 := ⟨[], (List.append_nil _).symm, by simp⟩
    rcases writeBlock_cases s selector word data with
      ⟨heq, -⟩ | ⟨bytes, -, -, ⟨st, -, heq⟩ | ⟨parsed, -, heq⟩⟩
    · rw [heq]; exact hnone
    · rw [heq]; exact hnone
    · rw [heq]
      refine processDescriptors_invariant
        (I := fun t => ∃ rs, produced t.trace = produced s.trace ++ rs ∧
          ∀ r ∈ rs, r.status = Status.ok.code16 → t.Clock r.jobHandle 2) ?_ hnone
      rintro p - t u r ⟨rs, hprod, hrs⟩ hd
      refine ⟨rs ++ [r], ?_, ?_⟩
      · rw [pushCompletion_produced, (descriptor_queue hd).2.1, hprod, List.append_assoc]
      · intro r' hr' hok'
        rcases List.mem_append.mp hr' with hold | hnew
        · exact clock_descriptor hd (hrs r' hold hok')
        · obtain rfl := List.mem_singleton.mp hnew
          exact descriptor_clock hd hok'
  obtain ⟨rs, hprod, hrs⟩ := hrun
  have hnew : s.newRecords (.writeBlock selector word data) = rs := by
    unfold newRecords
    rw [step_writeBlock, hprod, List.drop_left]
  rw [hnew] at hmem
  exact hrs r hmem hok

/-! ## Handles that were not issued -/

/-- A job that was not on the record before an operation was issued by it. -/
theorem issued_step {s : Device} {op : WireOp} {job : Job} (h : job ∈ issuedJobs (s.step op).1.trace) :
    job ∈ issuedJobs s.trace ∨ s.Issues op job.handle := by
  cases op with
  | writeReg index value =>
    rw [show (s.step (.writeReg index value)).1.trace = s.trace from (quiet_writeReg s index value).trace] at h
    exact Or.inl h
  | readReg index => exact Or.inl h
  | writePayloadWord index value =>
    rw [show (s.step (.writePayloadWord index value)).1.trace = s.trace from
      (quiet_writePayloadWord s index value).trace] at h
    exact Or.inl h
  | exec command sequence =>
    have hissues : ∀ handle, HighCommand.ofCode command = some .submit →
        (s.exec command sequence).stage kResult = Status.ok.code → (s.exec command sequence).stage kOut0 = handle →
        s.Issues (.exec command sequence) handle :=
      fun handle hcode hok hout => Or.inl ⟨command, sequence, rfl, hcode, hok, hout⟩
    have hstep := exec_step s command sequence
    change job ∈ issuedJobs (s.exec command sequence).trace at h
    generalize HighCommand.ofCode command = c at hstep hissues
    generalize s.exec command sequence = t at hstep hissues h
    cases hstep with
    | refused | hello | getCaps | allocated | polled | collected | freed | completed => exact Or.inl h
    | uploaded i =>
      change job ∈ issuedJobs ((s.trace ++ [.access _ _ _]) ++ [.access _ _ _]) at h
      rw [issuedJobs_access, issuedJobs_access] at h
      exact Or.inl h
    | submitted i slot =>
      change job ∈ issuedJobs ((s.trace ++ [.access _ _ _]) ++ [.issued (s.submitJob i)]) at h
      rw [issuedJobs_issued, issuedJobs_access] at h
      rcases List.mem_append.mp h with hold | hnew
      · exact Or.inl hold
      · rw [List.mem_singleton.mp hnew]
        exact Or.inr (hissues _ rfl rfl rfl)
  | writeBlock selector word data =>
    obtain ⟨rs, js, hprod, hiss, hall⟩ := writeBlock_jobs s selector word data
    rw [step_writeBlock, hiss] at h
    rcases List.mem_append.mp h with hold | hnew
    · exact Or.inl hold
    · -- the record that carries the new job
      obtain ⟨n, hn, hget⟩ := List.getElem_of_mem hnew
      have hlen := hall.length_eq
      have hcarry := List.forall₂_iff_get.mp hall
      have hr := hcarry.2 n (by omega) hn
      have hmem : (okRecords rs).get ⟨n, by omega⟩ ∈ okRecords rs := List.get_mem _ _
      obtain ⟨hin, hok⟩ := List.mem_filter.mp hmem
      refine Or.inr (Or.inr ⟨selector, word, data, rfl, _, ?_, by simpa using hok, hr.1.trans ?_⟩)
      · unfold newRecords
        rw [step_writeBlock, hprod, List.drop_left]
        exact hin
      · rw [List.get_eq_getElem, hget]
  | readBlock selector word out =>
    rw [step_readBlock] at h
    rcases readBlock_cases s selector word out with ⟨heq, -⟩ | ⟨outBytes, q, -, -, -, heq⟩
    · rw [heq] at h; exact Or.inl h
    · rw [heq] at h; exact Or.inl h

/-- Every job on the record was issued by some operation of the run. -/
theorem issued_run {config : Config} {job : Job} (ops : List WireOp)
    (h : job ∈ issuedJobs (after config ops).trace) :
    ∃ pre op post, ops = pre ++ op :: post ∧ (after config pre).Issues op job.handle := by
  induction ops using List.reverseRecOn with
  | nil => cases h
  | append_singleton ops op ih =>
    rw [after, Machine.run_concat] at h
    rcases issued_step h with hold | hnew
    · obtain ⟨pre, o, post, rfl, hi⟩ := ih hold
      exact ⟨pre, o, post ++ [op], by simp, hi⟩
    · exact ⟨ops, op, [], rfl, hnew⟩

/-- Nothing answers to a handle that was not issued. -/
theorem jobForHandle_unissued {config : Config} {ops : List WireOp} {h : UInt32}
    (hno : ∀ pre op post, ops = pre ++ op :: post → ¬ (after config pre).Issues op h) :
    (after config ops).jobForHandle h = none := by
  have hs := jobsSound_after config ops
  cases hfind : (after config ops).jobForHandle h with
  | none => rfl
  | some slot =>
    obtain ⟨hlive, hhandle⟩ := jobForHandle_some hfind
    have hlt := (hs.live slot).mp hlive
    have hans := (hs.answer slot _ (List.getElem?_eq_getElem hlt)).1
    obtain ⟨pre, op, post, hops, hi⟩ := issued_run ops (List.getElem_mem hlt)
    rw [← hans, hhandle] at hi
    exact absurd hi (hno pre op post hops)

/-- The state after a run that passes through `op`. -/
theorem after_through (config : Config) (pre : List WireOp) (op : WireOp) (post : List WireOp) :
    after config (pre ++ op :: post) = (machine config).runFrom ((after config pre).step op).1 post := by
  show (machine config).run (pre ++ op :: post) = _
  rw [Machine.run_append]
  rfl

/-- A clock started inside a run, read at its end. -/
theorem clock_after {config : Config} {pre : List WireOp} {op : WireOp} {h : UInt32} {k : Nat}
    (hc : ((after config pre).step op).1.Clock h k) (post : List WireOp) :
    (after config (pre ++ op :: post)).Clock h (k + ((after config pre).step op).1.pollsFrom h post) := by
  rw [after_through]
  exact clock_run post (jobsSound_step op (jobsSound_after config pre)) hc

/-- **Each SUBMITted job has its own readiness clock.** After every run, for a POLL or a COLLECT with ARG0 = `h`:
    if `h` was issued by a SUBMIT of the run and `k` POLLs of `h` have followed, the POLL is the one numbered
    `k + 1`, it answers ready from the second on and counts down from two, and COLLECT is ready from `k = 2` on,
    which no later operation takes back; if `h` was issued by a block it is ready from the start; and if it was
    not issued both answer `kBadHandle`. -/
theorem readiness_clock (config : Config) (ops : List WireOp) (h sequence : UInt32)
    (harg : (after config ops).stage kArg0 = h) :
    let polled := (after config ops).exec HighCommand.poll.code sequence
    let collected := (after config ops).exec HighCommand.collect.code sequence
    (∀ pre op post, ops = pre ++ op :: post → (after config pre).SubmitIssues op h →
      let k := ((after config pre).step op).1.pollsFrom h post
      polled.stage kResult = Status.ok.code ∧ polled.stage kOut0 = (if 2 ≤ k + 1 then 1 else 0) ∧
      (polled.stage kOut1).toNat = 2 - (k + 1) ∧
      collected.stage kResult = (if k < 2 then Status.notReady.code else Status.ok.code) ∧
      ∀ later, k ≤ ((after config pre).step op).1.pollsFrom h (post ++ later)) ∧
    (∀ pre op post, ops = pre ++ op :: post → (after config pre).BlockIssues op h →
      polled.stage kResult = Status.ok.code ∧ polled.stage kOut0 = 1 ∧ polled.stage kOut1 = 0 ∧
      collected.stage kResult = Status.ok.code) ∧
    ((∀ pre op post, ops = pre ++ op :: post → ¬ (after config pre).Issues op h) →
      polled.stage kResult = Status.badHandle.code ∧ collected.stage kResult = Status.badHandle.code) := by
  have hs := jobsSound_after config ops
  refine ⟨?_, ?_, ?_⟩
  · rintro pre op post rfl hi k
    have hc := clock_after (submit_clock hi) post
    rw [← harg] at hc
    obtain ⟨h1, h2, h3, h4⟩ := clock_answers hs hc sequence
    rw [Nat.zero_add, harg] at h2 h3 h4
    refine ⟨h1, h2, h3, h4.trans ?_, ?_⟩
    · show (if 2 ≤ k then _ else _) = _
      by_cases hk : 2 ≤ k
      · rw [if_pos hk, if_neg (Nat.not_lt.mpr hk)]
      · rw [if_neg hk, if_pos (Nat.not_le.mp hk)]
    · intro later
      rw [pollsFrom_append config]
      exact Nat.le_add_right _ _
  · rintro pre op post rfl hi
    have hc := clock_after (block_clock hi) post
    rw [← harg] at hc
    obtain ⟨h1, h2, h3, h4⟩ := clock_answers hs hc sequence
    refine ⟨h1, h2.trans (if_pos (by omega)), ?_, h4.trans (if_pos (by omega))⟩
    apply UInt32.toNat_inj.mp
    rw [h3]
    show _ = 0
    omega
  · intro hno
    have hnone := jobForHandle_unissued hno
    rw [← harg] at hnone
    rw [exec_poll, hnone, exec_collect_none hnone]
    exact ⟨rfl, rfl⟩

/-- ALLOC, SUBMIT, one POLL: the second POLL is ready, and a COLLECT in its place is not. -/
theorem readiness_clock_second :
    let config : Config := { hasPool := true, poolBytes := 65536 }
    let ops : List WireOp := [.writeReg 0 16, .exec HighCommand.alloc.code 0, .writeReg 0 1,
      .exec HighCommand.submit.code 0, .exec HighCommand.poll.code 0]
    ((after config ops).exec HighCommand.poll.code 0).stage kOut0 = 1 ∧
    ((after config ops).exec HighCommand.collect.code 0).stage kResult = Status.notReady.code := by
  intro config ops
  obtain ⟨hclock, -, -⟩ := readiness_clock config ops 1 0 (by decide +kernel)
  obtain ⟨-, hpoll, -, hcollect, -⟩ := hclock [.writeReg 0 16, .exec HighCommand.alloc.code 0, .writeReg 0 1]
    (.exec HighCommand.submit.code 0) [.exec HighCommand.poll.code 0] rfl
    ⟨_, _, rfl, by decide, by decide +kernel, by decide +kernel⟩
  have hk : ((after config [.writeReg 0 16, .exec HighCommand.alloc.code 0, .writeReg 0 1]).step
      (.exec HighCommand.submit.code 0)).1.pollsFrom 1 [.exec HighCommand.poll.code 0] = 1 := by decide +kernel
  rw [hk] at hpoll hcollect
  exact ⟨hpoll, hcollect⟩

end Device

end GekkoPak
