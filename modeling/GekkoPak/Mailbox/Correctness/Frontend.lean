import GekkoPak.Basis.Machine
import GekkoPak.Mailbox.Frontend

/-!
# `Mailbox.Correctness.Frontend` — the frontend against any guest

Nothing is assumed of the guest here: between two looks the memory becomes whatever it likes, and so does what the
host's heap has left. What one look can do is said once, by command (`command_answered`). From it:

* `trace_legal` — the requests answered are a word of the job protocol: one SUBMIT, then POLLs that become ready with the
  second, and COLLECTs only after that, all of the job that was submitted;
* `buffer_safe` — the allocation is as large as it says, and uploads stay inside it;
* `answers_once` — no request is answered twice in a row, and an answer touches the answer's words and nothing else.
-/

namespace GekkoPak

open Basis

namespace Mailbox

variable {modelJobUs : UInt32 → UInt32 → UInt32 → UInt32} {calloc : UInt32 → Bool}

/-- What a look of the frontend finds: the guest's memory, and what the host's heap has left. -/
structure Look where
  mem    : Mem
  calloc : UInt32 → Bool

/-- The frontend as a machine: each look finds some memory, and leaves some. -/
def frontendMachine (modelJobUs : UInt32 → UInt32 → UInt32 → UInt32) (descriptors : List MemoryDescriptor)
    (gTrace : Bool) : Machine Look Mem Frontend where
  init := .init descriptors gTrace
  step f look := f.serviceGekkopak modelJobUs look.calloc look.mem

/-! ## One look -/

/-- The line says that the command was carried out. -/
def TraceLine.ok (line : TraceLine) (c : GkCommand) : Bool := line.cmd = cmdName c.code ∧ line.result = gkOk

theorem GkCommand.ofCode_code (c : GkCommand) : GkCommand.ofCode c.code = some c := by
  cases c <;> rfl

theorem cmdName_code_iff {code : UInt32} {c : GkCommand} :
    cmdName code = cmdName c.code ↔ GkCommand.ofCode code = some c := by
  unfold cmdName
  rw [GkCommand.ofCode_code]
  cases GkCommand.ofCode code with
  | none => cases c <;> decide
  | some c' => cases c' <;> cases c <;> decide

/-- What a request does to the frontend, by the line it leaves in the trace. -/
inductive Answered (modelJobUs : UInt32 → UInt32 → UInt32 → UInt32) (f : Frontend) (line : TraceLine) :
    Frontend → Prop
  /-- Neither the allocation nor the job changes. -/
  | other (done : Bool) (hsubmit : line.ok .submit = false) (hpoll : line.ok .poll = false)
      (hcollect : line.ok .collect = false) (hupload : line.ok .upload = false) :
      Answered modelJobUs f line { f with guestDone := done }
  | alloc (size : UInt32) (hline : line.ok .alloc = true) (hfree : f.alloc.data = none) (hpos : size ≠ 0)
      (hsize : size ≤ gkLocalMemoryBytes) :
      Answered modelJobUs f line
        { f with
          alloc := ⟨f.nextAllocHandle, some (List.replicate size.toNat 0), size, 0⟩
          nextAllocHandle := f.nextAllocHandle + 1 }
  | upload (data bytes : List UInt8) (off uploaded : UInt32) (hline : line.ok .upload = true)
      (hdata : f.alloc.data = some data) (hlen : bytes.length = line.payloadLen.toNat)
      (hoff : line.arg[1]? = some off) (hfits : off.toNat + bytes.length ≤ f.alloc.size.toNat)
      (huploaded : uploaded.toNat = max f.alloc.uploaded.toNat (off.toNat + bytes.length))
      (hout : line.out[1]? = some (fnv1a ((splice data off.toNat bytes).take uploaded.toNat))) :
      Answered modelJobUs f line
        { f with alloc := { f.alloc with data := some (splice data off.toNat bytes), uploaded := uploaded } }
  | submit (job : GkJob) (hline : line.ok .submit = true) (hnone : f.job.handle = 0)
      (hhandle : job.handle = f.nextJobHandle) (hpolls : job.pollsRemaining = 2) (hready : job.ready = false)
      (hus : line.out[1]? = some job.modeledUs) (hsoft : line.arg[3]? = some job.softwareUs) :
      Answered modelJobUs f line { f with job := job, nextJobHandle := f.nextJobHandle + 1 }
  | poll (job : GkJob) (hline : line.ok .poll = true) (hsome : f.job.handle ≠ 0)
      (hjob : job = if f.job.ready then f.job else
        { f.job with pollsRemaining := f.job.pollsRemaining - 1, ready := f.job.pollsRemaining - 1 = 0 })
      (hout : line.out[0]? = some (if job.ready then 1 else 0)) :
      Answered modelJobUs f line { f with job := job }
  | collect (hline : line.ok .collect = true) (hsome : f.job.handle ≠ 0) (hready : f.job.ready = true)
      (hout : line.out = [f.job.modeledUs, f.job.speedupX1000, f.job.checksum, f.job.softwareUs]) :
      Answered modelJobUs f line f
  | free (hline : line.ok .free = true) (hdata : f.alloc.data.isSome = true) :
      Answered modelJobUs f line { f with alloc := .zero }

/-- A line that reports an error, or a command of no consequence here. -/
theorem ok_of_result {box : GkMailbox} (h : box.result ≠ gkOk) (c : GkCommand) : box.traceLine.ok c = false := by
  simp only [TraceLine.ok, GkMailbox.traceLine, h, and_false, decide_false]

theorem ok_of_command {box : GkMailbox} {c c' : GkCommand} (h : GkCommand.ofCode box.command = some c) (hne : c ≠ c') :
    box.traceLine.ok c' = false := by
  have hname : cmdName box.command ≠ cmdName c'.code := by
    rw [ne_eq, cmdName_code_iff, h]
    simpa using hne
  simp only [TraceLine.ok, GkMailbox.traceLine, hname, false_and, decide_false]

theorem ok_same {box : GkMailbox} {c : GkCommand} (h : GkCommand.ofCode box.command = some c)
    (hresult : box.result = gkOk) : box.traceLine.ok c = true := by
  have hname : cmdName box.command = cmdName c.code := cmdName_code_iff.mpr h
  simp only [TraceLine.ok, GkMailbox.traceLine, hname, hresult, and_self, decide_true]

theorem Answered.refused (f : Frontend) {box : GkMailbox} (h : box.result ≠ gkOk) :
    Answered modelJobUs f box.traceLine f :=
  .other f.guestDone (ok_of_result h _) (ok_of_result h _) (ok_of_result h _) (ok_of_result h _)

section Commands

variable {f : Frontend} {box : GkMailbox}

theorem cmdAlloc_answered (hcode : GkCommand.ofCode box.command = some .alloc) (hok : box.result = gkOk) :
    Answered modelJobUs f (f.cmdAlloc calloc box).2.traceLine (f.cmdAlloc calloc box).1 := by
  unfold Frontend.cmdAlloc
  split
  · exact .refused f (by simp [gkErrNoMemory, gkOk])
  · next hargs =>
    simp only [not_or, Bool.not_eq_true, Option.isSome_eq_false_iff, Option.isNone_iff_eq_none] at hargs
    obtain ⟨hpos, hsize, hfree⟩ := hargs
    split
    · exact .refused f (by simp [gkErrNoMemory, gkOk])
    · exact .alloc box.arg0 (ok_same hcode hok) hfree hpos (UInt32.not_lt.mp hsize)

theorem cmdUpload_answered (hcode : GkCommand.ofCode box.command = some .upload) (hok : box.result = gkOk)
    {payload : Option (List UInt8)} (hpay : ∀ bytes, payload = some bytes → bytes.length = box.payloadLen.toNat) :
    Answered modelJobUs f (f.cmdUpload box payload).2.traceLine (f.cmdUpload box payload).1 := by
  unfold Frontend.cmdUpload
  split
  · next data bytes hdata =>
    split
    · exact .refused f (by simp [gkErrBadHandle, gkOk])
    · next hargs =>
      simp only [not_or, not_not, gt_iff_lt, UInt32.not_lt] at hargs
      obtain ⟨_, hoff, hfits⟩ := hargs
      have hlen := hpay bytes rfl
      have hoff' : box.arg1.toNat ≤ f.alloc.size.toNat := hoff
      have hfits' : box.arg1.toNat + bytes.length ≤ f.alloc.size.toNat := by
        have hle : box.payloadLen.toNat ≤ (f.alloc.size - box.arg1).toNat := hfits
        rw [UInt32.toNat_sub_of_le _ _ hoff] at hle
        omega
      have hsum : (box.arg1 + box.payloadLen).toNat = box.arg1.toNat + bytes.length := by
        have hbound := f.alloc.size.toNat_lt
        rw [UInt32.toNat_add, Nat.mod_eq_of_lt (by omega), hlen]
      have hup : (if box.arg1 + box.payloadLen > f.alloc.uploaded then box.arg1 + box.payloadLen
          else f.alloc.uploaded).toNat = max f.alloc.uploaded.toNat (box.arg1.toNat + bytes.length) := by
        split
        · next hgt =>
          have hlt : f.alloc.uploaded.toNat < (box.arg1 + box.payloadLen).toNat := hgt
          rw [hsum] at hlt ⊢
          omega
        · next hle =>
          have hge : (box.arg1 + box.payloadLen).toNat ≤ f.alloc.uploaded.toNat := Nat.not_lt.mp hle
          rw [hsum] at hge
          omega
      exact .upload data bytes box.arg1 _ (ok_same hcode hok) hdata hlen rfl hfits' hup rfl
  · exact .refused f (by simp [gkErrBadHandle, gkOk])

theorem cmdSubmit_answered (hcode : GkCommand.ofCode box.command = some .submit) (hok : box.result = gkOk) :
    Answered modelJobUs f (f.cmdSubmit modelJobUs box).2.traceLine (f.cmdSubmit modelJobUs box).1 := by
  unfold Frontend.cmdSubmit
  split
  · exact .refused f (by simp [gkErrBadHandle, gkOk])
  · split
    · exact .refused f (by simp [gkErrBadHandle, gkOk])
    · next hargs =>
      simp only [not_or, not_not] at hargs
      exact .submit _ (ok_same hcode hok) hargs.2 rfl rfl rfl rfl rfl

theorem cmdPoll_answered (hcode : GkCommand.ofCode box.command = some .poll) (hok : box.result = gkOk) :
    Answered modelJobUs f (f.cmdPoll box).2.traceLine (f.cmdPoll box).1 := by
  unfold Frontend.cmdPoll
  split
  · exact .refused f (by simp [gkErrBadHandle, gkOk])
  · next hargs => exact .poll _ (ok_same hcode hok) (not_or.mp hargs).1 rfl rfl

theorem cmdCollect_answered (hcode : GkCommand.ofCode box.command = some .collect) (hok : box.result = gkOk) :
    Answered modelJobUs f (f.cmdCollect box).2.traceLine (f.cmdCollect box).1 := by
  unfold Frontend.cmdCollect
  split
  · exact .refused f (by simp [gkErrBadHandle, gkOk])
  · next hargs =>
    split
    · exact .refused f (by simp [gkErrNotReady, gkOk])
    · next hready =>
      exact .collect (ok_same hcode hok) (not_or.mp hargs).1 (by simpa using hready) rfl

theorem cmdFree_answered (hcode : GkCommand.ofCode box.command = some .free) (hok : box.result = gkOk) :
    Answered modelJobUs f (f.cmdFree box).2.traceLine (f.cmdFree box).1 := by
  unfold Frontend.cmdFree
  split
  · exact .refused f (by simp [gkErrBadHandle, gkOk])
  · next hargs =>
    have hsome : f.alloc.data.isSome = true := by
      simpa [Option.isSome_iff_ne_none] using (not_or.mp hargs).1
    exact .free (ok_same hcode hok) hsome

/-- **The `switch`.** -/
theorem command_answered (hok : box.result = gkOk) {payload : Option (List UInt8)}
    (hpay : ∀ bytes, payload = some bytes → bytes.length = box.payloadLen.toNat) :
    Answered modelJobUs f (f.command modelJobUs calloc box payload).2.traceLine
      (f.command modelJobUs calloc box payload).1 := by
  unfold Frontend.command
  cases hcode : GkCommand.ofCode box.command with
  | none => exact .refused f (by simp [gkErrBadCommand, gkOk])
  | some c =>
    -- the commands that are neither about the allocation nor about the job
    have other : ∀ (done : Bool) (box' : GkMailbox), GkCommand.ofCode box'.command = some c → c ≠ .submit → c ≠ .poll →
        c ≠ .collect → c ≠ .upload → Answered modelJobUs f box'.traceLine { f with guestDone := done } :=
      fun done _ hc h1 h2 h3 h4 =>
        .other done (ok_of_command hc h1) (ok_of_command hc h2) (ok_of_command hc h3) (ok_of_command hc h4)
    cases c with
    | hello => exact other f.guestDone _ hcode (by decide) (by decide) (by decide) (by decide)
    | getCaps => exact other f.guestDone _ hcode (by decide) (by decide) (by decide) (by decide)
    | alloc => exact cmdAlloc_answered hcode hok
    | upload => exact cmdUpload_answered hcode hok hpay
    | submit => exact cmdSubmit_answered hcode hok
    | poll => exact cmdPoll_answered hcode hok
    | collect => exact cmdCollect_answered hcode hok
    | free => exact cmdFree_answered hcode hok
    | complete => exact other true _ hcode (by decide) (by decide) (by decide) (by decide)

end Commands

/-- The commands leave the request alone. -/
theorem command_seq (f : Frontend) (box : GkMailbox) (payload : Option (List UInt8)) :
    (f.command modelJobUs calloc box payload).2.seq = box.seq := by
  unfold Frontend.command
  split
  · rfl
  · rfl
  · unfold Frontend.cmdAlloc
    split
    · rfl
    · split <;> rfl
  · unfold Frontend.cmdUpload
    split
    · split <;> rfl
    · rfl
  · unfold Frontend.cmdSubmit
    split
    · rfl
    · split <;> rfl
  · unfold Frontend.cmdPoll; split <;> rfl
  · unfold Frontend.cmdCollect
    split
    · rfl
    · split <;> rfl
  · unfold Frontend.cmdFree; split <;> rfl
  · rfl
  · rfl

/-- What is in the trace file after a line more. -/
def traceWith (f : Frontend) (line : TraceLine) : List TraceLine := if f.gTrace then f.trace ++ [line] else f.trace

/-- A request is carried out, and there is a line for the trace. -/
theorem answer_answered (f : Frontend) (box : GkMailbox) {payload : Option (List UInt8)}
    (hpay : ∀ bytes, payload = some bytes → bytes.length = box.payloadLen.toNat) :
    ∃ line f', line.seq = box.seq ∧ Answered modelJobUs { f with lastSeq := box.seq } line f' ∧
      (f.answer modelJobUs calloc box payload).1 =
        { f' with answered := f'.answered ++ [line], trace := traceWith f' line } := by
  have hanswered := @command_answered modelJobUs calloc { f with lastSeq := box.seq }
    { box with result := gkOk, out0 := 0, out1 := 0, out2 := 0, out3 := 0 } rfl payload hpay
  exact ⟨_, _, command_seq _ _ _, hanswered, rfl⟩

theorem printSummary_eq (f : Frontend) (m : Mem) : ∃ summaries, f.printSummary m = { f with summaries := summaries } := by
  unfold Frontend.printSummary
  split
  · exact ⟨_, rfl⟩
  · exact ⟨f.summaries, rfl⟩

/-- **One look**: nothing happens, or a request that is new is answered. -/
theorem service_cases (f : Frontend) (m : Mem) :
    f.serviceGekkopak modelJobUs calloc m = (f, m) ∨
    ∃ line f' summaries, line.seq ≠ f.lastSeq ∧ Answered modelJobUs { f with lastSeq := line.seq } line f' ∧
      (f.serviceGekkopak modelJobUs calloc m).1 =
        { f' with answered := f'.answered ++ [line], trace := traceWith f' line, summaries := summaries } := by
  by_cases hreq : f.requested (GkMailbox.load m) = true
  · right
    have hnew : (GkMailbox.load m).seq ≠ f.lastSeq := by
      simp only [Frontend.requested, decide_eq_true_eq] at hreq
      exact hreq.2.2.2
    have hpay : ∀ bytes, payloadOf f.descs m (GkMailbox.load m).payloadLen = some bytes →
        bytes.length = (GkMailbox.load m).payloadLen.toNat := by
      intro bytes hbytes
      obtain ⟨_, _, rfl⟩ := Option.map_eq_some_iff.mp hbytes
      exact Mem.read_length _ _ _
    obtain ⟨line, f', hseq, hanswered, heq⟩ := @answer_answered modelJobUs calloc f (GkMailbox.load m) _ hpay
    rw [← hseq] at hnew hanswered
    refine ⟨line, f', ?_⟩
    simp only [Frontend.serviceGekkopak, if_pos hreq, heq]
    split
    · obtain ⟨summaries, hprint⟩ := printSummary_eq
        { f' with answered := f'.answered ++ [line], trace := traceWith f' line }
        ((f.answer modelJobUs calloc (GkMailbox.load m) (payloadOf f.descs m (GkMailbox.load m).payloadLen)).2.storeAnswer m)
      exact ⟨summaries, hnew, hanswered, hprint⟩
    · exact ⟨f'.summaries, hnew, hanswered, rfl⟩
  · left
    rw [Frontend.serviceGekkopak]
    exact if_neg hreq

theorem Answered.frame {f f' : Frontend} {line : TraceLine} (h : Answered modelJobUs f line f') :
    f'.answered = f.answered ∧ f'.lastSeq = f.lastSeq ∧ f'.gTrace = f.gTrace ∧ f'.trace = f.trace := by
  cases h <;> exact ⟨rfl, rfl, rfl, rfl⟩

/-- **The rule of this file.** What holds of the frontend at first, and after every new request is answered, holds
    against every guest. -/
theorem frontend_invariant {descriptors : List MemoryDescriptor} {gTrace : Bool} {I : Frontend → Prop}
    (h0 : I (.init descriptors gTrace))
    (hstep : ∀ f line f' summaries, I f → line.seq ≠ f.lastSeq →
      Answered modelJobUs { f with lastSeq := line.seq } line f' →
      I { f' with
        answered := f.answered ++ [line]
        trace := traceWith f line
        lastSeq := line.seq
        summaries := summaries })
    (looks : List Look) : I ((frontendMachine modelJobUs descriptors gTrace).run looks) := by
  refine Machine.invariant h0 ?_ (Machine.reachable_run _ looks)
  intro f look hf
  rcases @service_cases modelJobUs look.calloc f look.mem with
    hsame | ⟨line, f', summaries, hnew, hanswered, heq⟩
  · rw [show (frontendMachine modelJobUs descriptors gTrace).next f look = f from congrArg Prod.fst hsame]
    exact hf
  · have hnext := hstep f line f' summaries hf hnew hanswered
    obtain ⟨hlines, hseq, hopen, htrace⟩ := hanswered.frame
    have hfile : traceWith f' line = traceWith f line := by rw [traceWith, hopen, htrace]; rfl
    rw [show (frontendMachine modelJobUs descriptors gTrace).next f look = _ from heq, hlines, hfile]
    change f'.lastSeq = line.seq at hseq
    rw [← hseq] at hnext
    exact hnext

/-! ## The job protocol -/

/-- What the trace says about the job: the SUBMIT that was carried out, and how many POLLs since. -/
structure Story where
  submit : Option TraceLine
  polls  : Nat

namespace Story

def start : Story := ⟨none, 0⟩

def next (st : Story) (line : TraceLine) : Story :=
  if line.ok .submit then ⟨some line, 0⟩
  else if line.ok .poll then { st with polls := st.polls + 1 }
  else st

/-- May this line come next? One job is ever submitted; a POLL of it says ready from the second on; a COLLECT comes
    after that, and reports what the SUBMIT was answered and told. -/
structure Allows (st : Story) (line : TraceLine) : Prop where
  submit  : line.ok .submit = true → st.submit = none
  poll    : line.ok .poll = true → st.submit.isSome = true ∧ line.out[0]? = some (if 1 ≤ st.polls then 1 else 0)
  collect : line.ok .collect = true → 2 ≤ st.polls ∧
    ∃ job, st.submit = some job ∧ line.out[0]? = job.out[1]? ∧ line.out[3]? = job.arg[3]?

/-- The story a trace tells. -/
def told (lines : List TraceLine) : Story := lines.foldl next start

theorem told_concat (lines : List TraceLine) (line : TraceLine) : told (lines ++ [line]) = (told lines).next line :=
  List.foldl_concat ..

/-- Every line of the trace is allowed by the lines before it. -/
def Legal (lines : List TraceLine) : Prop := ∀ before line, before ++ [line] <+: lines → (told before).Allows line

theorem Legal.concat {lines : List TraceLine} {line : TraceLine} (h : Legal lines) (hline : (told lines).Allows line) :
    Legal (lines ++ [line]) := by
  intro before line' hpre
  rcases List.prefix_concat_iff.mp hpre with heq | hshort
  · obtain ⟨rfl, hline'⟩ := List.append_inj' heq rfl
    cases hline'
    exact hline
  · exact h before line' hshort

end Story

/-- The frontend's job is the one the story tells of. -/
inductive Knows (f : Frontend) (st : Story) : Prop
  | none (hjob : f.job.handle = 0) (hnext : f.nextJobHandle = 1) (hst : st.submit = none) (hpolls : st.polls = 0)
  | some (line : TraceLine) (hjob : f.job.handle = 1) (hnext : f.nextJobHandle = 2) (hst : st.submit = some line)
      (hus : line.out[1]? = some f.job.modeledUs) (hsoft : line.arg[3]? = some f.job.softwareUs)
      (hpolls : f.job.pollsRemaining = 2 - st.polls) (hready : f.job.ready = decide (2 ≤ st.polls))

theorem ok_unique {line : TraceLine} {c c' : GkCommand} (h : line.ok c = true) (hne : c ≠ c') : line.ok c' = false := by
  have hcmd : line.cmd = cmdName c.code := by
    simp only [TraceLine.ok, decide_eq_true_eq] at h
    exact h.1
  have hname : cmdName c.code ≠ cmdName c'.code := by
    rw [ne_eq, cmdName_code_iff, GkCommand.ofCode_code]
    simpa using hne
  simp only [TraceLine.ok, hcmd, hname, false_and, decide_false]

theorem Knows.congr {f f' : Frontend} {st : Story} (h : Knows f st) (hjob : f'.job = f.job)
    (hnext : f'.nextJobHandle = f.nextJobHandle) : Knows f' st := by
  cases h with
  | none h1 h2 h3 h4 => exact .none (by rw [hjob, h1]) (by rw [hnext, h2]) h3 h4
  | some line h1 h2 h3 h4 h5 h6 h7 =>
    exact .some line (by rw [hjob, h1]) (by rw [hnext, h2]) h3 (by rw [hjob, h4]) (by rw [hjob, h5]) (by rw [hjob, h6])
      (by rw [hjob, h7])

/-- A line that tells nothing of the job. -/
theorem Story.next_same {st : Story} {line : TraceLine} (hsubmit : line.ok .submit = false)
    (hpoll : line.ok .poll = false) : st.next line = st := by
  simp only [Story.next, hsubmit, hpoll, Bool.false_eq_true, if_false]

theorem Story.allows_same {st : Story} {line : TraceLine} (hsubmit : line.ok .submit = false)
    (hpoll : line.ok .poll = false) (hcollect : line.ok .collect = false) : st.Allows line where
  submit h := by rw [hsubmit] at h; cases h
  poll h := by rw [hpoll] at h; cases h
  collect h := by rw [hcollect] at h; cases h

/-- **One answer** is allowed by the story so far, and the job stays the one the story tells of. -/
theorem Answered.story {f f' : Frontend} {line : TraceLine} {st : Story} (h : Answered modelJobUs f line f')
    (hst : Knows f st) : st.Allows line ∧ Knows f' (st.next line) := by
  -- the lines that are about the allocation only
  have apart : ∀ {c : GkCommand}, line.ok c = true → c ≠ .submit → c ≠ .poll → c ≠ .collect →
      st.Allows line ∧ st.next line = st := fun hok h1 h2 h3 =>
    ⟨Story.allows_same (ok_unique hok h1) (ok_unique hok h2) (ok_unique hok h3),
      Story.next_same (ok_unique hok h1) (ok_unique hok h2)⟩
  cases h with
  | other done hsubmit hpoll hcollect hupload =>
    rw [Story.next_same hsubmit hpoll]
    exact ⟨Story.allows_same hsubmit hpoll hcollect, hst.congr rfl rfl⟩
  | alloc size hline hfree hpos hsize =>
    obtain ⟨hallows, hsame⟩ := apart hline (by decide) (by decide) (by decide)
    rw [hsame]
    exact ⟨hallows, hst.congr rfl rfl⟩
  | upload data bytes off uploaded hline _ _ _ _ _ _ =>
    obtain ⟨hallows, hsame⟩ := apart hline (by decide) (by decide) (by decide)
    rw [hsame]
    exact ⟨hallows, hst.congr rfl rfl⟩
  | free hline _ =>
    obtain ⟨hallows, hsame⟩ := apart hline (by decide) (by decide) (by decide)
    rw [hsame]
    exact ⟨hallows, hst.congr rfl rfl⟩
  | submit job hline hnone hhandle hpolls hready hus hsoft =>
    cases hst with
    | some _ hjob => rw [hnone] at hjob; cases hjob
    | none _ hnext hsub _ =>
      refine ⟨⟨fun _ => hsub, ?_, ?_⟩, ?_⟩
      · intro hpoll; rw [ok_unique hline (by decide)] at hpoll; cases hpoll
      · intro hcollect; rw [ok_unique hline (by decide)] at hcollect; cases hcollect
      · rw [Story.next, if_pos hline]
        exact .some line (hhandle.trans hnext) (by rw [hnext]; rfl) rfl hus hsoft hpolls hready
  | poll job hline hsome hjob hout =>
    cases hst with
    | none hzero => exact absurd hzero hsome
    | some first hone hnext hsub hus hsoft hpolls hready =>
      have hready' : job.ready = decide (1 ≤ st.polls) ∧ job.pollsRemaining = 2 - (st.polls + 1) ∧
          job.handle = f.job.handle ∧ job.modeledUs = f.job.modeledUs ∧ job.softwareUs = f.job.softwareUs := by
        subst hjob
        by_cases htwo : 2 ≤ st.polls
        · have hr : f.job.ready = true := by rw [hready]; exact decide_eq_true htwo
          rw [if_pos hr, hr, hpolls]
          exact ⟨(decide_eq_true (by omega)).symm, by omega, rfl, rfl, rfl⟩
        · have hr : ¬f.job.ready = true := by rw [hready, decide_eq_true_eq]; exact htwo
          rw [if_neg hr]
          refine ⟨?_, by show f.job.pollsRemaining - 1 = _; omega, rfl, rfl, rfl⟩
          show decide (f.job.pollsRemaining - 1 = 0) = _
          rw [hpolls, decide_eq_decide]
          omega
      obtain ⟨hr, hleft, hh, hm, hs⟩ := hready'
      have hnosubmit : line.ok .submit = false := ok_unique hline (by decide)
      refine ⟨⟨?_, ?_, ?_⟩, ?_⟩
      · intro hsubmit; rw [hnosubmit] at hsubmit; cases hsubmit
      · intro _
        refine ⟨by rw [hsub]; rfl, ?_⟩
        rw [hout, hr]
        simp only [decide_eq_true_eq]
      · intro hcollect; rw [ok_unique hline (by decide)] at hcollect; cases hcollect
      · have hnext' : st.next line = { st with polls := st.polls + 1 } := by
          rw [Story.next, if_neg (by rw [hnosubmit]; decide), if_pos hline]
        rw [hnext']
        refine .some first (hh.trans hone) hnext hsub (by rw [hm]; exact hus) (by rw [hs]; exact hsoft) hleft ?_
        show job.ready = decide (2 ≤ st.polls + 1)
        rw [hr, decide_eq_decide]
        omega
  | collect hline hsome hready hout =>
    cases hst with
    | none hzero => exact absurd hzero hsome
    | some first hone hnext hsub hus hsoft hpolls hready' =>
      have hsubmit : line.ok .submit = false := ok_unique hline (by decide)
      have hpoll : line.ok .poll = false := ok_unique hline (by decide)
      rw [hready, eq_comm, decide_eq_true_eq] at hready'
      refine ⟨⟨?_, ?_, ?_⟩, ?_⟩
      · intro h; rw [hsubmit] at h; cases h
      · intro h; rw [hpoll] at h; cases h
      · intro _
        refine ⟨hready', first, hsub, ?_, ?_⟩
        · rw [hout, hus]; rfl
        · rw [hout, hsoft]; rfl
      · rw [Story.next_same hsubmit hpoll]
        exact .some first hone hnext hsub hus hsoft hpolls (by rw [hready]; exact (decide_eq_true hready').symm)

variable {descriptors : List MemoryDescriptor} {gTrace : Bool}

/-- **The job protocol.** Whatever guests write between the looks and whatever the heap has left, every request answered
    is one the requests before it allow; and those are the lines of the trace file, if there is one. -/
theorem trace_legal (looks : List Look) :
    let f := (frontendMachine modelJobUs descriptors gTrace).run looks
    Story.Legal f.answered ∧ f.trace = if gTrace then f.answered else [] := by
  intro f
  have hrun : Knows f (Story.told f.answered) ∧ Story.Legal f.answered ∧ f.gTrace = gTrace ∧
      f.trace = if gTrace then f.answered else [] := by
    refine frontend_invariant (I := fun f => Knows f (Story.told f.answered) ∧ Story.Legal f.answered ∧
      f.gTrace = gTrace ∧ f.trace = if gTrace then f.answered else []) ?_ ?_ looks
    · exact ⟨.none rfl rfl rfl rfl, fun before line hpre => by simp [Frontend.init] at hpre, rfl, by cases gTrace <;> rfl⟩
    · rintro f line f' summaries ⟨hknows, hlegal, hopen, htrace⟩ _ hanswered
      have hseen : Knows { f with lastSeq := line.seq } (Story.told f.answered) := hknows.congr rfl rfl
      obtain ⟨hallows, hknows'⟩ := hanswered.story hseen
      obtain ⟨-, -, hopen', -⟩ := hanswered.frame
      rw [← Story.told_concat] at hknows'
      refine ⟨hknows'.congr rfl rfl, hlegal.concat hallows, hopen'.trans hopen, ?_⟩
      show traceWith f line = _
      rw [traceWith, hopen, htrace]
      cases gTrace <;> rfl
  exact ⟨hrun.2.1, hrun.2.2.2⟩

/-! ## The buffer -/

/-- The allocation is as large as it says, and what was uploaded lies in it. -/
inductive GkAlloc.Sound (a : GkAlloc) : Prop
  | free (h : a = .zero)
  | held (data : List UInt8) (hdata : a.data = some data) (hlen : data.length = a.size.toNat)
      (hsize : a.size ≤ gkLocalMemoryBytes) (huploaded : a.uploaded ≤ a.size)

theorem Answered.sound {f f' : Frontend} {line : TraceLine} (h : Answered modelJobUs f line f')
    (hf : f.alloc.Sound) : f'.alloc.Sound := by
  cases h with
  | other | submit | poll | collect => exact hf
  | alloc size _ _ _ hsize =>
    exact .held (List.replicate size.toNat 0) rfl List.length_replicate hsize UInt32.zero_le
  | free => exact .free rfl
  | upload data bytes off uploaded _ hdata _ _ hfits huploaded _ =>
    cases hf with
    | free hzero => rw [hzero] at hdata; cases hdata
    | held data' hdata' hlen hsize hup =>
      have heq : data' = data := Option.some.inj (hdata'.symm.trans hdata)
      subst heq
      refine .held _ rfl ?_ hsize ?_
      · rw [splice_length (by omega)]
        show max data'.length (off.toNat + bytes.length) = f.alloc.size.toNat
        omega
      · have hle : f.alloc.uploaded.toNat ≤ f.alloc.size.toNat := hup
        show uploaded.toNat ≤ f.alloc.size.toNat
        omega

/-- After an UPLOAD the checksum it was answered with is that of the buffer up to what has been uploaded. -/
def ChecksumOfLast (f : Frontend) : Prop :=
  ∀ line, f.answered.getLast? = some line → line.ok .upload = true →
    ∃ data, f.alloc.data = some data ∧ line.out[1]? = some (fnv1a (data.take f.alloc.uploaded.toNat))

theorem Answered.checksum {f f' : Frontend} {line : TraceLine} (h : Answered modelJobUs f line f')
    (hok : line.ok .upload = true) :
    ∃ data, f'.alloc.data = some data ∧ line.out[1]? = some (fnv1a (data.take f'.alloc.uploaded.toNat)) := by
  have no : ∀ {c : GkCommand}, line.ok c = true → c ≠ .upload → False := fun hc hne => by
    rw [ok_unique hc hne] at hok
    cases hok
  cases h with
  | other _ _ _ _ hupload => rw [hupload] at hok; cases hok
  | alloc _ hline => exact (no hline (by decide)).elim
  | submit _ hline => exact (no hline (by decide)).elim
  | poll _ hline => exact (no hline (by decide)).elim
  | collect hline => exact (no hline (by decide)).elim
  | free hline => exact (no hline (by decide)).elim
  | upload data bytes off uploaded _ _ _ _ _ _ hout => exact ⟨_, rfl, hout⟩

/-- **Uploads stay inside.** In every reachable state the buffer is as long as its size says, at most the whole local
    memory, and holds everything uploaded; and a checksum reported by an UPLOAD is that of the buffer's first `uploaded`
    bytes. -/
theorem buffer_safe (looks : List Look) :
    ((frontendMachine modelJobUs descriptors gTrace).run looks).alloc.Sound ∧
      ChecksumOfLast ((frontendMachine modelJobUs descriptors gTrace).run looks) := by
  refine frontend_invariant (I := fun f => f.alloc.Sound ∧ ChecksumOfLast f) ?_ ?_ looks
  · exact ⟨.free rfl, fun line hlast => by cases hlast⟩
  · rintro f line f' summaries ⟨hsound, _⟩ _ hanswered
    refine ⟨hanswered.sound hsound, ?_⟩
    intro last hlast hok
    have hline : last = line := by
      rw [List.getLast?_concat] at hlast
      exact (Option.some.inj hlast).symm
    subst hline
    exact hanswered.checksum hok

/-! ## The mailbox -/

/-- Outside RESULT, OUT0 .. OUT3 and STATE. -/
def Untouched (a : Nat) : Prop :=
  (a < 0x0FFFC010 ∨ 0x0FFFC018 ≤ a) ∧ (a < 0x0FFFC028 ∨ 0x0FFFC038 ≤ a)

theorem setWord_of_outside {m : Mem} {b v : UInt32} {a : Nat} (h : a < b.toNat ∨ b.toNat + 4 ≤ a) :
    m.setWord b v a = m a := by
  apply Mem.write_of_outside
  rw [leBytes_length]
  exact h

theorem storeAnswer_frame (box : GkMailbox) (m : Mem) {a : Nat} (h : Untouched a) : box.storeAnswer m a = m a := by
  obtain ⟨hlow, hhigh⟩ := h
  have at10 : (0x0FFFC010 : UInt32).toNat = 0x0FFFC010 := rfl
  have at14 : (0x0FFFC014 : UInt32).toNat = 0x0FFFC014 := rfl
  have at28 : (0x0FFFC028 : UInt32).toNat = 0x0FFFC028 := rfl
  have at2C : (0x0FFFC02C : UInt32).toNat = 0x0FFFC02C := rfl
  have at30 : (0x0FFFC030 : UInt32).toNat = 0x0FFFC030 := rfl
  have at34 : (0x0FFFC034 : UInt32).toNat = 0x0FFFC034 := rfl
  unfold GkMailbox.storeAnswer
  rw [setWord_of_outside (by omega), setWord_of_outside (by omega), setWord_of_outside (by omega),
    setWord_of_outside (by omega), setWord_of_outside (by omega), setWord_of_outside (by omega)]

/-- What the frontend writes of a guest's memory. -/
theorem service_frame (f : Frontend) (m : Mem) {a : Nat} (h : Untouched a) :
    (f.serviceGekkopak modelJobUs calloc m).2 a = m a := by
  by_cases hreq : f.requested (GkMailbox.load m) = true
  · simp only [Frontend.serviceGekkopak, if_pos hreq]
    exact storeAnswer_frame _ _ h
  · simp only [Frontend.serviceGekkopak, if_neg hreq]

/-- The sequence number remembered is that of the last line. -/
def lastOf (lines : List TraceLine) : UInt32 := ((lines.getLast?).map TraceLine.seq).getD 0

/-- **Answers.** Along every run no two requests answered in a row have the same sequence number, the first one's is not
    zero, and a look leaves every byte of the guest's memory alone but those of the answer's words. -/
theorem answers_once (looks : List Look) :
    (∀ before line, before ++ [line] <+: ((frontendMachine modelJobUs descriptors gTrace).run looks).answered →
      line.seq ≠ lastOf before) ∧
    (∀ look a, Untouched a → (frontendMachine modelJobUs descriptors gTrace).out
      ((frontendMachine modelJobUs descriptors gTrace).run looks) look a = look.mem a) := by
  refine ⟨?_, fun look a ha => service_frame _ look.mem ha⟩
  have hrun : ((frontendMachine modelJobUs descriptors gTrace).run looks).lastSeq
        = lastOf ((frontendMachine modelJobUs descriptors gTrace).run looks).answered ∧
      ∀ before line, before ++ [line] <+: ((frontendMachine modelJobUs descriptors gTrace).run looks).answered →
        line.seq ≠ lastOf before := by
    refine frontend_invariant (I := fun f => f.lastSeq = lastOf f.answered ∧
      ∀ before line, before ++ [line] <+: f.answered → line.seq ≠ lastOf before) ?_ ?_ looks
    · exact ⟨rfl, fun before line hpre => by simp [Frontend.init] at hpre⟩
    · rintro f line f' summaries ⟨hlast, hchain⟩ hnew _
      refine ⟨?_, ?_⟩
      · show line.seq = lastOf (f.answered ++ [line])
        rw [lastOf, List.getLast?_concat]
        rfl
      · intro before line' hpre
        rcases List.prefix_concat_iff.mp hpre with heq | hshort
        · obtain ⟨rfl, hline⟩ := List.append_inj' heq rfl
          cases hline
          rw [← hlast]
          exact hnew
        · exact hchain before line' hshort
  exact hrun.2

end Mailbox

end GekkoPak
