import GekkoPak.Device.Steps

/-!
# `Device.BlockSteps` — what one F4 or F5 can do

Inversion for the block transport, from the inside out:

* `processDescriptor_step` — one turn of the descriptor loop settles the descriptor in one of five ways
  (`DescriptorStep`) and then pushes exactly one record, whatever the exit;
* `writeBlock_cases` — an F4 is refused with only RESULT changed, or runs the loop over what it parsed;
* `readBlock_cases` — an F5 is refused with only RESULT changed, or moves the oldest records out.
-/

namespace GekkoPak

open Basis

namespace Device

/-! ## One descriptor -/

/-- The state in which the output of a descriptor is checked: inline input has been copied in. -/
def staged (s : Device) (i : Fin kMaxAllocations) (p : ParsedDescriptor) : Device :=
  match p.input with
  | some bs => s.stageInline i p.desc bs
  | none    => s

/-- The job an accepted descriptor with its input in slot `i` creates. -/
def blockJob (s : Device) (i : Fin kMaxAllocations) (desc : JobDescriptorV1) (transportShareNs : UInt32) : Job :=
  let modeledUs := nsToUs (s.computeNs desc.workUnits + transportShareNs)
  { allocation := desc.inputHandle
    modeledUs := modeledUs
    speedupX1000 := speedup desc.arg0 modeledUs
    checksum := fnv1a (s.pool.read ((s.allocations i).offset.toNat + desc.inputOffset.toNat)
      desc.inputLength.toNat)
    softwareUs := desc.arg0
    pollsRemaining := 0
    ready := true
    live := true
    handle := s.nextJob }

/-- The record of a job accepted in the block. -/
def recordOf (completion : CompletionRecordV1) (job : Job) : CompletionRecordV1 :=
  { completion with
    jobHandle := job.handle
    modeledUs := job.modeledUs
    speedupX1000 := job.speedupX1000
    checksum := job.checksum }

/-- **The five ways a descriptor settles**: the state it leaves, and the record it produces. -/
inductive DescriptorStep (s : Device) (batchSize share : UInt32) (p : ParsedDescriptor) :
    Device → CompletionRecordV1 → Prop
  | badInput (hin : s.inputSlot p.desc = none) :
      DescriptorStep s batchSize share p s
        { completionFor p.desc batchSize share with status := Status.badHandle.code16 }
  | notUploaded (i : Fin kMaxAllocations) (hin : s.inputSlot p.desc = some i) (hnone : p.input = none)
      (hlt : (s.allocations i).uploaded < p.desc.inputOffset + p.desc.inputLength) :
      DescriptorStep s batchSize share p s
        { completionFor p.desc batchSize share with status := Status.badDescriptor.code16 }
  | badOutput (i : Fin kMaxAllocations) (hin : s.inputSlot p.desc = some i)
      (hup : p.input = none → p.desc.inputOffset + p.desc.inputLength ≤ (s.allocations i).uploaded)
      (hout : (s.staged i p).outputOk p.desc = false) :
      DescriptorStep s batchSize share p (s.staged i p)
        { completionFor p.desc batchSize share with status := Status.badHandle.code16 }
  | noSlot (i : Fin kMaxAllocations) (hin : s.inputSlot p.desc = some i)
      (hup : p.input = none → p.desc.inputOffset + p.desc.inputLength ≤ (s.allocations i).uploaded)
      (hout : (s.staged i p).outputOk p.desc = true) (hfree : s.freeJobSlot = none) :
      DescriptorStep s batchSize share p (s.staged i p)
        { completionFor p.desc batchSize share with status := Status.queueFull.code16 }
  | accepted (i : Fin kMaxAllocations) (slot : Fin kMaxJobs) (hin : s.inputSlot p.desc = some i)
      (hup : p.input = none → p.desc.inputOffset + p.desc.inputLength ≤ (s.allocations i).uploaded)
      (hout : (s.staged i p).outputOk p.desc = true) (hfree : s.freeJobSlot = some slot) :
      DescriptorStep s batchSize share p
        (((s.staged i p).poolHash p.desc.inputHandle
            (((s.staged i p).allocations i).offset.toNat + p.desc.inputOffset.toNat)
            p.desc.inputLength.toNat).1.issueJob slot ((s.staged i p).blockJob i p.desc share))
        (recordOf (completionFor p.desc batchSize share) ((s.staged i p).blockJob i p.desc share))

/-- What the input check gives: the handle resolves, and the range lies inside the allocation. -/
theorem inputSlot_some {s : Device} {desc : JobDescriptorV1} {i : Fin kMaxAllocations}
    (h : s.inputSlot desc = some i) :
    s.allocationForHandle desc.inputHandle = some i ∧ desc.inputOffset ≤ (s.allocations i).size ∧
      desc.inputLength ≤ (s.allocations i).size - desc.inputOffset := by
  unfold inputSlot at h
  cases hs : s.allocationForHandle desc.inputHandle with
  | none => rw [hs] at h; cases h
  | some j =>
    simp only [hs] at h
    split at h
    · cases h
    · rename_i hok
      obtain rfl := Option.some.inj h
      simp only [gt_iff_lt, not_or, UInt32.not_lt] at hok
      exact ⟨rfl, hok.1, hok.2⟩

theorem staged_freeJobSlot (s : Device) (i : Fin kMaxAllocations) (p : ParsedDescriptor) :
    (s.staged i p).freeJobSlot = s.freeJobSlot := by
  unfold staged
  cases p.input <;> rfl

/-- The part of the loop body after the input is in place. -/
theorem runDescriptor_step (s : Device) (batchSize share : UInt32) (p : ParsedDescriptor)
    (i : Fin kMaxAllocations) (hin : s.inputSlot p.desc = some i)
    (hup : p.input = none → p.desc.inputOffset + p.desc.inputLength ≤ (s.allocations i).uploaded) :
    ∃ t r, DescriptorStep s batchSize share p t r ∧
      (s.staged i p).runDescriptor i p.desc (completionFor p.desc batchSize share) share
        = t.pushCompletion r := by
  unfold runDescriptor
  cases hout : (s.staged i p).outputOk p.desc with
  | false =>
    simp only [Bool.not_false, if_true]
    exact ⟨_, _, .badOutput i hin hup hout, rfl⟩
  | true =>
    simp only [Bool.not_true, Bool.false_eq_true, if_false]
    rw [staged_freeJobSlot]
    cases hfree : s.freeJobSlot with
    | none => exact ⟨_, _, .noSlot i hin hup hout hfree, rfl⟩
    | some slot => exact ⟨_, _, .accepted i slot hin hup hout hfree, rfl⟩

/-- **Inversion of the loop body**: whatever the exit, one record is pushed, last. -/
theorem processDescriptor_step (s : Device) (batchSize share : UInt32) (p : ParsedDescriptor) :
    ∃ t r, DescriptorStep s batchSize share p t r ∧
      s.processDescriptor batchSize share p = t.pushCompletion r := by
  unfold processDescriptor
  cases hin : s.inputSlot p.desc with
  | none => exact ⟨s, _, .badInput hin, rfl⟩
  | some i =>
    cases hp : p.input with
    | some bs =>
      -- inline input is staged before the output and the job table are looked at, and stays if they refuse
      have hst : s.stageInline i p.desc bs = s.staged i p := by simp only [staged, hp]
      simp only [hst]
      exact runDescriptor_step s batchSize share p i hin (by simp [hp])
    | none =>
      have hst : s.staged i p = s := by simp only [staged, hp]
      by_cases hlt : (s.allocations i).uploaded < p.desc.inputOffset + p.desc.inputLength
      · simp only [if_pos hlt]
        exact ⟨s, _, .notUploaded i hin hp hlt, rfl⟩
      · simp only [if_neg hlt]
        have hrun := runDescriptor_step s batchSize share p i hin (fun _ => UInt32.not_lt.mp hlt)
        rw [hst] at hrun
        exact hrun

/-! ## The descriptor loop -/

/-- **Rule of the descriptor loop.** A property of the descriptors done so far, the state and the flag that
    survives one more settled descriptor, with its record pushed, holds when the loop is through. -/
theorem processDescriptors_from {batchSize share : UInt32} {ps : List ParsedDescriptor}
    {I : List ParsedDescriptor → Device → Bool → Prop}
    (hstep : ∀ done p, p ∈ ps → ∀ s dropped t r, I done s dropped → DescriptorStep s batchSize share p t r →
      I (done ++ [p]) (t.pushCompletion r).1 (dropped || !(t.pushCompletion r).2)) :
    ∀ {done : List ParsedDescriptor} {s : Device} {dropped : Bool}, I done s dropped →
      I (done ++ ps) (s.processDescriptors batchSize share ps dropped).1
        (s.processDescriptors batchSize share ps dropped).2 := by
  -- on the descriptors still to come; `done` grows at the end
  induction ps with
  | nil =>
    intro done s dropped hs
    rw [List.append_nil]
    exact hs
  | cons p ps ih =>
    intro done s dropped hs
    obtain ⟨t, r, hd, heq⟩ := processDescriptor_step s batchSize share p
    have hnext := hstep done p (by simp) s dropped t r hs hd
    have hrest := ih (fun done q hq => hstep done q (List.mem_cons_of_mem p hq)) hnext
    rw [List.append_assoc, List.singleton_append] at hrest
    unfold processDescriptors
    simp only [heq]
    exact hrest

/-- The same from the start of the loop. -/
theorem processDescriptors_run {batchSize share : UInt32} {ps : List ParsedDescriptor}
    {I : List ParsedDescriptor → Device → Bool → Prop}
    (hstep : ∀ done p, p ∈ ps → ∀ s dropped t r, I done s dropped → DescriptorStep s batchSize share p t r →
      I (done ++ [p]) (t.pushCompletion r).1 (dropped || !(t.pushCompletion r).2))
    {s : Device} {dropped : Bool} (hs : I [] s dropped) :
    I ps (s.processDescriptors batchSize share ps dropped).1
      (s.processDescriptors batchSize share ps dropped).2 := processDescriptors_from hstep hs

/-- The same for a property of the state alone. -/
theorem processDescriptors_invariant {I : Device → Prop} {batchSize share : UInt32}
    {ps : List ParsedDescriptor}
    (hstep : ∀ p ∈ ps, ∀ s t r, I s → DescriptorStep s batchSize share p t r → I (t.pushCompletion r).1)
    {s : Device} {dropped : Bool} (hs : I s) : I (s.processDescriptors batchSize share ps dropped).1 :=
  processDescriptors_run (I := fun _ s _ => I s)
    (fun _ p hp s _ t r hI hd => hstep p hp s t r hI hd) hs

/-! ## F4 -/

/-- The meaningful length of an F4, as `WriteBlock` computes it. -/
def blockLength (word : UInt32) : Nat := (word &&& 0xFFFF).toNat

/-- What `WriteBlock` checks before it looks inside the block. -/
def BlockAccepted (selector : UInt8) (word : UInt32) (bytes : List UInt8) : Prop :=
  selector = kSelectorSubmission ∧ blockLength word ≠ 0 ∧ blockLength word ≤ kBlockBytes ∧
    blockLength word ≤ bytes.length

instance (selector : UInt8) (word : UInt32) (bytes : List UInt8) :
    Decidable (BlockAccepted selector word bytes) := inferInstanceAs (Decidable (_ ∧ _))

/-- The state and the flag after the descriptor loop over a whole parsed block. -/
def runBlock (s : Device) (parsed : List ParsedDescriptor) : Device × Bool :=
  s.processDescriptors (UInt32.ofNat parsed.length) (s.transportShare (UInt32.ofNat parsed.length)) parsed false

/-- **What an F4 can do.** It is refused at the door; or refused by the parser; or it runs what it parsed. -/
theorem writeBlock_cases (s : Device) (selector : UInt8) (word : UInt32) (data : Option (List UInt8)) :
    (s.writeBlock selector word data = (s.setResult .badBlock, .badBlock) ∧
      ∀ bytes, data = some bytes → ¬ BlockAccepted selector word bytes) ∨
    ∃ bytes, data = some bytes ∧ BlockAccepted selector word bytes ∧
      ((∃ st, parse bytes (blockLength word) = .error st ∧
          s.writeBlock selector word data = (s.setResult st, st)) ∨
       ∃ parsed, parse bytes (blockLength word) = .ok parsed ∧
          s.writeBlock selector word data =
            ((s.runBlock parsed).1.setResult (if (s.runBlock parsed).2 then .queueFull else .ok),
              if (s.runBlock parsed).2 then .queueFull else .ok)) := by
  cases data with
  | none => exact Or.inl ⟨rfl, fun bytes h => by cases h⟩
  | some bytes =>
    by_cases hok : BlockAccepted selector word bytes
    · refine Or.inr ⟨bytes, rfl, hok, ?_⟩
      have hno : ¬(selector ≠ kSelectorSubmission ∨ blockLength word = 0 ∨ blockLength word > kBlockBytes ∨
          blockLength word > bytes.length) := by
        obtain ⟨h1, h2, h3, h4⟩ := hok
        rintro (h | h | h | h)
        · exact h h1
        · exact h2 h
        · exact absurd h3 (Nat.not_le.mpr h)
        · exact absurd h4 (Nat.not_le.mpr h)
      have hw : s.writeBlock selector word (some bytes) =
          ((s.processDescriptorBlock bytes (blockLength word)).1.setResult
              (s.processDescriptorBlock bytes (blockLength word)).2,
            (s.processDescriptorBlock bytes (blockLength word)).2) := by
        simp only [writeBlock]
        exact if_neg hno
      rw [hw]
      unfold processDescriptorBlock
      cases hp : parse bytes (blockLength word) with
      | error st => exact Or.inl ⟨st, rfl, rfl⟩
      | ok parsed => exact Or.inr ⟨parsed, rfl, rfl⟩
    · refine Or.inl ⟨?_, fun b hb => by cases hb; exact hok⟩
      have hno : selector ≠ kSelectorSubmission ∨ blockLength word = 0 ∨ blockLength word > kBlockBytes ∨
          blockLength word > bytes.length := by
        by_contra hcon
        simp only [not_or, not_not, Nat.not_lt, gt_iff_lt] at hcon
        exact hok ⟨hcon.1, hcon.2.1, hcon.2.2.1, hcon.2.2.2⟩
      simp only [writeBlock]
      exact if_pos hno

/-- An F4 that passes the door and parses. -/
theorem writeBlock_parsed {s : Device} {selector : UInt8} {word : UInt32} {bytes : List UInt8}
    {parsed : List ParsedDescriptor} (hacc : BlockAccepted selector word bytes)
    (hparse : parse bytes (blockLength word) = .ok parsed) :
    s.writeBlock selector word (some bytes) =
      ((s.runBlock parsed).1.setResult (if (s.runBlock parsed).2 then .queueFull else .ok),
        if (s.runBlock parsed).2 then .queueFull else .ok) := by
  rcases writeBlock_cases s selector word (some bytes) with ⟨-, hno⟩ | ⟨b, hb, -, h⟩
  · exact absurd hacc (hno bytes rfl)
  · cases hb
    rcases h with ⟨st, hst, -⟩ | ⟨ps, hps, heq⟩
    · rw [hparse] at hst; cases hst
    · rw [hparse] at hps; cases hps; exact heq

/-! ## F5 -/

/-- The length an F5 asks for. -/
def readLength (word : UInt32) : Nat := (word >>> 16).toNat

/-- The source offset an F5 asks for. -/
def readOffset (word : UInt32) : Nat := (word &&& 0xFFFF).toNat

/-- What `ReadBlock` checks, for an output buffer of `outBytes` bytes. -/
def ReadAccepted (selector : UInt8) (word : UInt32) (outBytes : Nat) : Prop :=
  outBytes ≠ 0 ∧ selector = kSelectorCompletion ∧ readOffset word = 0 ∧ readLength word ≠ 0 ∧
    readLength word ≤ kBlockBytes

instance (selector : UInt8) (word : UInt32) (outBytes : Nat) :
    Decidable (ReadAccepted selector word outBytes) := inferInstanceAs (Decidable (_ ∧ _))

/-- The bytes of a list of records, one after the other. -/
def recordBytes (rs : List CompletionRecordV1) : List UInt8 := rs.flatMap CompletionRecordV1.toBytes

@[simp] theorem recordBytes_length (rs : List CompletionRecordV1) :
    (recordBytes rs).length = kCompletionBytes * rs.length := by
  induction rs with
  | nil => rfl
  | cons r rs ih =>
    have hcons : recordBytes (r :: rs) = r.toBytes ++ recordBytes rs := rfl
    rw [hcons, List.length_append, ih, CompletionRecordV1.toBytes_length, List.length_cons]
    ring

/-- **The copy loop of F5.** With `acc` already copied into a zeroed buffer of `n` bytes, it appends the
    oldest records that fit below `limit`, takes exactly those off the queue, and leaves the rest zero. -/
theorem drainLoop_spec (limit n : Nat) (hlim : limit ≤ n) :
    ∀ (turns : Nat) (s : Device) (acc : List UInt8), s.completions.count = turns → acc.length ≤ n →
      ∃ q k, k = min turns ((limit - acc.length) / kCompletionBytes) ∧
        s.completions.contents = s.completions.contents.take k ++ q.contents ∧
        drainLoop limit turns s acc.length (acc ++ List.replicate (n - acc.length) 0) =
          ({ s with completions := q }, acc.length + kCompletionBytes * k,
            acc ++ recordBytes (s.completions.contents.take k) ++
              List.replicate (n - (acc.length + kCompletionBytes * k)) 0) := by
  -- on the turns left, one for each record still queued; `acc` is what earlier turns copied
  intro turns
  induction turns with
  | zero =>
    intro s acc _ _
    exact ⟨s.completions, 0, by simp, by simp, by simp [drainLoop, recordBytes]⟩
  | succ turns ih =>
    intro s acc hcount hacc
    unfold drainLoop
    by_cases hfit : acc.length + kCompletionBytes ≤ limit
    · rw [if_pos hfit]
      cases hpop : s.completions.pop with
      | none => rw [Ring.pop_eq_none] at hpop; omega   -- a turn is left, so a record is
      | some xq =>
        obtain ⟨r, q⟩ := xq
        have hcons := Ring.contents_pop hpop
        have hq : q.count = turns := by
          have hlen := congrArg List.length hcons
          simp only [Ring.contents_length, List.length_cons] at hlen
          omega
        have hlen' : (acc ++ r.toBytes).length = acc.length + kCompletionBytes := by simp
        -- copying at `written` extends the filled part by one record
        have hsplice : splice (acc ++ List.replicate (n - acc.length) 0) acc.length r.toBytes
            = (acc ++ r.toBytes) ++ List.replicate (n - (acc ++ r.toBytes).length) 0 := by
          rw [splice_append, List.drop_replicate, CompletionRecordV1.toBytes_length, hlen']
          congr 2
        have hdiv : (limit - acc.length) / kCompletionBytes
            = (limit - (acc.length + kCompletionBytes)) / kCompletionBytes + 1 := by
          have hfit' : acc.length + 64 ≤ limit := hfit
          show (limit - acc.length) / 64 = (limit - (acc.length + 64)) / 64 + 1
          omega
        obtain ⟨q', k, hk, hcont, hdrain⟩ := ih { s with completions := q } (acc ++ r.toBytes) hq (by omega)
        have hk' : k = min turns ((limit - (acc.length + kCompletionBytes)) / kCompletionBytes) := by
          rw [hk, hlen']
        refine ⟨q', k + 1, by rw [hdiv, hk']; omega, ?_, ?_⟩
        · have hq' : q.contents = q.contents.take k ++ q'.contents := hcont
          rw [hcons, List.take_succ_cons, List.cons_append, ← hq']
        · simp only [popCompletion, hpop]
          rw [hsplice, ← hlen', hdrain]
          have htake : recordBytes (s.completions.contents.take (k + 1))
              = r.toBytes ++ recordBytes (q.contents.take k) := by
            rw [hcons, List.take_succ_cons]; rfl
          have hsum : (acc ++ r.toBytes).length + kCompletionBytes * k
              = acc.length + kCompletionBytes * (k + 1) := by rw [hlen']; ring
          rw [htake, hsum]
          simp only [List.append_assoc]
    · -- less than a record is left below the limit: nothing more is popped
      have hzero : (limit - acc.length) / kCompletionBytes = 0 := by
        have hfit' : ¬ acc.length + 64 ≤ limit := hfit
        apply Nat.div_eq_of_lt
        show limit - acc.length < 64
        omega
      rw [if_neg hfit]
      exact ⟨s.completions, 0, by rw [hzero, Nat.min_zero], by simp, by simp [recordBytes]⟩

/-- How many records an accepted F5 moves. -/
def readCount (s : Device) (word : UInt32) (outBytes : Nat) : Nat :=
  min s.completions.count (min (readLength word) outBytes / kCompletionBytes)

/-- **What an F5 can do.** It is refused, with RESULT changed and a zeroed buffer; or it moves the oldest
    `readCount` records out, as their bytes, in front of zeroes. -/
theorem readBlock_cases (s : Device) (selector : UInt8) (word : UInt32) (out : Option Nat) :
    (s.readBlock selector word out = (s.setResult .badBlock, 0, List.replicate (out.getD 0) 0) ∧
      ∀ outBytes, out = some outBytes → ¬ ReadAccepted selector word outBytes) ∨
    ∃ outBytes q, out = some outBytes ∧ ReadAccepted selector word outBytes ∧
      s.completions.contents = s.completions.contents.take (s.readCount word outBytes) ++ q.contents ∧
      s.readBlock selector word out =
        ({ s with completions := q }.setResult .ok, kCompletionBytes * s.readCount word outBytes,
          recordBytes (s.completions.contents.take (s.readCount word outBytes)) ++
            List.replicate (outBytes - kCompletionBytes * s.readCount word outBytes) 0) := by
  cases out with
  | none => exact Or.inl ⟨rfl, fun outBytes h => by cases h⟩
  | some outBytes =>
    by_cases h0 : outBytes = 0
    · subst h0
      exact Or.inl ⟨rfl, fun n hn hok => by cases hn; exact hok.1 rfl⟩
    by_cases hbad : selector ≠ kSelectorCompletion ∨ readOffset word ≠ 0 ∨ readLength word = 0 ∨
        readLength word > kBlockBytes
    · refine Or.inl ⟨?_, ?_⟩
      · simp only [readBlock]
        rw [if_neg h0]
        exact if_pos hbad
      · intro n hn hok
        cases hn
        obtain ⟨-, h1, h2, h3, h4⟩ := hok
        rcases hbad with h | h | h | h
        · exact h h1
        · exact h h2
        · exact h3 h
        · exact absurd h4 (Nat.not_le.mpr h)
    · have hlimit : (if readLength word < outBytes then readLength word else outBytes)
          = min (readLength word) outBytes := by
        rcases Nat.lt_or_ge (readLength word) outBytes with h | h
        · rw [if_pos h, Nat.min_eq_left (Nat.le_of_lt h)]
        · rw [if_neg (Nat.not_lt.mpr h), Nat.min_eq_right h]
      obtain ⟨q, k, hk, hcont, hdrain⟩ := drainLoop_spec (min (readLength word) outBytes) outBytes
        (Nat.min_le_right _ _) s.completions.count s [] rfl (Nat.zero_le _)
      have hk' : k = s.readCount word outBytes := hk
      refine Or.inr ⟨outBytes, q, rfl, ?_, hk' ▸ hcont, ?_⟩
      · simp only [not_or, not_not, gt_iff_lt, Nat.not_lt] at hbad
        exact ⟨h0, hbad.1, hbad.2.1, hbad.2.2.1, hbad.2.2.2⟩
      · simp only [List.length_nil, List.nil_append, Nat.zero_add, Nat.sub_zero] at hdrain
        have hr : s.readBlock selector word (some outBytes) =
            ((drainLoop (min (readLength word) outBytes) s.completions.count s 0
                (List.replicate outBytes 0)).1.setResult .ok,
              (drainLoop (min (readLength word) outBytes) s.completions.count s 0
                (List.replicate outBytes 0)).2) := by
          rw [← hlimit]
          simp only [readBlock]
          rw [if_neg h0]
          exact if_neg hbad
        rw [hr, hdrain, hk']

/-- The buffer an F5 fills keeps its length. -/
theorem readBlock_out_length (s : Device) (selector : UInt8) (word : UInt32) (outBytes : Nat) :
    (s.readBlock selector word (some outBytes)).2.2.length = outBytes := by
  rcases s.readBlock_cases selector word (some outBytes) with ⟨heq, -⟩ | ⟨n, q, hn, -, -, heq⟩
  · rw [heq]
    simp
  · cases hn
    have hcount : s.readCount word outBytes ≤ s.completions.count := Nat.min_le_left _ _
    have hroom : 64 * s.readCount word outBytes ≤ outBytes := by
      have h1 : s.readCount word outBytes ≤ min (readLength word) outBytes / 64 := Nat.min_le_right _ _
      have h2 : min (readLength word) outBytes ≤ outBytes := Nat.min_le_right _ _
      omega
    rw [heq]
    simp only [List.length_append, recordBytes_length, List.length_take, Ring.contents_length,
      List.length_replicate]
    rw [Nat.min_eq_left hcount]
    show 64 * s.readCount word outBytes + (outBytes - 64 * s.readCount word outBytes) = outBytes
    omega

end Device

end GekkoPak
