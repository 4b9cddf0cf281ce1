import GekkoPak.Basis.Coverage
import GekkoPak.Device.Correctness.Batch
import GekkoPak.Device.Correctness.Buffers
import GekkoPak.Device.Correctness.FirstFit

/-!
# `Device.Correctness.Uploads` — what the device hashes

UPLOAD and SUBMIT hash a buffer up to its mark, a descriptor hashes a range below it, and the mark is one number for
all that was written. An UPLOAD, or an inline input, that starts above the mark moves it over bytes nobody wrote since
the ALLOC, and from then on the pool's previous contents are hashed with the rest. As long as every write joins on
(`Store.InOrder`), every checksum is of bytes uploaded to that handle since its ALLOC and of nothing else.

`Uploads es s` ties a device to the effects that led to it; it is kept by every descriptor and every operation.
-/

namespace GekkoPak

open Basis

namespace Device

/-! ## A device and the effects that led to it -/

/-- The device `s` is where the effects `es` lead. -/
structure Uploads (es : List (Effect UInt32)) (s : Device) : Prop where
  buffers : s.buffers = Store.build es
  fresh   : ∀ k b, .create k b ∈ es → b.mark = 0

namespace Uploads

variable {es : List (Effect UInt32)} {s : Device}

/-- In order, a live entry is what was uploaded to it. -/
theorem stands (h : Uploads es s) (horder : Store.InOrder es) {handle : UInt32} {i : Fin kMaxAllocations}
    (hslot : s.allocationForHandle handle = some i) :
    Stands (s.bufferOf (s.allocations i)) (Store.history es handle) := by
  refine horder.stands h.fresh ?_
  rw [← h.buffers]
  exact buffers_of_slot hslot

/-- **What lies below the mark in the pool is what was uploaded.** -/
theorem read (h : Uploads es s) (horder : Store.InOrder es) {handle : UInt32} {i : Fin kMaxAllocations}
    (hslot : s.allocationForHandle handle = some i) {off len : Nat}
    (hin : off + len ≤ (s.allocations i).uploaded.toNat) :
    off + len ≤ (assemble (Store.history es handle)).length ∧
      s.pool.read ((s.allocations i).offset.toNat + off) len = slice (assemble (Store.history es handle)) off len := by
  have hstands := h.stands horder hslot
  have hlen : (assemble (Store.history es handle)).length = (s.allocations i).uploaded.toNat := hstands.length
  have hsize : (s.allocations i).uploaded.toNat ≤ (s.allocations i).size.toNat := by
    have hle := hstands.mark_le
    rw [bufferOf, Mem.read_length] at hle
    exact hle
  have hbytes : (s.pool.read (s.allocations i).offset.toNat (s.allocations i).size.toNat).take
      (s.allocations i).uploaded.toNat = assemble (Store.history es handle) := hstands.bytes
  refine ⟨by rw [hlen]; exact hin, ?_⟩
  rw [← hbytes, slice, List.drop_take, List.take_take, Nat.min_eq_left (by omega)]
  exact (Mem.slice_read (by omega)).symm

/-- The hash of what lies below the mark. -/
theorem hash (h : Uploads es s) (horder : Store.InOrder es) {handle : UInt32} {i : Fin kMaxAllocations}
    (hslot : s.allocationForHandle handle = some i) :
    s.pool.read (s.allocations i).offset.toNat (s.allocations i).uploaded.toNat =
      assemble (Store.history es handle) := by
  have hread : s.pool.read ((s.allocations i).offset.toNat + 0) (s.allocations i).uploaded.toNat =
      slice (assemble (Store.history es handle)) 0 (s.allocations i).uploaded.toNat :=
    (h.read horder hslot (by omega)).2
  rw [Nat.add_zero] at hread
  rw [hread]
  exact slice_eq_self (h.stands horder hslot).length

/-- Nothing moved but registers, queue and jobs. -/
theorem congr (h : Uploads es s) {t : Device} (hpool : t.pool = s.pool) (htable : t.allocations = s.allocations) :
    Uploads es t where
  buffers := (buffers_congr hpool htable).trans h.buffers
  fresh := h.fresh

/-! ## One descriptor -/

/-- An inline input writes and creates nothing. -/
theorem create_not_mem_inlineWrite (s : Device) (p : ParsedDescriptor) (k : UInt32) (b : Buffer) :
    .create k b ∉ (s.inlineWrite p).toList := by
  unfold inlineWrite
  split <;> simp

theorem inlineWrites_concat (s : Device) (done : List ParsedDescriptor) (p : ParsedDescriptor) :
    (done ++ [p]).filterMap s.inlineWrite = done.filterMap s.inlineWrite ++ (s.inlineWrite p).toList := by
  rw [List.filterMap_append]
  cases hw : s.inlineWrite p <;> simp [hw]

theorem staged (h : Uploads es s) {poolBytes : Nat} (hinv : TableInv poolBytes s.allocations) {p : ParsedDescriptor}
    (hp : p.WellFormed) {i : Fin kMaxAllocations} (hin : s.inputSlot p.desc = some i) :
    Uploads (es ++ (s.inlineWrite p).toList) (s.staged i p) where
  buffers := by rw [staged_buffers hinv hp hin, h.buffers, Store.build_append]
  fresh := by
    intro k b hmem
    rcases List.mem_append.mp hmem with hmem | hmem
    · exact h.fresh k b hmem
    · exact absurd hmem (create_not_mem_inlineWrite s p k b)

/-- Once its input is in place, a descriptor's range lies below the mark. -/
theorem staged_mark {p : ParsedDescriptor} {i : Fin kMaxAllocations} (hin : s.inputSlot p.desc = some i)
    (hup : p.input = none → p.desc.inputOffset + p.desc.inputLength ≤ (s.allocations i).uploaded) :
    p.desc.inputOffset.toNat + p.desc.inputLength.toNat ≤ ((s.staged i p).allocations i).uploaded.toNat := by
  obtain ⟨-, hoff, hlen⟩ := inputSlot_some hin
  obtain ⟨hadd, -⟩ := range_check hoff hlen
  unfold Device.staged
  cases hbs : p.input with
  | none =>
    have hle := UInt32.le_iff_toNat_le.mp (hup hbs)
    rw [hadd] at hle
    exact hle
  | some bs =>
    show _ ≤ (Function.update s.allocations i _ i).uploaded.toNat
    rw [Function.update_self, max32_toNat, hadd]
    exact Nat.le_max_right _ _

/-- **A descriptor** adds its inline input, if it has one. -/
theorem descriptor (h : Uploads es s) {poolBytes : Nat} (hinv : TableInv poolBytes s.allocations)
    {batchSize share : UInt32} {p : ParsedDescriptor} (hp : p.WellFormed) {t : Device} {r : CompletionRecordV1}
    (hd : DescriptorStep s batchSize share p t r) :
    Uploads (es ++ (s.inlineWrite p).toList) (t.pushCompletion r).1 := by
  cases hd with
  | badInput hin =>
    rw [inlineWrite_of_badInput hin, Option.toList_none, List.append_nil]
    exact h.congr rfl rfl
  | notUploaded i hin hnone =>
    rw [inlineWrite_of_notInline hnone, Option.toList_none, List.append_nil]
    exact h.congr rfl rfl
  | badOutput i hin | noSlot i hin | accepted i _ hin => exact (h.staged hinv hp hin).congr rfl rfl

/-- A job issued for a descriptor is over its range of what has been uploaded by then, its own inline input included. -/
theorem descriptor_hash (h : Uploads es s) {poolBytes : Nat} (hinv : TableInv poolBytes s.allocations)
    {p : ParsedDescriptor} (hp : p.WellFormed) (horder : Store.InOrder (es ++ (s.inlineWrite p).toList))
    {n share : UInt32} {job : Job}
    (hjob : issuedJobs (s.processDescriptor n share p).1.trace = issuedJobs s.trace ++ [job]) :
    let now := assemble (Store.history (es ++ (s.inlineWrite p).toList) job.allocation)
    p.desc.inputOffset.toNat + p.desc.inputLength.toNat ≤ now.length ∧
      job.checksum = fnv1a (slice now p.desc.inputOffset.toNat p.desc.inputLength.toNat) := by
  obtain ⟨t, r, hd, heq⟩ := processDescriptor_step s n share p
  rw [heq, pushCompletion_trace, issuedJobs_completion] at hjob
  have hnone : issuedJobs t.trace ≠ issuedJobs s.trace := by
    rw [hjob]
    simp
  cases hd with
  | badInput | notUploaded => exact absurd rfl hnone
  | badOutput i | noSlot i => exact absurd (staged_jobs s i p).2.2 hnone
  | accepted i slot hin hup =>
    have hissued : issuedJobs (((s.staged i p).trace ++ [.access _ _ _]) ++
        [.issued ((s.staged i p).blockJob i p.desc share)]) = issuedJobs s.trace ++ [job] := hjob
    rw [issuedJobs_issued, issuedJobs_access, (staged_jobs s i p).2.2] at hissued
    obtain rfl : (s.staged i p).blockJob i p.desc share = job := List.head_eq_of_cons_eq (List.append_cancel_left hissued)
    have hslot : (s.staged i p).allocationForHandle p.desc.inputHandle = some i :=
      ((sameShape_staged s i p).allocationForHandle _).trans (inputSlot_some hin).1
    obtain ⟨hle, hread⟩ := (h.staged hinv hp hin).read horder hslot (staged_mark hin hup)
    exact ⟨hle, congrArg fnv1a hread⟩

/-- **The descriptor loop**, which keeps the table's invariant and its shape. -/
theorem block (h : Uploads es s) {poolBytes : Nat} (hinv : TableInv poolBytes s.allocations)
    {ps : List ParsedDescriptor} (hwf : ∀ p ∈ ps, p.WellFormed) (n share : UInt32) (dropped : Bool) :
    TableInv poolBytes (s.processDescriptors n share ps dropped).1.allocations ∧
      SameShape s (s.processDescriptors n share ps dropped).1 ∧
      Uploads (es ++ ps.filterMap s.inlineWrite) (s.processDescriptors n share ps dropped).1 := by
  refine processDescriptors_run
    (I := fun done t _ => TableInv poolBytes t.allocations ∧ SameShape s t ∧
      Uploads (es ++ done.filterMap s.inlineWrite) t)
    ?_ ⟨hinv, SameShape.refl s, by rw [List.filterMap_nil, List.append_nil]; exact h⟩
  rintro done p hp t _ u r ⟨ht, hshape, hup⟩ hd
  refine ⟨descriptor_tableInv ht hd, hshape.trans (sameShape_descriptor hd), ?_⟩
  have hnext := hup.descriptor ht (hwf p hp) hd
  rw [inlineWrite_congr hshape, List.append_assoc] at hnext
  rw [inlineWrites_concat]
  exact hnext

/-! ## One operation -/

/-- **Every operation** adds its effects. -/
theorem step (h : Uploads es s) {poolBytes : Nat} (hinv : TableInv poolBytes s.allocations) (op : WireOp) :
    Uploads (es ++ s.effects op) (s.step op).1 where
  buffers := by rw [step_buffers hinv op, h.buffers, Store.build_append]
  fresh := by
    intro k b hmem
    rcases List.mem_append.mp hmem with hmem | hmem
    · exact h.fresh k b hmem
    · exact (create_fresh hmem).2.1

/-- A job issued by SUBMIT is over all that has been uploaded. -/
theorem submit_hash (h : Uploads es s) (horder : Store.InOrder es) {command : UInt8} {sequence : UInt32} {job : Job}
    (hjob : issuedJobs (s.exec command sequence).trace = issuedJobs s.trace ++ [job]) :
    job.checksum = fnv1a (assemble (Store.history es job.allocation)) := by
  rcases issuedJobs_exec (exec_step s command sequence) with heq | ⟨i, hslot, heq⟩
  · rw [hjob] at heq
    simp at heq
  · obtain rfl : s.submitJob i = job := List.head_eq_of_cons_eq (List.append_cancel_left (heq.symm.trans hjob))
    exact congrArg fnv1a (h.hash horder hslot)

end Uploads

/-- **Along a run** whose ALLOCs fit. -/
theorem uploads_after {config : Config} : ∀ {ops : List WireOp}, AllocsFit config ops →
    Uploads ((after config []).effectsFrom ops) (after config ops) := by
  intro ops
  induction ops using List.reverseRecOn with
  | nil =>
    intro _
    exact ⟨buffers_reset config, fun k b hmem => (by cases hmem)⟩
  | append_singleton ops op ih =>
    intro hfits
    have hbefore : AllocsFit config ops := hfits.of_prefix (List.prefix_append ops [op])
    have hnext := (ih hbefore).step (sound_of_allocsFit hbefore).2 op
    rw [effectsFrom_append ops [op] config]
    show Uploads (_ ++ (Device.effects _ op ++ [])) ((machine config).run (ops ++ [op]))
    rw [List.append_nil, Machine.run_concat]
    exact hnext

/-- **Inside an F4**, when the descriptors `done` of it have been settled. -/
theorem uploads_midBlock {config : Config} {ops : List WireOp} (hfits : AllocsFit config ops)
    (parsed : List ParsedDescriptor) {done : List ParsedDescriptor} (hwf : ∀ p ∈ done, p.WellFormed) :
    TableInv config.poolBytes.toNat ((after config ops).midBlock parsed done).allocations ∧
      SameShape (after config ops) ((after config ops).midBlock parsed done) ∧
      Uploads ((after config []).effectsFrom ops ++ done.filterMap (after config ops).inlineWrite)
        ((after config ops).midBlock parsed done) :=
  (uploads_after hfits).block (sound_of_allocsFit hfits).2 hwf _ _ _

theorem effectsFrom_concat (config : Config) (done : List WireOp) (op : WireOp) :
    (after config []).effectsFrom (done ++ [op]) =
      (after config []).effectsFrom done ++ (after config done).effects op := by
  rw [effectsFrom_append done [op] config]
  exact congrArg _ (List.append_nil _)

theorem effectsFrom_start (config : Config) {ops ops' : List WireOp} (hpre : ops <+: ops') :
    (after config []).effectsFrom ops <+: (after config []).effectsFrom ops' := by
  obtain ⟨rest, rfl⟩ := hpre
  rw [effectsFrom_append ops rest config]
  exact List.prefix_append _ _

/-- The effects of an F4 that holds `parsed`. -/
theorem effects_submits {parsed : List ParsedDescriptor} {op : WireOp} (h : Submits parsed op) (s : Device) :
    (∀ p ∈ parsed, p.WellFormed) ∧ s.effects op = parsed.filterMap s.inlineWrite := by
  obtain ⟨word, bytes, rfl, hacc, hparse⟩ := h
  refine ⟨parse_wellFormed hacc.2.2.2 hacc.2.2.1 hparse, ?_⟩
  rw [effects, if_pos hacc, hparse]

/-- An F4 is refused, or settles the descriptors it holds. -/
theorem writeBlock_submits (s : Device) (selector : UInt8) (word : UInt32) (data : Option (List UInt8)) :
    (∃ st, (s.step (.writeBlock selector word data)).1 = s.setResult st) ∨
    ∃ parsed st, Submits parsed (.writeBlock selector word data) ∧
      (s.step (.writeBlock selector word data)).1 = (s.midBlock parsed parsed).setResult st := by
  rcases writeBlock_cases s selector word data with
    ⟨heq, -⟩ | ⟨bytes, rfl, hacc, ⟨st, -, heq⟩ | ⟨parsed, hparse, heq⟩⟩
  · exact Or.inl ⟨.badBlock, congrArg Prod.fst heq⟩
  · exact Or.inl ⟨st, congrArg Prod.fst heq⟩
  · refine Or.inr ⟨parsed, _, ⟨word, bytes, ?_, ?_, hparse⟩, congrArg Prod.fst heq⟩
    · rw [hacc.1]
    · rw [← hacc.1]
      exact hacc

/-! ## Where jobs are issued -/

/-- The effects that stood behind `job` at the moment the run issued it, and the range of its buffer it is over: all of
    it for SUBMIT; for a descriptor the range it names, after its own inline input. -/
inductive Issued (config : Config) (ops : List WireOp) : List (Effect UInt32) → Job → Nat → Nat → Prop
  | submit (done : List WireOp) (command : UInt8) (sequence : UInt32) {job : Job}
      (hops : done ++ [.exec command sequence] <+: ops)
      (hjob : issuedJobs ((after config done).exec command sequence).trace =
        issuedJobs (after config done).trace ++ [job]) :
      Issued config ops ((after config []).effectsFrom done) job 0
        (assemble (Store.history ((after config []).effectsFrom done) job.allocation)).length
  | descriptor (done : List WireOp) (op : WireOp) (front : List ParsedDescriptor) (p : ParsedDescriptor)
      (rest : List ParsedDescriptor) {job : Job}
      (hops : done ++ [op] <+: ops) (hop : Submits (front ++ p :: rest) op)
      (hjob : issuedJobs ((after config done).midBlock (front ++ p :: rest) (front ++ [p])).trace =
        issuedJobs ((after config done).midBlock (front ++ p :: rest) front).trace ++ [job]) :
      Issued config ops
        ((after config []).effectsFrom done ++ (front ++ [p]).filterMap (after config done).inlineWrite) job
        p.desc.inputOffset.toNat p.desc.inputLength.toNat

theorem Issued.mono {config : Config} {ops ops' : List WireOp} {before : List (Effect UInt32)} {job : Job}
    {off len : Nat} (h : Issued config ops before job off len) (hpre : ops <+: ops') :
    Issued config ops' before job off len := by
  cases h with
  | submit done command sequence hops hjob => exact .submit done command sequence (hops.trans hpre) hjob
  | descriptor done op front p rest hops hop hjob => exact .descriptor done op front p rest (hops.trans hpre) hop hjob

theorem midBlock_concat (s : Device) (parsed done : List ParsedDescriptor) (p : ParsedDescriptor) :
    s.midBlock parsed (done ++ [p]) = ((s.midBlock parsed done).processDescriptor (UInt32.ofNat parsed.length)
      (s.transportShare (UInt32.ofNat parsed.length)) p).1 :=
  processDescriptors_concat _ _ done p s false

/-- Inside an F4, a job is an old one or was issued for one of the descriptors. -/
theorem midBlock_issued {s : Device} {parsed : List ParsedDescriptor} {job : Job} :
    ∀ {done : List ParsedDescriptor}, job ∈ issuedJobs (s.midBlock parsed done).trace →
      job ∈ issuedJobs s.trace ∨ ∃ front p rest, done = front ++ p :: rest ∧
        issuedJobs (s.midBlock parsed (front ++ [p])).trace = issuedJobs (s.midBlock parsed front).trace ++ [job] := by
  intro done
  induction done using List.reverseRecOn with
  | nil => exact Or.inl
  | append_singleton done p ih =>
    intro hmem
    have hold : job ∈ issuedJobs (s.midBlock parsed done).trace → job ∈ issuedJobs s.trace ∨ ∃ front q rest,
        done ++ [p] = front ++ q :: rest ∧
        issuedJobs (s.midBlock parsed (front ++ [q])).trace = issuedJobs (s.midBlock parsed front).trace ++ [job] := by
      intro h
      rcases ih h with hs | ⟨front, q, rest, hsplit, hjob⟩
      · exact Or.inl hs
      · exact Or.inr ⟨front, q, rest ++ [p], by rw [hsplit, List.append_assoc, List.cons_append], hjob⟩
    obtain ⟨t, r, hd, heq⟩ := processDescriptor_step (s.midBlock parsed done) (UInt32.ofNat parsed.length)
      (s.transportShare (UInt32.ofNat parsed.length)) p
    have hjobs : issuedJobs (s.midBlock parsed (done ++ [p])).trace = issuedJobs t.trace := by
      rw [midBlock_concat, heq, pushCompletion_trace, issuedJobs_completion]
    rcases descriptor_jobs hd with ⟨-, -, hsame, -⟩ | ⟨slot, new, -, -, -, -, -, -, hnew, -⟩
    · rw [hjobs, hsame] at hmem
      exact hold hmem
    · rw [hjobs, hnew, List.mem_append, List.mem_singleton] at hmem
      rcases hmem with h | rfl
      · exact hold h
      · exact Or.inr ⟨done, p, [], rfl, hjobs.trans hnew⟩

/-- **Every job of a run was issued at some moment of it.** -/
theorem issued_of_mem {config : Config} {job : Job} : ∀ {ops : List WireOp}, job ∈ issuedJobs (after config ops).trace →
    ∃ before off len, Issued config ops before job off len := by
  intro ops
  induction ops using List.reverseRecOn with
  | nil => intro hmem; cases hmem
  | append_singleton ops op ih =>
    intro hmem
    have hold : job ∈ issuedJobs (after config ops).trace →
        ∃ before off len, Issued config (ops ++ [op]) before job off len := by
      intro h
      obtain ⟨before, off, len, hissued⟩ := ih h
      exact ⟨before, off, len, hissued.mono (List.prefix_append ops [op])⟩
    have hnext : after config (ops ++ [op]) = ((after config ops).step op).1 := Machine.run_concat _ ops op
    rw [hnext] at hmem
    cases op with
    | writeReg index value =>
      exact hold (((quiet_writeReg (after config ops) index value).trace) ▸ hmem)
    | writePayloadWord index value =>
      exact hold (((quiet_writePayloadWord (after config ops) index value).trace) ▸ hmem)
    | readReg => exact hold hmem
    | exec command sequence =>
      rcases issuedJobs_exec (exec_step (after config ops) command sequence) with heq | ⟨i, -, heq⟩
      · exact hold (heq ▸ hmem)
      · have hcases : job ∈ issuedJobs (after config ops).trace ++ [(after config ops).submitJob i] := heq ▸ hmem
        rw [List.mem_append, List.mem_singleton] at hcases
        rcases hcases with h | rfl
        · exact hold h
        · exact ⟨_, _, _, .submit ops command sequence (List.prefix_refl _) heq⟩
    | writeBlock selector word data =>
      rcases writeBlock_submits (after config ops) selector word data with ⟨st, heq⟩ | ⟨parsed, st, hop, heq⟩
      · rw [heq] at hmem
        exact hold hmem
      · rw [heq] at hmem
        rcases midBlock_issued hmem with h | ⟨front, p, rest, rfl, hjob⟩
        · exact hold h
        · exact ⟨_, _, _, .descriptor ops _ front p rest (List.prefix_refl _) hop hjob⟩
    | readBlock selector word out =>
      exact hold ((readBlock_trace (after config ops) selector word out) ▸ hmem)

/-- The checksum of a job, in terms of what had been uploaded when it was issued. -/
theorem Issued.hash {config : Config} {ops : List WireOp} (hfits : AllocsFit config ops)
    (horder : Store.InOrder ((after config []).effectsFrom ops)) {before : List (Effect UInt32)} {job : Job}
    {off len : Nat} (h : Issued config ops before job off len) :
    off + len ≤ (assemble (Store.history before job.allocation)).length ∧
      job.checksum = fnv1a (slice (assemble (Store.history before job.allocation)) off len) := by
  cases h with
  | submit done command sequence hops hjob =>
    have hdone : AllocsFit config done := hfits.of_prefix ((List.prefix_append done _).trans hops)
    have hbefore : Store.InOrder ((after config []).effectsFrom done) :=
      horder.of_prefix (effectsFrom_start config ((List.prefix_append done _).trans hops))
    refine ⟨Nat.le_of_eq (Nat.zero_add _), ?_⟩
    rw [slice_eq_self rfl]
    exact (uploads_after hdone).submit_hash hbefore hjob
  | descriptor done op front p rest hops hop hjob =>
    have hdone : AllocsFit config done := hfits.of_prefix ((List.prefix_append done _).trans hops)
    obtain ⟨hwf, heff⟩ := effects_submits hop (after config done)
    have hfront : ∀ q ∈ front, q.WellFormed := fun q hq => hwf q (List.mem_append_left _ hq)
    obtain ⟨hinv, hshape, hmid⟩ := uploads_midBlock hdone (front ++ p :: rest) hfront
    have hbefore : Store.InOrder ((after config []).effectsFrom done ++
        (front ++ [p]).filterMap (after config done).inlineWrite) := by
      refine horder.of_prefix (List.IsPrefix.trans ?_ (effectsFrom_start config hops))
      rw [effectsFrom_concat, heff, List.prefix_append_right_inj]
      exact List.IsPrefix.filterMap _ ⟨rest, (List.append_cons front p rest).symm⟩
    rw [midBlock_concat] at hjob
    rw [Uploads.inlineWrites_concat, ← inlineWrite_congr hshape, ← List.append_assoc] at hbefore ⊢
    exact hmid.descriptor_hash hinv (hwf p (List.mem_append_right _ List.mem_cons_self)) hbefore hjob

/-! ## Where checksums are reported -/

/-- An accepted UPLOAD reports the hash of the buffer up to its new mark. -/
theorem exec_upload_checksum (s : Device) {command : UInt8} (hc : HighCommand.ofCode command = some .upload)
    (sequence : UInt32) (hok : (s.exec command sequence).stage kResult = Status.ok.code) :
    ∃ i, (s.exec command sequence).allocationForHandle ((s.exec command sequence).stage kArg0) = some i ∧
      (s.exec command sequence).stage kOut1 = fnv1a ((s.exec command sequence).pool.read
        ((s.exec command sequence).allocations i).offset.toNat
        ((s.exec command sequence).allocations i).uploaded.toNat) := by
  have hexec : s.exec command sequence = (s.report .ok 0 0 0 0).execUpload := by
    unfold exec
    rw [clearOutputs_eq, hc]
    rfl
  rw [hexec] at hok ⊢
  generalize s.report .ok 0 0 0 0 = u at hok ⊢
  have hrefused : (u.setResult .badHandle).stage kResult ≠ Status.ok.code := by
    rw [setResult, setStage_stage, Function.update_self]
    decide
  unfold execUpload at hok ⊢
  cases hslot : u.allocationForHandle (u.stage kArg0) with
  | none =>
    simp only [hslot] at hok
    exact absurd hok hrefused
  | some i =>
    simp only [hslot] at hok ⊢
    split at hok
    · exact absurd hok hrefused
    · rename_i hin
      rw [if_neg hin]
      refine ⟨i, ?_, ?_⟩
      · obtain ⟨hhandle, hlive⟩ := allocationForHandle_some hslot
        show Device.allocationForHandle _ (u.stage kArg0) = some i
        rw [allocationForHandle_update rfl, if_pos hhandle]
        exact if_pos hlive
      · simp only [poolHash, setStage_stage, setStage_allocations, setStage_pool, record_allocations, record_pool,
          setAllocation_allocations, setAllocation_pool, Function.update_self]

/-- An accepted COLLECT reports the checksum of a job that was issued. -/
theorem exec_collect_checksum {s : Device} (hs : JobsSound s) {command : UInt8}
    (hc : HighCommand.ofCode command = some .collect) (sequence : UInt32)
    (hok : (s.exec command sequence).stage kResult = Status.ok.code) :
    ∃ job ∈ issuedJobs (s.exec command sequence).trace, job.handle = (s.exec command sequence).stage kArg0 ∧
      (s.exec command sequence).stage kOut2 = job.checksum := by
  have hstep := exec_step s command sequence
  rw [hc] at hstep
  generalize s.exec command sequence = t at hstep hok ⊢
  cases hstep with
  | refused st hst => exact absurd (Status.code_inj hok) hst
  | collected i hjob hready =>
    have hfound : ((s.jobs i).live && (s.jobs i).handle == s.stage kArg0) = true := by
      unfold jobForHandle at hjob
      split at hjob
      · cases hjob
      · exact firstSlot_some hjob
    rw [Bool.and_eq_true, beq_iff_eq] at hfound
    have hlt := (hs.live i).mp hfound.1
    obtain ⟨hhandle, -, -, hsum, -⟩ := hs.answer i _ (List.getElem?_eq_getElem hlt)
    exact ⟨_, List.getElem_mem hlt, hhandle.symm.trans hfound.2, hsum⟩

/-- Every `kOk` record is that of a job that was issued. -/
theorem okRecords_issued (config : Config) (ops : List WireOp) :
    ∀ r ∈ okRecords (produced (after config ops).trace), ∃ job ∈ issuedJobs (after config ops).trace, Carries r job := by
  refine Machine.invariant (M := machine config)
    (I := fun s => ∀ r ∈ okRecords (produced s.trace), ∃ job ∈ issuedJobs s.trace, Carries r job) ?_ ?_
    (Machine.reachable_run _ ops)
  · intro r hr
    cases hr
  · intro s op hs
    -- records and jobs grow together, and jobs are never struck off
    have hgrow : ∀ {t : Device}, issuedJobs s.trace <+: issuedJobs t.trace → ∀ r ∈ okRecords (produced s.trace),
        ∃ job ∈ issuedJobs t.trace, Carries r job := by
      intro t hpre r hr
      obtain ⟨job, hjob, hcarries⟩ := hs r hr
      exact ⟨job, hpre.subset hjob, hcarries⟩
    have hpaired : ∀ {rs : List CompletionRecordV1} {js : List Job}, List.Forall₂ Carries rs js → ∀ r ∈ rs,
        ∃ job ∈ js, Carries r job := by
      intro rs js hall
      induction hall with
      | nil => intro r hr; cases hr
      | @cons r job rs js hcarries _ ih =>
        intro r' hr'
        rcases List.mem_cons.mp hr' with rfl | hr'
        · exact ⟨job, List.mem_cons_self, hcarries⟩
        · obtain ⟨job', hjob', hcarries'⟩ := ih r' hr'
          exact ⟨job', List.mem_cons_of_mem _ hjob', hcarries'⟩
    have hjobs := issuedJobs_step s op
    have hquiet : produced (s.step op).1.trace = produced s.trace →
        ∀ r ∈ okRecords (produced (s.step op).1.trace), ∃ job ∈ issuedJobs (s.step op).1.trace, Carries r job := by
      intro hsame
      rw [hsame]
      exact hgrow hjobs
    cases op with
    | writeReg index value => exact hquiet (congrArg produced (quiet_writeReg s index value).trace)
    | exec command sequence => exact hquiet (exec_queue (exec_step s command sequence)).2.1
    | readReg => exact hquiet rfl
    | writePayloadWord index value => exact hquiet (congrArg produced (quiet_writePayloadWord s index value).trace)
    | readBlock selector word out => exact hquiet (congrArg produced (readBlock_trace s selector word out))
    | writeBlock selector word data =>
      obtain ⟨rs, js, hprod, hiss, hall⟩ := writeBlock_jobs s selector word data
      intro r hr
      have hmem : r ∈ okRecords (produced s.trace) ++ okRecords rs := by
        rw [okRecords, okRecords, ← List.filter_append, ← hprod]
        exact hr
      rcases List.mem_append.mp hmem with hold | hnew
      · exact hgrow hjobs r hold
      · obtain ⟨job, hjob, hcarries⟩ := hpaired hall r hnew
        have hmem' : job ∈ issuedJobs (s.writeBlock selector word data).1.trace := by
          rw [hiss]
          exact List.mem_append_right _ hjob
        exact ⟨job, hmem', hcarries⟩

/-! ## Descriptors over bytes that are not there -/

/-- In order, a non-inline descriptor over a byte that was not uploaded is refused with `kBadDescriptor`. -/
theorem notUploaded_refused {es : List (Effect UInt32)} {s : Device} (h : Uploads es s) (horder : Store.InOrder es)
    (n share : UInt32) {p : ParsedDescriptor} (hnone : p.input = none) {i : Fin kMaxAllocations}
    (hin : s.inputSlot p.desc = some i) {a : Nat}
    (ha : a < p.desc.inputOffset.toNat + p.desc.inputLength.toNat)
    (hgap : ¬ Covered (Store.history es p.desc.inputHandle) a) :
    ∃ r, produced (s.processDescriptor n share p).1.trace = produced s.trace ++ [r] ∧
      r.status = Status.badDescriptor.code16 := by
  obtain ⟨hslot, hoff, hlen⟩ := inputSlot_some hin
  obtain ⟨hadd, -⟩ := range_check hoff hlen
  -- all below the mark was uploaded, so the range reaches above it
  have hmark : ¬ p.desc.inputOffset + p.desc.inputLength ≤ (s.allocations i).uploaded := by
    intro hle
    rw [UInt32.le_iff_toNat_le, hadd] at hle
    exact hgap ((h.stands horder hslot).covered a (Nat.lt_of_lt_of_le ha hle))
  obtain ⟨t, r, hd, heq⟩ := processDescriptor_step s n share p
  refine ⟨r, ?_, ?_⟩
  · rw [heq, pushCompletion_produced, (descriptor_queue hd).2.1]
  · cases hd with
    | badInput hbad => rw [hin] at hbad; cases hbad
    | notUploaded => rfl
    | badOutput j hj hup | noSlot j hj hup | accepted j slot hj hup =>
      obtain rfl := Option.some.inj (hin.symm.trans hj)
      exact absurd (hup hnone) hmark

/-! ## Every run -/

/-- **Only uploaded bytes are hashed, as long as uploads join on.** With any pool, and for every run whose ALLOCs fit in
    it: no mark ever passes over a byte that was not written since the ALLOC iff every UPLOAD and every inline input
    starts at or below the mark of its buffer. In such a run every byte below the mark of a live entry was uploaded to
    it; UPLOAD reports the hash of all that was; every job was issued at some moment of the run and has the hash of its
    range of what had been uploaded to its buffer by then, which is what COLLECT and the `kOk` records report; and a
    non-inline descriptor over a byte that was not uploaded is refused with `kBadDescriptor`. -/
theorem only_uploads_hashed {config : Config} {ops : List WireOp} (hfits : AllocsFit config ops) :
    let s := after config ops
    let es := (after config []).effectsFrom ops
    s.buffers = Store.build es ∧
    (Store.InOrder es ↔ ∀ pre, pre <+: es → ∀ handle b, Store.build pre handle = some b →
      ∀ a, a < b.mark → Covered (Store.history pre handle) a) ∧
    (Store.InOrder es →
      (∀ handle i, s.allocationForHandle handle = some i → ∀ a, a < (s.allocations i).uploaded.toNat →
        Covered (Store.history es handle) a) ∧
      (∀ done command sequence, ops = done ++ [.exec command sequence] → s.stage kResult = Status.ok.code →
        (HighCommand.ofCode command = some .upload →
          s.stage kOut1 = fnv1a (assemble (Store.history es (s.stage kArg0)))) ∧
        (HighCommand.ofCode command = some .collect →
          ∃ job ∈ issuedJobs s.trace, job.handle = s.stage kArg0 ∧ s.stage kOut2 = job.checksum)) ∧
      (∀ job ∈ issuedJobs s.trace, ∃ before off len, Issued config ops before job off len) ∧
      (∀ before job off len, Issued config ops before job off len →
        off + len ≤ (assemble (Store.history before job.allocation)).length ∧
        job.checksum = fnv1a (slice (assemble (Store.history before job.allocation)) off len)) ∧
      (∀ r ∈ okRecords (produced s.trace), ∃ job ∈ issuedJobs s.trace, Carries r job) ∧
      (∀ done op parsed, ops = done ++ [op] → Submits parsed op → ∀ front p rest, parsed = front ++ p :: rest →
        let t := (after config done).midBlock parsed front
        let before := (after config []).effectsFrom done ++ front.filterMap (after config done).inlineWrite
        p.input = none → ∀ i, t.inputSlot p.desc = some i → ∀ a, p.desc.inputOffset.toNat ≤ a →
        a < p.desc.inputOffset.toNat + p.desc.inputLength.toNat →
        ¬ Covered (Store.history before p.desc.inputHandle) a →
        ∃ r, produced ((after config done).midBlock parsed (front ++ [p])).trace = produced t.trace ++ [r] ∧
          r.status = Status.badDescriptor.code16)) := by
  intro s es
  have hup : Uploads es s := uploads_after hfits
  refine ⟨hup.buffers, Store.inOrder_iff_covered hup.fresh, ?_⟩
  intro horder
  refine ⟨?_, ?_, fun _ => issued_of_mem, fun _ _ _ _ => Issued.hash hfits horder, okRecords_issued config ops, ?_⟩
  · intro handle i hslot
    exact (hup.stands horder hslot).covered
  · intro done command sequence hops hok
    have hs : s = (after config done).exec command sequence := by
      show (machine config).run ops = _
      rw [hops, Machine.run_concat]
      rfl
    rw [hs] at hok ⊢
    constructor
    · intro hc
      obtain ⟨i, hslot, hsum⟩ := exec_upload_checksum (after config done) hc sequence hok
      rw [hs] at hup
      rw [hsum, hup.hash horder hslot]
    · intro hc
      exact exec_collect_checksum (jobsSound_after config done) hc sequence hok
  · rintro done op parsed rfl hop front p rest rfl t before hnone i hin a - ha hgap
    have hdone : AllocsFit config done := hfits.of_prefix (List.prefix_append done [op])
    obtain ⟨hwf, heff⟩ := effects_submits hop (after config done)
    have hmid : Uploads before t :=
      (uploads_midBlock hdone _ (fun q hq => hwf q (List.mem_append_left _ hq))).2.2
    have hbefore : Store.InOrder before := by
      refine horder.of_prefix ⟨(p :: rest).filterMap (after config done).inlineWrite, ?_⟩
      show _ = (after config []).effectsFrom (done ++ [op])
      rw [effectsFrom_concat, heff, List.append_assoc, ← List.filterMap_append]
    rw [midBlock_concat]
    exact notUploaded_refused hmid hbefore _ _ hnone hin ha hgap

/-- Four bytes at the start of a fresh buffer, four more from the third on, then SUBMIT. -/
theorem only_uploads_hashed_joined :
    let config : Config := { hasPool := true, poolBytes := 65536 }
    let ops : List WireOp := [.writeReg 0 16, .exec HighCommand.alloc.code 0, .writePayloadWord 0 0x11223344,
      .writeReg 0 1, .writeReg 4 4, .exec HighCommand.upload.code 0, .writeReg 1 2, .exec HighCommand.upload.code 0]
    let job := (after config ops).submitJob 0
    (after config ops).stage kOut1 = fnv1a [0x44, 0x33, 0x44, 0x33, 0x22, 0x11] ∧
    issuedJobs ((after config ops).exec HighCommand.submit.code 0).trace = [job] ∧
    job.checksum = fnv1a [0x44, 0x33, 0x44, 0x33, 0x22, 0x11] := by
  intro config ops job
  have horder : Store.InOrder ((after config []).effectsFrom ops) := by decide +kernel
  have horder' : Store.InOrder ((after config []).effectsFrom (ops ++ [.exec HighCommand.submit.code 0])) := by
    decide +kernel
  have hok : (after config ops).stage kResult = Status.ok.code := by decide +kernel
  have hissued : issuedJobs ((after config ops).exec HighCommand.submit.code 0).trace =
      issuedJobs (after config ops).trace ++ [job] := by decide +kernel
  have hfits : ∀ ops, AllocsFit config ops := allocsFit_of_small (by decide)
  refine ⟨?_, by decide +kernel, ?_⟩
  · obtain ⟨-, -, hthen⟩ := only_uploads_hashed (hfits ops)
    obtain ⟨-, hreport, -⟩ := hthen horder
    rw [(hreport (ops.take 7) HighCommand.upload.code 0 rfl hok).1 rfl]
    decide +kernel
  · obtain ⟨-, -, hthen⟩ := only_uploads_hashed (hfits (ops ++ [.exec HighCommand.submit.code 0]))
    obtain ⟨-, -, -, hjobs, -⟩ := hthen horder'
    obtain ⟨-, hsum⟩ := hjobs _ _ _ _ (.submit ops HighCommand.submit.code 0 (List.prefix_refl _) hissued)
    rw [hsum]
    decide +kernel

/-- Sixteen bytes, four uploaded, freed; the next owner of the same bytes uploads nothing at offset 4. -/
def leftovers : List WireOp :=
  [.writeReg 0 16, .exec HighCommand.alloc.code 0, .writePayloadWord 0 0x11223344, .writeReg 0 1, .writeReg 4 4,
    .exec HighCommand.upload.code 0, .exec HighCommand.free.code 0, .writeReg 0 16, .exec HighCommand.alloc.code 0,
    .writeReg 0 1, .writeReg 1 4, .writeReg 4 0, .exec HighCommand.upload.code 0]

/-- The second owner wrote nothing, its mark is at 4, and it is told the hash of the first owner's bytes. -/
theorem leftovers_hashed :
    let config : Config := { hasPool := true, poolBytes := 65536 }
    let s := after config leftovers
    let es := (after config []).effectsFrom leftovers
    s.allocationForHandle 1 = some 0 ∧ (s.allocations 0).uploaded = 4 ∧ (∀ a, ¬ Covered (Store.history es 1) a) ∧
      s.stage kResult = Status.ok.code ∧ s.stage kOut1 = fnv1a [0x44, 0x33, 0x22, 0x11] := by
  intro config s es
  have hhist : Store.history es 1 = [(4, [])] := by decide +kernel
  refine ⟨by decide +kernel, by decide +kernel, ?_, by decide +kernel, by decide +kernel⟩
  rw [hhist]
  rintro a ⟨w, hw, hle, hlt⟩
  rw [List.mem_singleton.mp hw] at hle hlt
  exact absurd hlt (Nat.not_lt.mpr hle)

end Device

end GekkoPak
