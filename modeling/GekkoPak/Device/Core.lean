import GekkoPak.Basis.Mem
import GekkoPak.Basis.Ring
import GekkoPak.Basis.Table
import GekkoPak.Protocol.Records

/-!
# `Device.Core` — the shared device core: state, allocator, queue, timing, F0-F3

`gekkopak::Device` (`include/gekkopak/device.h`, `src/device.cpp`) up to and including `Exec`; the block
transport is in `Device.Block`. A method that changes the object takes and returns the whole `Device`;
C++ pointers into the fixed tables are slot numbers (`Fin 16`); the memory behind `Config::pool` is the
`pool` field. The four members of the completion queue are one `Basis.Ring`.

The last field, `trace`, is history: it records the pool accesses, the jobs created and the completion
records produced, in order. No function reads it.
-/

namespace GekkoPak

open Basis

/-! ## State -/

abbrev kMaxAllocations : Nat := 16
abbrev kMaxJobs : Nat := 16
abbrev kCompletionQueueDepth : Nat := 16
abbrev kPayloadBytes : Nat := 1024

/-- `Device::Config`. `hasPool` is `pool != nullptr`. -/
structure Config where
  hasPool            : Bool := false
  poolBytes          : UInt32 := 0
  reportedLocalBytes : UInt32 := 0
  capabilities       : UInt32 := kCaps
  timing             : TimingModel := {}
deriving DecidableEq, Repr

/-- One entry of the allocation table. -/
structure Allocation where
  offset   : UInt32
  size     : UInt32
  uploaded : UInt32
  live     : Bool
deriving DecidableEq, Repr, Inhabited

/-- One entry of the job table. -/
structure Job where
  allocation     : UInt32
  modeledUs      : UInt32
  speedupX1000   : UInt32
  checksum       : UInt32
  softwareUs     : UInt32
  pollsRemaining : UInt8
  ready          : Bool
  live           : Bool
  handle         : UInt32
deriving DecidableEq, Repr, Inhabited

/-- What the history records. -/
inductive Event
  /-- A copy into, or a hash of, `len` pool bytes from `start` on, made on behalf of `handle`. -/
  | access (handle : UInt32) (start len : Nat)
  /-- A job entered the table. -/
  | issued (job : Job)
  /-- `PushCompletion(record)` returned `queued`. -/
  | completion (record : CompletionRecordV1) (queued : Bool)
deriving DecidableEq, Repr

/-- The device. -/
structure Device where
  config      : Config
  pool        : Mem
  stage       : StageRegister → UInt32
  payload     : Mem
  allocations : Fin kMaxAllocations → Allocation
  jobs        : Fin kMaxJobs → Job
  completions : Ring CompletionRecordV1 kCompletionQueueDepth
  nextJob     : UInt32
  transfers   : UInt64
  completed   : Bool
  trace       : List Event

/-- `memset(.., 0, ..)` of an allocation entry. -/
def Allocation.zero : Allocation := ⟨0, 0, 0, false⟩

/-- `memset(.., 0, ..)` of a job entry. -/
def Job.zero : Job := ⟨0, 0, 0, 0, 0, 0, false, false, 0⟩

/-- What one POLL does to the job it finds. -/
def Job.poll (job : Job) : Job :=
  if !job.ready then
    let left := if job.pollsRemaining > 0 then job.pollsRemaining - 1 else job.pollsRemaining
    { job with pollsRemaining := left, ready := if left = 0 then true else job.ready }
  else job

namespace Device

/-- `Reset`. Pool bytes past `pool_bytes` are not the device's; they read as zero too. -/
def reset (config : Config) : Device where
  config :=
    if config.reportedLocalBytes = 0 then { config with reportedLocalBytes := config.poolBytes }
    else config
  pool := Mem.zero
  stage := fun _ => 0
  payload := Mem.zero
  allocations := fun _ => Allocation.zero
  jobs := fun _ => Job.zero
  completions := Ring.empty {} (by decide)
  nextJob := 1
  transfers := 0
  completed := false
  trace := []

/-- `count_transfer`. -/
@[simps] def countTransfer (s : Device) : Device := { s with transfers := s.transfers + 1 }

/-- `stage_[r] = v`. -/
@[simps] def setStage (s : Device) (r : StageRegister) (v : UInt32) : Device :=
  { s with stage := Function.update s.stage r v }

/-- `allocations_[i] = a`. -/
@[simps] def setAllocation (s : Device) (i : Fin kMaxAllocations) (a : Allocation) : Device :=
  { s with allocations := Function.update s.allocations i a }

/-- `jobs_[i] = j`. -/
@[simps] def setJob (s : Device) (i : Fin kMaxJobs) (j : Job) : Device :=
  { s with jobs := Function.update s.jobs i j }

/-- Append to the history. -/
@[simps] def record (s : Device) (e : Event) : Device := { s with trace := s.trace ++ [e] }

/-- `memcpy(config_.pool + start, bs, |bs|)`, on behalf of `handle`. -/
def poolCopy (s : Device) (handle : UInt32) (start : Nat) (bs : List UInt8) : Device :=
  { s with pool := s.pool.write start bs }.record (.access handle start bs.length)

/-- `Fnv1a(config_.pool + start, len)`, on behalf of `handle`. -/
def poolHash (s : Device) (handle : UInt32) (start len : Nat) : Device × UInt32 :=
  (s.record (.access handle start len), fnv1a (s.pool.read start len))

/-! ## Allocator -/

/-- `AlignUp4`. -/
def alignUp4 (value : UInt32) : UInt32 := (value + 3) &&& ~~~3

/-- `Max32`. -/
def max32 (a b : UInt32) : UInt32 := if a > b then a else b

/-- `AllocationForHandle`: the slot of a live allocation, or `none` for `nullptr`. -/
def allocationForHandle (s : Device) (handle : UInt32) : Option (Fin kMaxAllocations) :=
  if h : handle = 0 ∨ handle.toNat > kMaxAllocations then none
  else
    let i : Fin kMaxAllocations := ⟨handle.toNat - 1, by
      have h0 : handle.toNat ≠ 0 := fun h0 => h (Or.inl (UInt32.toNat_inj.mp h0))
      omega⟩
    if (s.allocations i).live then some i else none

/-- One entry's turn in the overlap scan at `candidate`: `overlap` and `bump` afterwards. -/
def scanEntry (candidate bytes : UInt32) (acc : Bool × UInt32) (a : Allocation) : Bool × UInt32 :=
  if !a.live then acc
  else
    let end' := candidate + bytes
    let allocationEnd := a.offset + a.size
    if end' ≤ a.offset ∨ candidate ≥ allocationEnd then acc
    else (true, max32 acc.2 allocationEnd)

/-- One pass over the table at `candidate`: whether anything overlaps, and how far to skip. -/
def scan (allocations : Fin kMaxAllocations → Allocation) (candidate bytes : UInt32) : Bool × UInt32 :=
  (List.finRange kMaxAllocations).foldl (fun acc i => scanEntry candidate bytes acc (allocations i))
    (false, candidate)

/-- The `while` loop of `Allocate`. `none` is "still searching when the fuel ran out", `some none` is
    "left the pool", `some (some c)` is "found `c`". -/
def search (allocations : Fin kMaxAllocations → Allocation) (poolBytes bytes : UInt32) :
    Nat → UInt32 → Option (Option UInt32)
  | 0,        _         => none
  | fuel + 1, candidate =>
    if candidate + bytes ≤ poolBytes then
      match scan allocations candidate bytes with
      | (false, _)    => some (some candidate)
      | (true,  bump) => search allocations poolBytes bytes fuel (alignUp4 bump)
    else some none

/-- The loop state is one 32-bit word, so a search that has not ended by then never ends. -/
def searchFuel : Nat := 2 ^ 32

/-- `Allocate`: the state afterwards and the handle, `0` for failure. -/
def allocate (s : Device) (bytes : UInt32) : Device × UInt32 :=
  if bytes = 0 ∨ bytes > s.config.poolBytes ∨ !s.config.hasPool then (s, 0)
  else
    let bytes := alignUp4 bytes
    if bytes > s.config.poolBytes then (s, 0)
    else
      match firstSlot (fun i => !(s.allocations i).live) with
      | none => (s, 0)
      | some slot =>
        match search s.allocations s.config.poolBytes bytes searchFuel 0 with
        | some (some candidate) =>
          (s.setAllocation slot ⟨candidate, bytes, 0, true⟩, UInt32.ofNat (slot.val + 1))
        | _ => (s, 0)

/-- `JobForHandle`. -/
def jobForHandle (s : Device) (handle : UInt32) : Option (Fin kMaxJobs) :=
  if handle = 0 then none
  else firstSlot (fun i => (s.jobs i).live && (s.jobs i).handle == handle)

/-! ## Completion queue -/

/-- `PushCompletion`. -/
def pushCompletion (s : Device) (r : CompletionRecordV1) : Device × Bool :=
  let (q, queued) := s.completions.push r
  ({ s with completions := q }.record (.completion r queued), queued)

/-- `PopCompletion`. -/
def popCompletion (s : Device) : Option (CompletionRecordV1 × Device) :=
  match s.completions.pop with
  | none        => none
  | some (r, q) => some (r, { s with completions := q })

/-! ## Integer timing model -/

/-- `x * 10^9 / rate` rounded to nearest, in 64 bits, cut to 32; the shape of both `TransferNs` and
    `ComputeNs`. -/
def scaledNs (x rate : UInt32) : UInt32 :=
  if rate = 0 then 0
  else ((x.toUInt64 * 1000000000 + (rate / 2).toUInt64) / rate.toUInt64).toUInt32

/-- `TransferNs`. -/
def transferNs (s : Device) (bytes : UInt32) : UInt32 :=
  scaledNs bytes s.config.timing.busBytesPerSecond

/-- `ComputeNs`. -/
def computeNs (s : Device) (operations : UInt32) : UInt32 :=
  scaledNs operations s.config.timing.kernelOpsPerSecond

/-- `NsToUs`. -/
def nsToUs (ns : UInt32) : UInt32 := (ns + 500) / 1000

/-- `LegacyModelUs`. -/
def legacyModelUs (s : Device) (txBytes rxBytes operations : UInt32) : UInt32 :=
  nsToUs (s.config.timing.commandLatencyNs + s.transferNs txBytes + s.transferNs rxBytes +
    s.computeNs operations)

/-- `BlockTransportNs`: one 512-byte write, one four-byte event read, one 512-byte read. -/
def blockTransportNs (s : Device) : UInt32 :=
  3 * s.config.timing.commandLatencyNs + s.transferNs (UInt32.ofNat (kBlockBytes + 4 + kBlockBytes))

/-- `software_us * 1000 / modeled_us`, in 64 bits, cut to 32; `0` for `modeled_us == 0`. -/
def speedup (softwareUs modeledUs : UInt32) : UInt32 :=
  if modeledUs ≠ 0 then ((softwareUs.toUInt64 * 1000) / modeledUs.toUInt64).toUInt32 else 0

/-! ## F0 / F2 / F3 -/

/-- `WriteReg`. -/
def writeReg (s : Device) (index : UInt8) (value : UInt32) : Device :=
  if h : index.toNat < kStageRegisterCount then s.setStage ⟨index.toNat, h⟩ value else s

/-- `ReadReg`. -/
def readReg (s : Device) (index : UInt8) : UInt32 :=
  if index = kEventCompletionDepth then UInt32.ofNat s.completions.count
  else if h : index.toNat < kStageRegisterCount then s.stage ⟨index.toNat, h⟩
  else 0

/-- `WritePayloadWord`. -/
def writePayloadWord (s : Device) (index : UInt8) (value : UInt32) : Device :=
  let offset := index.toNat * 4
  if offset + 4 ≤ kPayloadBytes then { s with payload := s.payload.write offset (le32 value) } else s

/-! ## F1 -/

/-- The first five assignments of `Exec`: RESULT is `kOk`, the outputs are zero. -/
def clearOutputs (s : Device) : Device :=
  ((((s.setStage kResult Status.ok.code).setStage kOut0 0).setStage kOut1 0).setStage kOut2 0).setStage
    kOut3 0

/-- `stage_[kResult] = status`. -/
def setResult (s : Device) (status : Status) : Device := s.setStage kResult status.code

/-- `case kHello`. -/
def execHello (s : Device) : Device :=
  (((s.setStage kOut0 kProtocolVersion).setStage kOut1 s.config.capabilities).setStage kOut2
    s.config.reportedLocalBytes).setStage kOut3 2

/-- `case kGetCaps`. -/
def execGetCaps (s : Device) : Device :=
  (((s.setStage kOut0 s.config.capabilities).setStage kOut1 s.config.reportedLocalBytes).setStage kOut2
    s.config.timing.busBytesPerSecond).setStage kOut3 (s.config.timing.commandLatencyNs / 1000)

/-- `case kAlloc`. -/
def execAlloc (s : Device) : Device :=
  let (s, handle) := s.allocate (s.stage kArg0)
  if handle = 0 then s.setResult .noMemory
  else
    let s := s.setStage kOut0 handle
    -- `AllocationForHandle(handle)->size`: the handle was issued just above
    match s.allocationForHandle handle with
    | some i => s.setStage kOut1 (s.allocations i).size
    | none   => s

/-- `case kUpload`. -/
def execUpload (s : Device) : Device :=
  let handle := s.stage kArg0
  let offset := s.stage kArg1
  let len := s.stage kPayloadLen
  match s.allocationForHandle handle with
  | none => s.setResult .badHandle
  | some i =>
    let a := s.allocations i
    if len.toNat > kPayloadBytes ∨ offset > a.size ∨ len > a.size - offset then s.setResult .badHandle
    else
      let s := s.poolCopy handle (a.offset.toNat + offset.toNat) (s.payload.read 0 len.toNat)
      let uploaded := max32 a.uploaded (offset + len)
      let s := s.setAllocation i { a with uploaded := uploaded }
      let s := s.setStage kOut0 len
      let (s, checksum) := s.poolHash handle a.offset.toNat uploaded.toNat
      s.setStage kOut1 checksum

/-- `job.handle = next_job_++`, with the entry stored in `slot`. -/
def issueJob (s : Device) (slot : Fin kMaxJobs) (job : Job) : Device :=
  { s.setJob slot job with nextJob := s.nextJob + 1 }.record (.issued job)

/-- The search for a free job slot. -/
def freeJobSlot (s : Device) : Option (Fin kMaxJobs) := firstSlot (fun i => !(s.jobs i).live)

/-- `case kSubmit`. -/
def execSubmit (s : Device) : Device :=
  let handle := s.stage kArg0
  match s.allocationForHandle handle with
  | none => s.setResult .badHandle
  | some i =>
    match s.freeJobSlot with
    | none => s.setResult .queueFull
    | some slot =>
      let a := s.allocations i
      let (s, checksum) := s.poolHash handle a.offset.toNat a.uploaded.toNat
      let softwareUs := s.stage kArg3
      let modeledUs := s.legacyModelUs a.uploaded 16 (s.stage kArg2)
      let job : Job :=
        { allocation := handle
          modeledUs := modeledUs
          speedupX1000 := speedup softwareUs modeledUs
          checksum := checksum
          softwareUs := softwareUs
          pollsRemaining := 2
          ready := false
          live := true
          handle := s.nextJob }
      ((s.issueJob slot job).setStage kOut0 job.handle).setStage kOut1 job.modeledUs

/-- `case kPoll`. -/
def execPoll (s : Device) : Device :=
  match s.jobForHandle (s.stage kArg0) with
  | none => s.setResult .badHandle
  | some i =>
    let job := (s.jobs i).poll
    ((s.setJob i job).setStage kOut0 (if job.ready then 1 else 0)).setStage kOut1
      job.pollsRemaining.toUInt32

/-- `case kCollect`. -/
def execCollect (s : Device) : Device :=
  match s.jobForHandle (s.stage kArg0) with
  | none => s.setResult .badHandle
  | some i =>
    let job := s.jobs i
    if !job.ready then s.setResult .notReady
    else (((s.setStage kOut0 job.modeledUs).setStage kOut1 job.speedupX1000).setStage kOut2
      job.checksum).setStage kOut3 job.softwareUs

/-- `case kFree`. -/
def execFree (s : Device) : Device :=
  match s.allocationForHandle (s.stage kArg0) with
  | none => s.setResult .badHandle
  | some i => s.setAllocation i { s.allocations i with live := false, uploaded := 0 }

/-- `case kComplete`. -/
def execComplete (s : Device) : Device := { s with completed := true }.setStage kOut0 kCompleteAck

/-- The `switch` of `Exec`. -/
def execCommand (s : Device) : Option HighCommand → Device
  | some .hello    => s.execHello
  | some .getCaps  => s.execGetCaps
  | some .alloc    => s.execAlloc
  | some .upload   => s.execUpload
  | some .submit   => s.execSubmit
  | some .poll     => s.execPoll
  | some .collect  => s.execCollect
  | some .free     => s.execFree
  | some .complete => s.execComplete
  | none           => s.setResult .badCommand

/-- `Exec`. The sequence word is advisory: nothing reads it. -/
def exec (s : Device) (command : UInt8) (_sequence : UInt32) : Device :=
  s.clearOutputs.execCommand (HighCommand.ofCode command)

end Device

end GekkoPak
