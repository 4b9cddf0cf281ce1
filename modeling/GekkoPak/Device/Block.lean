import GekkoPak.Device.Core

/-!
# `Device.Block` — the F4/F5 block transport

`ProcessDescriptorBlock`, `WriteBlock` and `ReadBlock` of `src/device.cpp`. A block is parsed completely
before any of it is applied (`parse`, then `processDescriptors`).
-/

namespace GekkoPak

open Basis

/-! ## Parsing a block -/

/-- A parsed descriptor with what `inline_inputs[i]` points at: the inline bytes, or `none` for `nullptr`. -/
structure ParsedDescriptor where
  desc  : JobDescriptorV1
  input : Option (List UInt8)
deriving DecidableEq, Repr

/-- How many inline bytes follow a descriptor. -/
def JobDescriptorV1.inlineLength (d : JobDescriptorV1) : Nat := if d.inlineInput then d.inputLength.toNat else 0

/-- The parse loop at `cursor`. The `Nat` argument is `kMaxDescriptorsPerBlock - count`, the descriptors
    that still fit in the table. -/
def parseLoop (data : List UInt8) (len : Nat) : Nat → Nat → Except Status (List ParsedDescriptor)
  | 0,        _      => .ok []
  | room + 1, cursor =>
    if cursor + kDescriptorBytes ≤ len then
      let desc := JobDescriptorV1.ofBytes (slice data cursor kDescriptorBytes)
      if desc.magic = 0 then .ok []   -- zero padding terminates the block
      else if !desc.headerOk then .error .badDescriptor
      else
        let cursor := cursor + kDescriptorBytes
        if desc.inlineLength > len - cursor then .error .badBlock
        else do
          let rest ← parseLoop data len room (cursor + desc.inlineLength)
          let input := if desc.inlineInput then some (slice data cursor desc.inlineLength) else none
          return ⟨desc, input⟩ :: rest
    else .ok []

/-- The parsing half of `ProcessDescriptorBlock`. -/
def parse (data : List UInt8) (len : Nat) : Except Status (List ParsedDescriptor) := do
  let parsed ← parseLoop data len kMaxDescriptorsPerBlock 0
  if parsed.length = 0 then .error .badDescriptor else return parsed

namespace Device

/-! ## Running a block -/

/-- The completion record of a descriptor before its outcome is known. -/
def completionFor (desc : JobDescriptorV1) (batchSize transportShareNs : UInt32) : CompletionRecordV1 :=
  { magic := kCompletionMagic
    version := kBlockProtocolVersion
    status := Status.ok.code16
    sequence := desc.sequence
    softwareUs := desc.arg0
    outputLength := desc.outputLength
    transportUsX1000 := transportShareNs
    batchSize := batchSize }

/-- `completion.status = status; dropped |= !PushCompletion(completion); continue;` -/
def refuse (s : Device) (completion : CompletionRecordV1) (status : Status) : Device × Bool :=
  s.pushCompletion { completion with status := status.code16 }

/-- The output check: `output_handle` is zero, or names a live allocation that holds the output range. -/
def outputOk (s : Device) (desc : JobDescriptorV1) : Bool :=
  if desc.outputHandle = 0 then true
  else
    match s.allocationForHandle desc.outputHandle with
    | none => false
    | some o =>
      !(decide (desc.outputOffset > (s.allocations o).size) ||
        decide (desc.outputLength > (s.allocations o).size - desc.outputOffset))

/-- The input check: `input_handle` names a live allocation that holds the input range. -/
def inputSlot (s : Device) (desc : JobDescriptorV1) : Option (Fin kMaxAllocations) :=
  match s.allocationForHandle desc.inputHandle with
  | none => none
  | some i =>
    if desc.inputOffset > (s.allocations i).size ∨
        desc.inputLength > (s.allocations i).size - desc.inputOffset then none
    else some i

/-- A descriptor whose input is in place, in slot `i`: check the output, find a job slot, create the job
    and complete it. -/
def runDescriptor (s : Device) (i : Fin kMaxAllocations) (desc : JobDescriptorV1)
    (completion : CompletionRecordV1) (transportShareNs : UInt32) : Device × Bool :=
  if !s.outputOk desc then s.refuse completion .badHandle
  else
    match s.freeJobSlot with
    | none => s.refuse completion .queueFull
    | some slot =>
      let (s, checksum) := s.poolHash desc.inputHandle
        ((s.allocations i).offset.toNat + desc.inputOffset.toNat) desc.inputLength.toNat
      let modeledUs := nsToUs (s.computeNs desc.workUnits + transportShareNs)
      -- block-submitted jobs complete synchronously: nothing is left to poll for
      let job : Job :=
        { allocation := desc.inputHandle
          modeledUs := modeledUs
          speedupX1000 := speedup desc.arg0 modeledUs
          checksum := checksum
          softwareUs := desc.arg0
          pollsRemaining := 0
          ready := true
          live := true
          handle := s.nextJob }
      (s.issueJob slot job).pushCompletion
        { completion with
          jobHandle := job.handle
          modeledUs := job.modeledUs
          speedupX1000 := job.speedupX1000
          checksum := job.checksum }

/-- The inline copy of a descriptor whose input range is in slot `i`. -/
def stageInline (s : Device) (i : Fin kMaxAllocations) (desc : JobDescriptorV1) (bs : List UInt8) : Device :=
  let a := s.allocations i
  (s.poolCopy desc.inputHandle (a.offset.toNat + desc.inputOffset.toNat) bs).setAllocation i
    { a with uploaded := max32 a.uploaded (desc.inputOffset + desc.inputLength) }

/-- One turn of the descriptor loop; the flag is what `PushCompletion` returned. -/
def processDescriptor (s : Device) (batchSize transportShareNs : UInt32) (p : ParsedDescriptor) :
    Device × Bool :=
  let completion := completionFor p.desc batchSize transportShareNs
  match s.inputSlot p.desc with
  | none => s.refuse completion .badHandle
  | some i =>
    match p.input with
    | some bs => (s.stageInline i p.desc bs).runDescriptor i p.desc completion transportShareNs
    | none =>
      if (s.allocations i).uploaded < p.desc.inputOffset + p.desc.inputLength then
        s.refuse completion .badDescriptor
      else s.runDescriptor i p.desc completion transportShareNs

/-- The descriptor loop; the flag is `dropped`. -/
def processDescriptors (s : Device) (batchSize transportShareNs : UInt32) :
    List ParsedDescriptor → Bool → Device × Bool
  | [],      dropped => (s, dropped)
  | p :: ps, dropped =>
    let (s, queued) := s.processDescriptor batchSize transportShareNs p
    s.processDescriptors batchSize transportShareNs ps (dropped || !queued)

/-- Each job's share of the block round trip. -/
def transportShare (s : Device) (batchSize : UInt32) : UInt32 :=
  (s.blockTransportNs + batchSize / 2) / batchSize

/-- `ProcessDescriptorBlock`. -/
def processDescriptorBlock (s : Device) (data : List UInt8) (len : Nat) : Device × Status :=
  match parse data len with
  | .error status => (s, status)
  | .ok parsed =>
    let batchSize := UInt32.ofNat parsed.length
    let (s, dropped) := s.processDescriptors batchSize (s.transportShare batchSize) parsed false
    (s, if dropped then .queueFull else .ok)

/-! ## F4 / F5 -/

/-- `WriteBlock`. `data` is the buffer behind the pointer (`none` for `nullptr`); `data_bytes` is its length. -/
def writeBlock (s : Device) (selector : UInt8) (word : UInt32) (data : Option (List UInt8)) :
    Device × Status :=
  let len := (word &&& 0xFFFF).toNat
  match data with
  | none => (s.setResult .badBlock, .badBlock)
  | some bytes =>
    if selector ≠ kSelectorSubmission ∨ len = 0 ∨ len > kBlockBytes ∨ len > bytes.length then
      (s.setResult .badBlock, .badBlock)
    else
      let (s, status) := s.processDescriptorBlock bytes len
      (s.setResult status, status)

/-- The copy loop of `ReadBlock`. Every turn pops a record, so the queue length bounds the turns. -/
def drainLoop (limit : Nat) : Nat → Device → Nat → List UInt8 → Device × Nat × List UInt8
  | 0,         s, written, out => (s, written, out)
  | turns + 1, s, written, out =>
    if written + kCompletionBytes ≤ limit then
      match s.popCompletion with
      | none => (s, written, out)
      | some (r, s) => drainLoop limit turns s (written + kCompletionBytes) (splice out written r.toBytes)
    else (s, written, out)

/-- `ReadBlock`. `out` is `out_bytes` (`none` for `nullptr`); the result is the state, the bytes written and
    the whole output buffer. -/
def readBlock (s : Device) (selector : UInt8) (word : UInt32) (out : Option Nat) :
    Device × Nat × List UInt8 :=
  let offset := (word &&& 0xFFFF).toNat
  let len := (word >>> 16).toNat
  match out with
  | none => (s.setResult .badBlock, 0, [])
  | some outBytes =>
    if outBytes = 0 then (s.setResult .badBlock, 0, [])
    else
      let zeroed := List.replicate outBytes 0
      if selector ≠ kSelectorCompletion ∨ offset ≠ 0 ∨ len = 0 ∨ len > kBlockBytes then
        (s.setResult .badBlock, 0, zeroed)
      else
        let limit := if len < outBytes then len else outBytes
        let (s, written, out) := drainLoop limit s.completions.count s 0 zeroed
        (s.setResult .ok, written, out)

end Device

end GekkoPak
