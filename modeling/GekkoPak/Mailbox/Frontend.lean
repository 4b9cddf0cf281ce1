import GekkoPak.Basis.Mem
import GekkoPak.Basis.Ram
import GekkoPak.Protocol.Wire

/-!
# `Mailbox.Frontend` — the device of the first Azahar prototype

`prototype/azahar/gekkopak_retro_frontend.c`: a libretro frontend that runs a core for a frame, then looks into the
guest's memory for a request and answers it there. The guest is anything that writes that memory.

`model_job_us` computes with doubles, so it is a parameter; so is what the host's `calloc` has to give. What a
descriptor's pointer leads to is the core's business; a translated pointer is taken to lead to the guest memory it was
asked for.
-/

namespace GekkoPak

open Basis

namespace Mailbox

def gkMagic : UInt32 := 0x4B504B47
def gkVersion : UInt32 := 0x00010000
def gkMailbox : UInt32 := 0x0FFFC000
def gkPayloadOff : UInt32 := 0x40
def gkSummaryOff : UInt32 := 0x100
def gkStateRequest : UInt32 := 1
def gkStateResponse : UInt32 := 2
def gkOk : UInt32 := 0
def gkErrBadCommand : UInt32 := 1
def gkErrBadHandle : UInt32 := 2
def gkErrNoMemory : UInt32 := 3
def gkErrNotReady : UInt32 := 4
def gkLocalMemoryBytes : UInt32 := 32 * 1024 * 1024

/-- `GK_CAP_LOCAL_MEMORY|GK_CAP_DSP_AUDIO|GK_CAP_PAIRED_SINGLE|GK_CAP_TEXTURE`. -/
def gkCaps : UInt32 := 1 ||| 2 ||| 4 ||| 8

/-- The commands the device knows. -/
inductive GkCommand
  | hello
  | getCaps
  | alloc
  | upload
  | submit
  | poll
  | collect
  | free
  | complete
deriving DecidableEq, Repr

/-- `GK_CMD_*`. -/
def GkCommand.code : GkCommand → UInt32
  | .hello    => 1
  | .getCaps  => 2
  | .alloc    => 3
  | .upload   => 4
  | .submit   => 5
  | .poll     => 6
  | .collect  => 7
  | .free     => 8
  | .complete => 9

/-- The case a `switch` on a command word takes. -/
def GkCommand.ofCode (code : UInt32) : Option GkCommand :=
  [hello, getCaps, alloc, upload, submit, poll, collect, free, complete].find? (fun c => c.code = code)

/-- `cmd_name`. -/
def cmdName (code : UInt32) : String :=
  match GkCommand.ofCode code with
  | some .hello    => "HELLO"
  | some .getCaps  => "GET_CAPS"
  | some .alloc    => "ALLOC"
  | some .upload   => "UPLOAD"
  | some .submit   => "SUBMIT"
  | some .poll     => "POLL"
  | some .collect  => "COLLECT"
  | some .free     => "FREE"
  | some .complete => "COMPLETE"
  | none           => "UNKNOWN"

/-! ## Guest memory -/

/-- `struct retro_memory_descriptor`, as far as the translation reads it. -/
structure MemoryDescriptor where
  ptr        : UInt64
  offset     : UInt64
  start      : UInt64
  disconnect : UInt64
  len        : UInt64
deriving DecidableEq, Repr

def maxDescs : Nat := 64

/-- `copy_memory_map`: no more descriptors are kept than there is room for. -/
def copyMemoryMap (descriptors : List MemoryDescriptor) : List MemoryDescriptor := descriptors.take maxDescs

/-- One turn of the loop of `guest_ptr`: the host address, if this descriptor maps the whole range. Sums wrap, as those
    of the source do. -/
def MemoryDescriptor.translate (d : MemoryDescriptor) (addr : UInt32) (size : UInt64) : Option UInt64 :=
  if d.ptr = 0 ∨ d.len = 0 then none
  else
    let a : UInt64 := addr.toUInt64
    if a < d.start ∨ a + size > d.start + d.len then none
    else
      let translated := (a &&& ~~~d.disconnect) - d.start + d.offset
      if translated + size > d.offset + d.len then none else some (d.ptr + translated)

/-- `guest_ptr`: the first descriptor that maps the range wins. -/
def guestPtr (descs : List MemoryDescriptor) (addr : UInt32) (size : UInt64) : Option UInt64 :=
  descs.findSome? (fun d => d.translate addr size)

/-! ## The mailbox -/

/-- `struct gk_mailbox`. -/
structure GkMailbox where
  magic      : UInt32
  version    : UInt32
  seq        : UInt32
  command    : UInt32
  state      : UInt32
  result     : UInt32
  arg0       : UInt32
  arg1       : UInt32
  arg2       : UInt32
  arg3       : UInt32
  out0       : UInt32
  out1       : UInt32
  out2       : UInt32
  out3       : UInt32
  payloadLen : UInt32
  reserved   : UInt32
deriving DecidableEq, Repr

/-- `sizeof(struct gk_mailbox)`. -/
def gkMailboxBytes : UInt64 := 64

/-- The mailbox in guest memory. -/
def GkMailbox.load (m : Mem) : GkMailbox where
  magic      := m.word 0x0FFFC000
  version    := m.word 0x0FFFC004
  seq        := m.word 0x0FFFC008
  command    := m.word 0x0FFFC00C
  state      := m.word 0x0FFFC010
  result     := m.word 0x0FFFC014
  arg0       := m.word 0x0FFFC018
  arg1       := m.word 0x0FFFC01C
  arg2       := m.word 0x0FFFC020
  arg3       := m.word 0x0FFFC024
  out0       := m.word 0x0FFFC028
  out1       := m.word 0x0FFFC02C
  out2       := m.word 0x0FFFC030
  out3       := m.word 0x0FFFC034
  payloadLen := m.word 0x0FFFC038
  reserved   := m.word 0x0FFFC03C

/-- What the device writes of it: RESULT, OUT0 .. OUT3 and STATE. -/
def GkMailbox.storeAnswer (box : GkMailbox) (m : Mem) : Mem :=
  (((((m.setWord 0x0FFFC014 box.result).setWord 0x0FFFC028 box.out0).setWord 0x0FFFC02C box.out1).setWord
    0x0FFFC030 box.out2).setWord 0x0FFFC034 box.out3).setWord 0x0FFFC010 box.state

/-- The payload area, where it is mapped for that many bytes. -/
def payloadOf (descs : List MemoryDescriptor) (m : Mem) (len : UInt32) : Option (List UInt8) :=
  (guestPtr descs (gkMailbox + gkPayloadOff) len.toUInt64).map (fun _ => m.read 0x0FFFC040 len.toNat)

/-! ## The device -/

/-- `struct gk_alloc`. -/
structure GkAlloc where
  handle   : UInt32
  data     : Option (List UInt8)
  size     : UInt32
  uploaded : UInt32
deriving DecidableEq, Repr

/-- The state after `memset(&g_alloc,0,sizeof(g_alloc))`. -/
def GkAlloc.zero : GkAlloc := ⟨0, none, 0, 0⟩

/-- `struct gk_job`. -/
structure GkJob where
  handle         : UInt32
  allocHandle    : UInt32
  kernel         : UInt32
  operations     : UInt32
  softwareUs     : UInt32
  modeledUs      : UInt32
  speedupX1000   : UInt32
  checksum       : UInt32
  pollsRemaining : Nat
  ready          : Bool
deriving DecidableEq, Repr

def GkJob.zero : GkJob := ⟨0, 0, 0, 0, 0, 0, 0, 0, 0, false⟩

/-- One line of the trace file. -/
structure TraceLine where
  seq        : UInt32
  cmd        : String
  arg        : List UInt32
  result     : UInt32
  out        : List UInt32
  payloadLen : UInt32
deriving DecidableEq, Repr

/-- The line of an answered request. -/
def GkMailbox.traceLine (box : GkMailbox) : TraceLine where
  seq        := box.seq
  cmd        := cmdName box.command
  arg        := [box.arg0, box.arg1, box.arg2, box.arg3]
  result     := box.result
  out        := [box.out0, box.out1, box.out2, box.out3]
  payloadLen := box.payloadLen

/-- The words of the summary area. -/
def summaryWords (m : Mem) : List UInt32 :=
  [m.word 0x0FFFC100, m.word 0x0FFFC104, m.word 0x0FFFC108, m.word 0x0FFFC10C, m.word 0x0FFFC110, m.word 0x0FFFC114,
    m.word 0x0FFFC118, m.word 0x0FFFC11C, m.word 0x0FFFC120]

/-- The globals of the frontend, the lines it had for its trace file (`answered`) and those that are in it, and the guest
    summaries it has printed. `gTrace` says that the file could be opened. -/
structure Frontend where
  descs           : List MemoryDescriptor
  gTrace          : Bool
  alloc           : GkAlloc
  job             : GkJob
  lastSeq         : UInt32
  nextAllocHandle : UInt32
  nextJobHandle   : UInt32
  guestDone       : Bool
  answered        : List TraceLine
  trace           : List TraceLine
  summaries       : List (List UInt32)
deriving DecidableEq, Repr

/-- The frontend once the core has handed over its memory map. -/
def Frontend.init (descriptors : List MemoryDescriptor) (gTrace : Bool) : Frontend where
  descs           := copyMemoryMap descriptors
  gTrace          := gTrace
  alloc           := .zero
  job             := .zero
  lastSeq         := 0
  nextAllocHandle := 1
  nextJobHandle   := 1
  guestDone       := false
  answered        := []
  trace           := []
  summaries       := []

namespace Frontend

/-- `trace_cmd`: without a file nothing is written. -/
def traceCmd (f : Frontend) (box : GkMailbox) : Frontend :=
  { f with
    answered := f.answered ++ [box.traceLine]
    trace := if f.gTrace then f.trace ++ [box.traceLine] else f.trace }

/-- `GK_CMD_ALLOC`; `calloc` says whether the host has that many bytes. -/
def cmdAlloc (calloc : UInt32 → Bool) (f : Frontend) (box : GkMailbox) : Frontend × GkMailbox :=
  if box.arg0 = 0 ∨ box.arg0 > gkLocalMemoryBytes ∨ f.alloc.data.isSome then
    (f, { box with result := gkErrNoMemory })
  else if !calloc box.arg0 then (f, { box with result := gkErrNoMemory })
  else
    let handle := f.nextAllocHandle
    ({ f with
        alloc := ⟨handle, some (List.replicate box.arg0.toNat 0), box.arg0, 0⟩
        nextAllocHandle := handle + 1 },
     { box with out0 := handle, out1 := box.arg0 })

/-- `GK_CMD_UPLOAD`. -/
def cmdUpload (f : Frontend) (box : GkMailbox) (payload : Option (List UInt8)) : Frontend × GkMailbox :=
  match f.alloc.data, payload with
  | some data, some bytes =>
    if box.arg0 ≠ f.alloc.handle ∨ box.arg1 > f.alloc.size ∨ box.payloadLen > f.alloc.size - box.arg1 then
      (f, { box with result := gkErrBadHandle })
    else
      let data := splice data box.arg1.toNat bytes
      let uploaded :=
        if box.arg1 + box.payloadLen > f.alloc.uploaded then box.arg1 + box.payloadLen else f.alloc.uploaded
      ({ f with alloc := { f.alloc with data := some data, uploaded := uploaded } },
       { box with out0 := box.payloadLen, out1 := fnv1a (data.take uploaded.toNat) })
  | _, _ => (f, { box with result := gkErrBadHandle })

/-- `GK_CMD_SUBMIT`. -/
def cmdSubmit (modelJobUs : UInt32 → UInt32 → UInt32 → UInt32) (f : Frontend) (box : GkMailbox) :
    Frontend × GkMailbox :=
  match f.alloc.data with
  | none => (f, { box with result := gkErrBadHandle })
  | some data =>
    if box.arg0 ≠ f.alloc.handle ∨ f.job.handle ≠ 0 then (f, { box with result := gkErrBadHandle })
    else
      let modeledUs := modelJobUs f.alloc.uploaded 16 box.arg2
      let job : GkJob :=
        { handle         := f.nextJobHandle
          allocHandle    := box.arg0
          kernel         := box.arg1
          operations     := box.arg2
          softwareUs     := box.arg3
          modeledUs      := modeledUs
          speedupX1000   :=
            if modeledUs ≠ 0 then UInt32.ofNat (box.arg3.toNat * 1000 / modeledUs.toNat) else 0
          checksum       := fnv1a (data.take f.alloc.uploaded.toNat)
          pollsRemaining := 2
          ready          := false }
      ({ f with job := job, nextJobHandle := f.nextJobHandle + 1 },
       { box with out0 := job.handle, out1 := job.modeledUs })

/-- `GK_CMD_POLL`. -/
def cmdPoll (f : Frontend) (box : GkMailbox) : Frontend × GkMailbox :=
  if f.job.handle = 0 ∨ box.arg0 ≠ f.job.handle then (f, { box with result := gkErrBadHandle })
  else
    let job :=
      if f.job.ready then f.job
      else
        let polls := f.job.pollsRemaining - 1
        { f.job with pollsRemaining := polls, ready := polls = 0 }
    ({ f with job := job },
     { box with out0 := if job.ready then 1 else 0, out1 := UInt32.ofNat job.pollsRemaining })

/-- `GK_CMD_COLLECT`. -/
def cmdCollect (f : Frontend) (box : GkMailbox) : Frontend × GkMailbox :=
  if f.job.handle = 0 ∨ box.arg0 ≠ f.job.handle then (f, { box with result := gkErrBadHandle })
  else if !f.job.ready then (f, { box with result := gkErrNotReady })
  else
    (f, { box with
      out0 := f.job.modeledUs, out1 := f.job.speedupX1000, out2 := f.job.checksum, out3 := f.job.softwareUs })

/-- `GK_CMD_FREE`. -/
def cmdFree (f : Frontend) (box : GkMailbox) : Frontend × GkMailbox :=
  if f.alloc.data.isNone ∨ box.arg0 ≠ f.alloc.handle then (f, { box with result := gkErrBadHandle })
  else ({ f with alloc := .zero }, box)

/-- The `switch` of `service_gekkopak`. -/
def command (modelJobUs : UInt32 → UInt32 → UInt32 → UInt32) (calloc : UInt32 → Bool) (f : Frontend)
    (box : GkMailbox) (payload : Option (List UInt8)) : Frontend × GkMailbox :=
  match GkCommand.ofCode box.command with
  | some .hello =>
    (f, { box with out0 := gkVersion, out1 := gkCaps, out2 := gkLocalMemoryBytes, out3 := 1 })
  | some .getCaps =>
    (f, { box with out0 := gkCaps, out1 := gkLocalMemoryBytes, out2 := 6 * 1024 * 1024, out3 := 25 })
  | some .alloc    => f.cmdAlloc calloc box
  | some .upload   => f.cmdUpload box payload
  | some .submit   => f.cmdSubmit modelJobUs box
  | some .poll     => f.cmdPoll box
  | some .collect  => f.cmdCollect box
  | some .free     => f.cmdFree box
  | some .complete => ({ f with guestDone := true }, { box with out0 := 0x53534150 })
  | none           => (f, { box with result := gkErrBadCommand })

/-- An accepted request: the answer, the trace line, the state word. -/
def answer (modelJobUs : UInt32 → UInt32 → UInt32 → UInt32) (calloc : UInt32 → Bool) (f : Frontend)
    (box : GkMailbox) (payload : Option (List UInt8)) : Frontend × GkMailbox :=
  let (f, box) := command modelJobUs calloc { f with lastSeq := box.seq }
    { box with result := gkOk, out0 := 0, out1 := 0, out2 := 0, out3 := 0 } payload
  (f.traceCmd box, { box with state := gkStateResponse })

/-- Is there a request to answer? -/
def requested (f : Frontend) (box : GkMailbox) : Bool :=
  (guestPtr f.descs gkMailbox gkMailboxBytes).isSome ∧ box.magic = gkMagic ∧ box.state = gkStateRequest ∧
    box.seq ≠ f.lastSeq

/-- After COMPLETE the summary area is printed, where it is mapped. -/
def printSummary (f : Frontend) (m : Mem) : Frontend :=
  if (guestPtr f.descs (gkMailbox + gkSummaryOff) 36).isSome then
    { f with summaries := f.summaries ++ [summaryWords m] }
  else f

/-- `service_gekkopak`. -/
def serviceGekkopak (modelJobUs : UInt32 → UInt32 → UInt32 → UInt32) (calloc : UInt32 → Bool) (f : Frontend)
    (m : Mem) : Frontend × Mem :=
  let box := GkMailbox.load m
  if f.requested box then
    let (f, box) := f.answer modelJobUs calloc box (payloadOf f.descs m box.payloadLen)
    let m := box.storeAnswer m
    (if box.command = GkCommand.complete.code then f.printSummary m else f, m)
  else (f, m)

end Frontend

end Mailbox

end GekkoPak
