import GekkoPak.Transport.Clients
import GekkoPak.Transport.Targets

/-!
# `Transport.DsClient` — the control path of the DS test program

`prototype/dspico-v1/ds-test`: what `gekkopak_ntr.h`, `gekkopak_ntr.c` and `bench.c` build out of single transactions —
register access, EXEC, ALLOC, the F3 upload. The client sees the cartridge through two primitives, `gpk_cmd_none` and
`gpk_cmd_read32`, so it is written over any bus that has them; two buses follow, one with a device at its end that takes
every transaction, and one that answers its reads from a given sequence of words, whatever was asked.
-/

namespace GekkoPak

open Basis

/-- The two primitives: a command without a data phase, and one with a four-byte read phase. -/
structure NtrBus (β : Type) where
  gpkCmdNone   : β → UInt8 → UInt8 → UInt32 → β
  gpkCmdRead32 : β → UInt8 → UInt8 → UInt32 → β × UInt32

/-! The register and command numbers of `gekkopak_ntr.h`. -/

def gpkRegArg0 : UInt8 := 0
def gpkRegArg1 : UInt8 := 1
def gpkRegPayloadLen : UInt8 := 4
def gpkRegResult : UInt8 := 5
def gpkRegOut0 : UInt8 := 6
def gpkRegOut1 : UInt8 := 7
def gpkRegEventDepth : UInt8 := 0xFE

def gpkCmdAlloc : UInt8 := 3
def gpkCmdUpload : UInt8 := 4

def gpkOk : UInt32 := 0

/-- What an undriven bus reads as. -/
def allOnes : UInt32 := 0xFFFFFFFF

namespace NtrBus

variable {β : Type} (bus : NtrBus β)

/-- `gpk_write_reg`. -/
def gpkWriteReg (b : β) (index : UInt8) (value : UInt32) : β :=
  bus.gpkCmdNone b WireOpcode.writeReg.code index value

/-- `gpk_payload_word`. -/
def gpkPayloadWord (b : β) (wordIndex : UInt8) (value : UInt32) : β :=
  bus.gpkCmdNone b WireOpcode.writePayloadWord.code wordIndex value

/-- One F2. -/
def readOnce (b : β) (index : UInt8) : β × UInt32 := bus.gpkCmdRead32 b WireOpcode.readReg.code index 0

/-- The loop of `gpk_read_reg`, with the turns left. When they run out the last answer is returned as it is. -/
def agreeLoop (index : UInt8) : Nat → β → UInt32 → β × UInt32
  | 0,         b, prev => (b, prev)
  | turns + 1, b, prev =>
    let (b, now) := bus.readOnce b index
    if now = prev ∧ now ≠ allOnes then (b, now) else agreeLoop index turns b now

/-- `gpk_read_reg`. -/
def gpkReadReg (b : β) (index : UInt8) : β × UInt32 :=
  let (b, prev) := bus.readOnce b index
  bus.agreeLoop index 6 b prev

/-- `gpk_event_depth`. -/
def gpkEventDepth (b : β) : β × UInt32 := bus.gpkReadReg b gpkRegEventDepth

/-- `gpk_exec`: the command, and one read of RESULT that is thrown away. -/
def gpkExec (b : β) (command : UInt8) : β :=
  (bus.gpkReadReg (bus.gpkCmdNone b WireOpcode.exec.code command 0) gpkRegResult).1

/-- `gpk_alloc`: the handle, and what was stored to `*sizeOut`. -/
def gpkAlloc (b : β) (bytes : UInt32) (sizeOut : Bool) : β × UInt32 × Option UInt32 :=
  let b := bus.gpkWriteReg b gpkRegArg0 bytes
  let b := bus.gpkExec b gpkCmdAlloc
  let (b, result) := bus.gpkReadReg b gpkRegResult
  if result ≠ gpkOk then (b, 0, none)
  else if sizeOut then
    let (b, size) := bus.gpkReadReg b gpkRegOut1
    let (b, handle) := bus.gpkReadReg b gpkRegOut0
    (b, handle, some size)
  else
    let (b, handle) := bus.gpkReadReg b gpkRegOut0
    (b, handle, none)

/-- Word `i` of `len` bytes at `data`: `w = 0`, then the bytes that are left, four at most, copied over it. -/
def uploadWord (data : List UInt8) (len i : Nat) : UInt32 :=
  let remaining := len - i * 4
  ofLe32 (slice data (i * 4) (if remaining ≥ 4 then 4 else remaining))

/-- The word loop of `gpk_upload` from word `i` on; the index goes out as a `u8`. -/
def uploadLoop (data : List UInt8) (len : Nat) : Nat → Nat → β → β
  | 0,        _, b => b
  | left + 1, i, b => uploadLoop data len left (i + 1) (bus.gpkPayloadWord b (UInt8.ofNat i) (uploadWord data len i))

/-- `gpk_upload`. -/
def gpkUpload (b : β) (handle : UInt32) (data : List UInt8) (len : UInt32) : β × UInt32 :=
  let words := ((len + 3) / 4).toNat
  let b := bus.uploadLoop data len.toNat words 0 b
  let b := bus.gpkWriteReg b gpkRegArg0 handle
  let b := bus.gpkWriteReg b gpkRegArg1 0
  let b := bus.gpkWriteReg b gpkRegPayloadLen len
  let b := bus.gpkExec b gpkCmdUpload
  let (b, result) := bus.gpkReadReg b gpkRegResult
  if result ≠ gpkOk then (b, 0) else bus.gpkReadReg b gpkRegOut1

end NtrBus

/-! ## A bus that delivers -/

/-- The console's I/O registers, and the device at the other end. -/
structure CardBus where
  io     : Mem
  device : Device

/-- The eight bytes in the command registers go to the device, and the word it answers with comes back in memory order. -/
def deviceBus : NtrBus CardBus where
  gpkCmdNone b opcode index word :=
    let io := gpkWriteCommand b.io opcode index word
    ⟨io, (coreIssue b.device (commandOf (io.read regMccmd0 8)) none none).1⟩
  gpkCmdRead32 b opcode index word :=
    let io := gpkWriteCommand b.io opcode index word
    let (device, answer) := coreIssue b.device (commandOf (io.read regMccmd0 8)) none (some 4)
    (⟨io, device⟩, ofLe32 answer.response)

/-! ## A bus that answers as it likes -/

/-- Reads are answered from `answers`, in order; the state is how many have been answered. -/
def scriptedBus (answers : Nat → UInt32) : NtrBus Nat where
  gpkCmdNone n _ _ _ := n
  gpkCmdRead32 n _ _ _ := (n + 1, answers n)

end GekkoPak
