import GekkoPak.Ntr.Program

/-!
# `Ntr.Session` — what the guest is for

The session of the guest, on the core alone: which commands it gives, which answers it looks at, when it gives up and
what it reports. There are no registers, no buffers and no stack here; `Ntr.Correctness.Session` shows that the
assembly carries this out, whatever core it meets.
-/

namespace GekkoPak

open Basis

namespace Ntr

/-! ## Dealing with a core -/

/-- A part of the session: it may give up. -/
abbrev Core : Type → Type := StateT Device Option

namespace Core

/-- What the core makes of a command, and RESULT as it is read afterwards. -/
def execResult (d : Device) (command : UInt8) (seq : UInt32) : Device × UInt32 :=
  let d := (d.countTransfer.exec command seq).countTransfer
  (d, d.readReg rResult.toUInt8)

/-- A command; any result but 0 is a failure. -/
def exec (command seq : UInt32) : Core Unit := fun d =>
  let (d, result) := execResult d command.toUInt8 seq
  if result = 0 then some ((), d) else none

/-- A register is read. -/
def read (index : UInt32) : Core UInt32 := fun d => some (d.countTransfer.readReg index.toUInt8, d.countTransfer)

/-- A register is written. -/
def write (index value : UInt32) : Core Unit := fun d => some ((), d.countTransfer.writeReg index.toUInt8 value)

/-- A descriptor block is handed over. -/
def submit (block : List UInt8) : Core Unit := fun d =>
  some ((), (d.countTransfer.writeBlock 0 (UInt32.ofNat block.length) (some block)).1)

/-- The first completion record is fetched, with what follows it in the block. -/
def collect : Core (List UInt8) := fun d =>
  let (d, _, out) := d.countTransfer.readBlock 1 0x00400000 (some kBlockBytes)
  some (out, d)

/-- The session goes on only if `p`. -/
def demand (p : Prop) [Decidable p] : Core Unit := fun d => if p then some ((), d) else none

end Core

/-! ## The session -/

/-- The words of the descriptor and its inline payload. -/
def descriptorWords (handle : UInt32) : List UInt32 :=
  [descMagic, descVerOp, 1, descInline, handle, 0, 16, 0, 0, 16, 1, 250000, 3500, 0, 0, 0,
    0x11223344, 0x55667788, 0xAABBCCDD, 0x0BADF00D]

/-- Word `i` of a record. -/
def wordAt (record : List UInt8) (i : Nat) : UInt32 := ofLe32 (slice record (4 * i) 4)

/-- There is a record to fetch: the depth is not less than 1, as signed numbers. -/
def Waiting (depth : UInt32) : Prop := depth ≠ 0 ∧ depth < 0x80000000

instance (depth : UInt32) : Decidable (Waiting depth) := inferInstanceAs (Decidable (_ ∧ _))

open Ntr.Core in
/-- What the guest does; the words it reports. -/
def session : Core (List UInt32) := do
  exec cmdHello 1
  let protocol ← read rOut0
  exec cmdGetCaps 2
  let caps ← read rOut0
  demand (caps &&& capBlockTransport ≠ 0)
  let localRam ← read rOut1
  write rArg0 4096
  exec cmdAlloc 3
  let handle ← read rOut0
  submit ((descriptorWords handle).flatMap le32)
  let depth ← read eventCompletionDepth
  demand (Waiting depth)
  let record ← collect
  demand (wordAt record 0 = compMagic)
  demand (leNat (slice record 6 2) = 0)
  write rArg0 handle
  exec cmdFree 4
  exec cmdComplete 5
  return [passMagic, protocol, caps, localRam, handle, wordAt record 3, wordAt record 4, wordAt record 5, wordAt record 6,
    wordAt record 9, wordAt record 10, 3]

/-! ## The board at the guest's entry -/

/-- `summary` .. the end of the buffers. -/
def dataEnd : Nat := 0x0FFFC500

/-- The instruction has its operand in the literal pool. -/
def pooled : Arm.Instr Label → Bool
  | .op (.lit _ _) => true
  | _              => false

/-- Behind the program and its literal pool. -/
def textEnd : Nat := program.base.toNat + 4 * (program.code.length + program.code.countP pooled)

/-- The guest is about to start: 28 bytes of stack in memory, apart from its program and from its own data, and no transfer
    open. The core takes its instructions from the listing, so a stack over the program has to be ruled out here. -/
structure Ready (d : Device) (s : Arm.State Board) : Prop where
  pc     : s.pc = program.target .start
  room   : 28 ≤ (s.regs Arm.sp).toNat
  memory : ∀ a : UInt32, (s.regs Arm.sp).toNat - 28 ≤ a.toNat → a.toNat < (s.regs Arm.sp).toNat → onPage a = false
  text   : (s.regs Arm.sp).toNat ≤ program.base.toNat ∨ textEnd + 28 ≤ (s.regs Arm.sp).toNat
  apart  : (s.regs Arm.sp).toNat ≤ summary.toNat ∨ dataEnd + 28 ≤ (s.regs Arm.sp).toNat
  device : s.mem.window.device = d
  idle   : s.mem.window.transport.direction = PhaseDirection.none

/-- The guest just loaded: whatever is in memory, the stack ends where the emulator puts it. -/
def boot (config : Config) (ram : Mem) : Arm.State Board where
  regs := fun r => if r = Arm.sp then 0x10000000 else 0
  n    := false
  z    := false
  v    := false
  pc   := program.target .start
  mem  := ⟨ram, RegisterWindow.reset config⟩

end Ntr

end GekkoPak
