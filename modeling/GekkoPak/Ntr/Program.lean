import GekkoPak.Basis.Ram
import GekkoPak.Transport.Clients

/-!
# `Ntr.Program` — the NTR guest on the emulated board

`prototype/azahar-ntr/guest/gekkopak_guest_ntr.S`, line for line, at the address `build_guest.sh` links it to, and the
board it runs on: memory, and the register page that the overlay's `Read32` and `Write32` serve at `VirtualBase`. The
frontend only looks at the summary the guest leaves (`validateSummary`).
-/

namespace GekkoPak

open Basis Arm

namespace Ntr

/-! ## The program -/

section Equates

def ntr : UInt32 := 0x1EC64000
def summary : UInt32 := 0x0FFFC000

def regFifo : UInt32 := 0x1C

def blockTx : UInt32 := 0x0FFFC100
def blockRx : UInt32 := 0x0FFFC300
def blockWords : UInt32 := 128

def cardReady : UInt32 := 0x00800000
def cardBlkNone : UInt32 := 0x00000000
def cardBlk512 : UInt32 := 0x01000000
def cardBlk4 : UInt32 := 0x07000000

def wWriteReg : UInt32 := 0xF0
def wExec : UInt32 := 0xF1
def wReadReg : UInt32 := 0xF2
def wWriteBlock : UInt32 := 0xF4
def wReadBlock : UInt32 := 0xF5
def eventCompletionDepth : UInt32 := 0xFE

def rArg0 : UInt32 := 0
def rResult : UInt32 := 5
def rOut0 : UInt32 := 6
def rOut1 : UInt32 := 7

def cmdHello : UInt32 := 1
def cmdGetCaps : UInt32 := 2
def cmdAlloc : UInt32 := 3
def cmdFree : UInt32 := 8
def cmdComplete : UInt32 := 9

def capBlockTransport : UInt32 := 0x10
def descMagic : UInt32 := 0x31444B47
def descVerOp : UInt32 := 0x00010001
def descInline : UInt32 := 0x00000001
def compMagic : UInt32 := 0x31434B47
def passMagic : UInt32 := 0x53534150
def failMagic : UInt32 := 0x4C494146

end Equates

/-- The labels. The `1:` of a loop is named after its routine. -/
inductive Label
  | start
  | finished
  | wrreg
  | rdreg
  | execHi
  | stageCmd
  | waitIdle
  | waitReady
  | wire
  | wireRead4
  | wireWriteBlock
  | wireWriteBlock1
  | wireReadBlock
  | wireReadBlock1
  | failed
  | failSpin
deriving DecidableEq, Repr

/-- The listing. -/
def listing : List (Line Label) := [
  label .start,
  lit r10 ntr,
  lit r11 summary,
  mov r8 0,
  mov r0 0,
  str r0 r11 0,

  mov r0 cmdHello,
  bl .execHi,
  mov r0 rOut0,
  bl .rdreg,
  str r0 r11 4,

  mov r0 cmdGetCaps,
  bl .execHi,
  mov r0 rOut0,
  bl .rdreg,
  str r0 r11 8,
  tst r0 capBlockTransport,
  bEq .failed,
  mov r0 rOut1,
  bl .rdreg,
  str r0 r11 12,

  mov r0 rArg0,
  mov r1 4096,
  bl .wrreg,
  mov r0 cmdAlloc,
  bl .execHi,
  mov r0 rOut0,
  bl .rdreg,
  movr r7 r0,
  str r7 r11 16,

  lit r9 blockTx,
  lit r0 descMagic,
  str r0 r9 0,
  lit r0 descVerOp,
  str r0 r9 4,
  mov r0 1,
  str r0 r9 8,
  lit r0 descInline,
  str r0 r9 12,
  str r7 r9 16,
  mov r0 0,
  str r0 r9 20,
  mov r0 16,
  str r0 r9 24,
  mov r0 0,
  str r0 r9 28,
  str r0 r9 32,
  mov r0 16,
  str r0 r9 36,
  mov r0 1,
  str r0 r9 40,
  lit r0 250000,
  str r0 r9 44,
  lit r0 3500,
  str r0 r9 48,
  mov r0 0,
  str r0 r9 52,
  str r0 r9 56,
  str r0 r9 60,

  lit r0 0x11223344,
  str r0 r9 64,
  lit r0 0x55667788,
  str r0 r9 68,
  lit r0 0xAABBCCDD,
  str r0 r9 72,
  lit r0 0x0BADF00D,
  str r0 r9 76,

  lit r6 blockTx,
  mov r0 wWriteBlock,
  mov r1 0,
  mov r2 80,
  bl .wireWriteBlock,

  mov r0 eventCompletionDepth,
  bl .rdreg,
  cmp r0 (.imm 1),
  bLt .failed,

  lit r6 blockRx,
  mov r0 wReadBlock,
  mov r1 1,
  lit r2 0x00400000,
  bl .wireReadBlock,

  lit r9 blockRx,
  ldr r0 r9 0,
  lit r1 compMagic,
  cmp r0 (.reg r1),
  bNe .failed,
  ldrh r0 r9 6,
  cmp r0 (.imm 0),
  bNe .failed,
  ldr r0 r9 12,
  str r0 r11 20,
  ldr r0 r9 16,
  str r0 r11 24,
  ldr r0 r9 20,
  str r0 r11 28,
  ldr r0 r9 24,
  str r0 r11 32,
  ldr r0 r9 36,
  str r0 r11 36,
  ldr r0 r9 40,
  str r0 r11 40,
  mov r0 3,
  str r0 r11 44,

  mov r0 rArg0,
  movr r1 r7,
  bl .wrreg,
  mov r0 cmdFree,
  bl .execHi,

  mov r0 cmdComplete,
  bl .execHi,
  lit r0 passMagic,
  str r0 r11 0,

  label .finished,
  b .finished,

  label .wrreg,
  push [lr],
  movr r2 r1,
  movr r1 r0,
  mov r0 wWriteReg,
  bl .wire,
  popPc [],

  label .rdreg,
  push [lr],
  movr r1 r0,
  mov r0 wReadReg,
  mov r2 0,
  bl .wireRead4,
  popPc [],

  label .execHi,
  push [r4, lr],
  movr r4 r0,
  add r8 r8 1,
  mov r0 wExec,
  movr r1 r4,
  movr r2 r8,
  bl .wire,
  mov r0 rResult,
  bl .rdreg,
  cmp r0 (.imm 0),
  bNe .failed,
  popPc [r4],

  label .stageCmd,
  andImm r0 r0 0xFF,
  andImm r1 r1 0xFF,
  orr r4 r0 (.imm (Guest.gkG <<< 8)),
  orr r4 r4 (.imm (Guest.gkK <<< 16)),
  orr r4 r4 (.lsl r1 24),
  str r4 r10 Guest.regCmd0,
  rev r5 r2,
  str r5 r10 Guest.regCmd1,
  lit r4 (Guest.cardStart ||| Guest.cardReset),
  orr r4 r4 (.reg r3),
  str r4 r10 Guest.regRomcnt,
  bx lr,

  label .waitIdle,
  ldr r5 r10 Guest.regRomcnt,
  tst r5 Guest.cardStart,
  bNe .waitIdle,
  bx lr,

  label .waitReady,
  ldr r5 r10 Guest.regRomcnt,
  tst r5 cardReady,
  bEq .waitReady,
  bx lr,

  label .wire,
  push [r4, r5, lr],
  mov r3 cardBlkNone,
  bl .stageCmd,
  bl .waitIdle,
  popPc [r4, r5],

  label .wireRead4,
  push [r4, r5, r6, lr],
  lit r3 cardBlk4,
  bl .stageCmd,
  bl .waitReady,
  ldr r6 r10 regFifo,
  bl .waitIdle,
  movr r0 r6,
  popPc [r4, r5, r6],

  label .wireWriteBlock,
  push [r4, r5, r6, r7, lr],
  lit r3 cardBlk512,
  bl .stageCmd,
  mov r7 blockWords,
  label .wireWriteBlock1,
  bl .waitReady,
  ldrPost r4 r6 4,
  str r4 r10 regFifo,
  subs r7 r7 1,
  bNe .wireWriteBlock1,
  bl .waitIdle,
  popPc [r4, r5, r6, r7],

  label .wireReadBlock,
  push [r4, r5, r6, r7, lr],
  lit r3 cardBlk512,
  bl .stageCmd,
  mov r7 blockWords,
  label .wireReadBlock1,
  bl .waitReady,
  ldr r4 r10 regFifo,
  strPost r4 r6 4,
  subs r7 r7 1,
  bNe .wireReadBlock1,
  bl .waitIdle,
  popPc [r4, r5, r6, r7],

  label .failed,
  lit r0 failMagic,
  str r0 r11 0,
  label .failSpin,
  b .failSpin]

/-- The program as linked. -/
def program : Program Label where
  lines := listing
  base  := 0x00100000

/-! ## The board -/

/-- Memory, and the register page. -/
structure Board where
  ram    : Mem
  window : RegisterWindow

/-- `VirtualBase` .. `VirtualBase + kRegisterPageSize`. -/
def onPage (a : UInt32) : Bool := 0x1EC64000 ≤ a.toNat ∧ a.toNat < 0x1EC64000 + kRegisterPageSize

/-- The guest's bus: the page is served by the overlay's `Read32` and `Write32`. -/
def bus : Bus Board where
  load b a :=
    if onPage a then
      let (window, value) := b.window.read32 (a - ntr)
      ({ b with window := window }, value)
    else (b, b.ram.word a)
  loadHalf b a := (b, UInt32.ofNat (leNat (b.ram.read a.toNat 2)))
  store b a v :=
    if onPage a then { b with window := b.window.write32 (a - ntr) v } else { b with ram := b.ram.setWord a v }

/-! ## The frontend's verdict -/

/-- The configuration of the overlay's `Reset`. -/
def overlayConfig : Config :=
  { hasPool := true, poolBytes := 32 * 1024 * 1024, reportedLocalBytes := 32 * 1024 * 1024 }

def gkExpectedProtocol : UInt32 := 0x00010000
def gkExpectedCaps : UInt32 := 0x0000001F
def gkExpectedLocalRam : UInt32 := 32 * 1024 * 1024
def gkExpectedOffloadUs : UInt32 := 2738
def gkExpectedSpeedupX1000 : UInt32 := 1278
def gkExpectedChecksum : UInt32 := 0xF269B734
def gkExpectedTransportUsX1000 : UInt32 := 238396
def gkExpectedBatchSize : UInt32 := 1
def gkExpectedSteadyTransfers : UInt32 := 3

/-- `validate_summary`, on the words of the summary. -/
def validateSummary (s : Nat → UInt32) : Bool :=
  !(s 0 ≠ passMagic ∨ s 1 ≠ gkExpectedProtocol ∨ s 2 ≠ gkExpectedCaps ∨ s 3 ≠ gkExpectedLocalRam ∨ s 4 = 0 ∨
    s 5 = 0 ∨ s 6 ≠ gkExpectedOffloadUs ∨ s 7 ≠ gkExpectedSpeedupX1000 ∨ s 8 ≠ gkExpectedChecksum ∨
    s 9 ≠ gkExpectedTransportUsX1000 ∨ s 10 ≠ gkExpectedBatchSize ∨ s 11 ≠ gkExpectedSteadyTransfers)

/-- The summary in memory. -/
def summaryOf (m : Mem) (i : Nat) : UInt32 := m.word (summary + 4 * UInt32.ofNat i)

end Ntr

end GekkoPak
