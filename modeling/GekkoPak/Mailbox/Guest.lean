import GekkoPak.Basis.Arm

/-!
# `Mailbox.Guest` — the guest of the first Azahar prototype

`prototype/azahar/gekkopak_guest.S`, line for line, at the address `run_e2e.sh` links it to. `ldr r, =v` is `lit`; the
literal pool is not in the listing.
-/

namespace GekkoPak

namespace Mailbox

namespace Guest

open Basis Arm

/-! The `.equ`s. -/

def mb : UInt32 := 0x0FFFC000
def magic : UInt32 := 0x4B504B47
def version : UInt32 := 0x00010000
def stateReq : UInt32 := 1
def stateResp : UInt32 := 2
def passMagic : UInt32 := 0x53534150
def failMagic : UInt32 := 0x4C494146

def cmdHello : UInt32 := 1
def cmdGetCaps : UInt32 := 2
def cmdAlloc : UInt32 := 3
def cmdUpload : UInt32 := 4
def cmdSubmit : UInt32 := 5
def cmdPoll : UInt32 := 6
def cmdCollect : UInt32 := 7
def cmdFree : UInt32 := 8
def cmdComplete : UInt32 := 9

def oMagic : UInt32 := 0x00
def oVersion : UInt32 := 0x04
def oSeq : UInt32 := 0x08
def oCmd : UInt32 := 0x0C
def oState : UInt32 := 0x10
def oResult : UInt32 := 0x14
def oArg0 : UInt32 := 0x18
def oArg1 : UInt32 := 0x1C
def oArg2 : UInt32 := 0x20
def oArg3 : UInt32 := 0x24
def oOut0 : UInt32 := 0x28
def oOut1 : UInt32 := 0x2C
def oOut2 : UInt32 := 0x30
def oPlen : UInt32 := 0x38
def oPayload : UInt32 := 0x40
def oSummary : UInt32 := 0x100

/-- The labels. -/
inductive Label
  | start
  | pollAgain
  | finished
  | issue
  | issueKeepPlen
  | waitResponse
  | failed
  | failSpin
deriving DecidableEq, Repr

/-- The listing. -/
def listing : List (Line Label) := [
  label .start,
  lit r10 mb,
  lit r0 magic,
  str r0 r10 oMagic,
  lit r0 version,
  str r0 r10 oVersion,
  mov r8 0,

  mov r0 cmdHello, mov r1 0, mov r2 0, mov r3 0, mov r4 0,
  bl .issue,
  ldr r0 r10 oOut0,
  str r0 r10 (oSummary + 4),

  mov r0 cmdGetCaps, mov r1 0, mov r2 0, mov r3 0, mov r4 0,
  bl .issue,
  ldr r0 r10 oOut0,
  str r0 r10 (oSummary + 8),
  ldr r0 r10 oOut1,
  str r0 r10 (oSummary + 12),

  mov r0 cmdAlloc, mov r1 4096, mov r2 0, mov r3 0, mov r4 0,
  bl .issue,
  ldr r7 r10 oOut0,
  str r7 r10 (oSummary + 16),

  lit r0 0x11223344,
  str r0 r10 (oPayload + 0),
  lit r0 0x55667788,
  str r0 r10 (oPayload + 4),
  lit r0 0xAABBCCDD,
  str r0 r10 (oPayload + 8),
  lit r0 0x0BADF00D,
  str r0 r10 (oPayload + 12),

  mov r0 16,
  str r0 r10 oPlen,
  mov r0 cmdUpload, movr r1 r7, mov r2 0, mov r3 0, mov r4 0,
  bl .issueKeepPlen,
  mov r0 0,
  str r0 r10 oPlen,

  mov r0 cmdSubmit, movr r1 r7, mov r2 1, lit r3 250000, lit r4 3500,
  bl .issue,
  ldr r6 r10 oOut0,
  str r6 r10 (oSummary + 20),

  label .pollAgain,
  mov r0 cmdPoll, movr r1 r6, mov r2 0, mov r3 0, mov r4 0,
  bl .issue,
  ldr r0 r10 oOut0,
  cmp r0 (.imm 0),
  bEq .pollAgain,

  mov r0 cmdCollect, movr r1 r6, mov r2 0, mov r3 0, mov r4 0,
  bl .issue,
  ldr r0 r10 oOut0,
  str r0 r10 (oSummary + 24),
  ldr r0 r10 oOut1,
  str r0 r10 (oSummary + 28),
  ldr r0 r10 oOut2,
  str r0 r10 (oSummary + 32),

  mov r0 cmdFree, movr r1 r7, mov r2 0, mov r3 0, mov r4 0,
  bl .issue,

  lit r0 passMagic,
  str r0 r10 oSummary,

  mov r0 cmdComplete, mov r1 0, mov r2 0, mov r3 0, mov r4 0,
  bl .issue,

  label .finished,
  b .finished,

  label .issue,
  mov r5 0,
  str r5 r10 oPlen,
  label .issueKeepPlen,
  str r0 r10 oCmd,
  str r1 r10 oArg0,
  str r2 r10 oArg1,
  str r3 r10 oArg2,
  str r4 r10 oArg3,
  mov r5 0,
  str r5 r10 oResult,
  add r8 r8 1,
  str r8 r10 oSeq,
  mov r5 stateReq,
  str r5 r10 oState,
  label .waitResponse,
  ldr r5 r10 oState,
  cmp r5 (.imm stateResp),
  bNe .waitResponse,
  ldr r5 r10 oResult,
  cmp r5 (.imm 0),
  bNe .failed,
  bx lr,

  label .failed,
  lit r0 failMagic,
  str r0 r10 oSummary,
  label .failSpin,
  b .failSpin]

/-- The program as linked. -/
def program : Program Label where
  lines := listing
  base  := 0x00100000

end Guest

end Mailbox

end GekkoPak
