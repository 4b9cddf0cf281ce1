import GekkoPak.Transport.Register

/-!
# `Transport.Clients` — who puts commands on the wire

The two clients in the repository that assemble a command header by hand: the DS test program
(`prototype/dspico-v1/ds-test/source/gekkopak_ntr.c`), in C, into the card controller's command registers, and the ARM
guest of the emulator prototype (`prototype/azahar-ntr/guest/gekkopak_guest_ntr.S`), in assembly, into the register
page. Neither uses `EncodeCommand`.
-/

namespace GekkoPak

open Basis

/-! ## The DS client -/

/-- `REG_MCCMD0`, the first of the two command registers. -/
def regMccmd0 : Nat := 0x040001A8

/-- `__builtin_bswap64`. -/
def bswap64 (x : UInt64) : UInt64 := UInt64.ofNat (byteSwap 8 x.toNat)

/-- A 64-bit word as it lies in memory. -/
def le64 (v : UInt64) : List UInt8 := leBytes 8 v.toNat

/-- `gpk_write_command`: a big-endian `u64`, byte-swapped into the register pair. -/
def gpkWriteCommand (io : Mem) (opcode index : UInt8) (word : UInt32) : Mem :=
  let cmd : UInt64 := (opcode.toUInt64 <<< 56) |||
    ((0x47 : UInt64) <<< 48) |||   -- 'G'
    ((0x4B : UInt64) <<< 40) |||   -- 'K'
    (index.toUInt64 <<< 32) |||
    word.toUInt64
  io.write regMccmd0 (le64 (bswap64 cmd))

/-! ## The ARM guest -/

namespace Guest

/-! The `.equ`s of the file. -/

def regRomcnt : UInt32 := 0x04
def regCmd0 : UInt32 := 0x08
def regCmd1 : UInt32 := 0x0C

def cardStart : UInt32 := 0x80000000
def cardReset : UInt32 := 0x20000000

def gkG : UInt32 := 0x47
def gkK : UInt32 := 0x4B

/-- The `rev` instruction. -/
def rev (x : UInt32) : UInt32 := UInt32.ofNat (byteSwap 4 x.toNat)

/-- `stage_cmd`, on the page `r10` points to. -/
def stageCmd (w : RegisterWindow) (r0 r1 r2 r3 : UInt32) : RegisterWindow :=
  let r0 := r0 &&& 0xFF
  let r1 := r1 &&& 0xFF
  let r4 := r0 ||| (gkG <<< 8)
  let r4 := r4 ||| (gkK <<< 16)
  let r4 := r4 ||| (r1 <<< 24)
  let w := w.write32 regCmd0 r4
  -- the value word goes out most significant byte first
  let r5 := rev r2
  let w := w.write32 regCmd1 r5
  let r4 := cardStart ||| cardReset
  let r4 := r4 ||| r3
  w.write32 regRomcnt r4

end Guest

end GekkoPak
