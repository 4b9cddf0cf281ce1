import GekkoPak.Protocol.Records
import GekkoPak.Basis.Mem

/-!
# `Usb.Driver` — the USB device controller driver of the DS test program

`prototype/dspico-v1/ds-test/usb/dcd_dspico.c`: USB driven by card commands. E8 begins a transfer, E9 fills an endpoint
buffer of the cartridge, EA reads one back, and the end of a transfer comes back as an event. The cartridge has two
512-byte buffers for each endpoint, and the driver keeps one of them moving while it handles the other.

The firmware is not in the repository. What the driver sees of it is a `Firmware`, a function of everything that has
crossed the bus before.
-/

namespace GekkoPak

open Basis

namespace Usb

/-! ## Commands -/

/-- The card commands that set a controller up and carry a transfer. -/
inductive Command
  | init
  | beginXfer (ep off : UInt8) (len : UInt32)
  | writeData (off ep last : UInt8) (total : UInt32)
  | readData (off ep : UInt8)
deriving DecidableEq, Repr

/-- `USB_CMD`. -/
def usbCmdCode (c args : UInt64) : UInt64 := (0xE800000000000000 : UInt64) ||| (c <<< 48) ||| args

/-- The eight bytes of a command, as the macros put them together. -/
def Command.code : Command → UInt64
  | .init => usbCmdCode 1 0
  | .beginXfer ep off len => usbCmdCode 16 ((ep.toUInt64 <<< 40) ||| (off.toUInt64 <<< 32) ||| len.toUInt64)
  | .writeData off ep last total =>
      (0xE900000000000000 : UInt64) ||| (off.toUInt64 <<< 48) ||| (ep.toUInt64 <<< 40) ||| (last.toUInt64 <<< 32) |||
        total.toUInt64
  | .readData off ep => (0xEA00000000000000 : UInt64) ||| (off.toUInt64 <<< 32) ||| (ep.toUInt64 <<< 40)

/-! ## The bus -/

/-- What crosses between the driver and the rest of the world: commands with the words of their data phase, transfer
    events taken off the queue, and the calls of `dcd_event_xfer_complete`. -/
inductive Action
  | cmd (c : Command)
  | write (c : Command) (words : List UInt32)
  | read (c : Command)
  | event (ep : UInt8) (transferred : UInt32)
  | xferComplete (ep : UInt8) (bytes : UInt32)
deriving DecidableEq, Repr

/-- The console's memory, and what has crossed the bus so far. -/
structure Bus where
  mem     : Mem
  history : List Action

def kBlockPhaseWords : Nat := 128
def kBusGuard : Nat := 400000

/-- One data phase of 512 bytes, seen through `REG_MCCNT1`: DATA_READY at each poll until ENABLE falls. The cartridge
    takes or gives its 128 words, and is done before the guard of the polling loops runs out. -/
structure Pacing where
  polls   : List Bool
  words   : polls.count true = kBlockPhaseWords
  bounded : polls.length ≤ kBusGuard

/-- The other end of the bus: how it paces a data phase, and the words it answers a read with. -/
structure Firmware where
  pacing   : List Action → Pacing
  response : List Action → Command → List UInt32

/-- `dcd_event_xfer_complete(0, ep, bytes, XFER_RESULT_SUCCESS, false)`. -/
def Bus.xferComplete (b : Bus) (ep : UInt8) (bytes : UInt32) : Bus :=
  { b with history := b.history ++ [.xferComplete ep bytes] }

/-- `usb_cmd`. -/
def Bus.usbCmd (b : Bus) (c : Command) : Bus := { b with history := b.history ++ [.cmd c] }

/-- The loop over the last bytes, fewer than four: `word |= src[sent] << (i * 8)`. -/
def tailWord (m : Mem) : Nat → Nat → UInt32 → UInt32 → UInt32
  | _,   0,        _, word => word
  | src, left + 1, i, word => tailWord m (src + 1) left (i + 1) (word ||| ((m src).toUInt32 <<< (i * 8)))

/-- The word `usb_write_block` gives for DATA_READY, and how much has been sent then. -/
def nextWord (m : Mem) (src len sent : Nat) : UInt32 × Nat :=
  if sent + 4 ≤ len then
    ((m (src + sent)).toUInt32 ||| ((m (src + sent + 1)).toUInt32 <<< 8) |||
      ((m (src + sent + 2)).toUInt32 <<< 16) ||| ((m (src + sent + 3)).toUInt32 <<< 24), sent + 4)
  else if sent < len then (tailWord m (src + sent) (len - sent) 0 0, len)
  else (0, sent)

/-- The polling loop of `usb_write_block`: the words written to `REG_MCD1`. -/
def writeLoop (m : Mem) (src len : Nat) : List Bool → Nat → Nat → List UInt32
  | [],             _,     _    => []
  | ready :: polls, guard, sent =>
    let (words, sent) := if ready then ([(nextWord m src len sent).1], (nextWord m src len sent).2) else ([], sent)
    words ++ (if guard + 1 < kBusGuard then writeLoop m src len polls (guard + 1) sent else [])

/-- `for (i = 0; i < 4 && got < len; i++, got++) dst[got] = (uint8_t)(w >> (i * 8))`, for the `i` left. -/
def storeWord (dst len : Nat) (w : UInt32) : Nat → UInt32 → Mem → Nat → Mem × Nat
  | 0,        _, m, got => (m, got)
  | left + 1, i, m, got =>
    if got < len then storeWord dst len w left (i + 1) (m.write (dst + got) [(w >>> (i * 8)).toUInt8]) (got + 1)
    else (m, got)

/-- The polling loop of `usb_read_block`, over the words `REG_MCD1` shows. -/
def readLoop (dst len : Nat) : List Bool → Nat → List UInt32 → Mem → Nat → Mem
  | [],             _,     _,     m, _   => m
  | ready :: polls, guard, words, m, got =>
    let (m, got) := if ready then storeWord dst len (words.headD 0) 4 0 m got else (m, got)
    let words := if ready then words.tail else words
    if guard + 1 < kBusGuard then readLoop dst len polls (guard + 1) words m got else m

/-! ## Endpoints -/

/-- `usb_ep_t`; the pointers are addresses. -/
structure UsbEp where
  tx        : Nat
  rx        : Nat
  length    : UInt32
  offset    : UInt32
  remaining : UInt32
  received  : UInt32
  addr      : UInt8
  buf       : UInt8   -- which of DSpico's two 512-byte buffers
  active    : Bool
deriving DecidableEq, Repr

/-- `if (len > 512) len = 512`. -/
def capBlock (len : UInt32) : UInt32 := if len > 512 then 512 else len

/-- The same on a signed `len`. -/
def capSigned (len : Int32) : Int32 := if len > 512 then 512 else len

namespace Firmware

variable (fw : Firmware)

/-- `usb_write_block`. -/
def usbWriteBlock (b : Bus) (c : Command) (src : Nat) (len : UInt32) : Bus :=
  { b with history := b.history ++ [.write c (writeLoop b.mem src len.toNat (fw.pacing b.history).polls 0 0)] }

/-- `usb_read_block`. -/
def usbReadBlock (b : Bus) (c : Command) (dst : Nat) (len : UInt32) : Bus where
  mem := readLoop dst len.toNat (fw.pacing b.history).polls 0 (fw.response b.history c) b.mem 0
  history := b.history ++ [.read c]

/-- `in_send_block`. -/
def inSendBlock (b : Bus) (ep : UsbEp) (start : Bool) : Bus × UsbEp :=
  let len := capBlock (ep.length - ep.offset)
  if len > 0 then
    (fw.usbWriteBlock b (.writeData ep.buf ep.addr (if start then 1 else 0) len) (ep.tx + ep.offset.toNat) len,
     { ep with offset := ep.offset + len, buf := 1 - ep.buf })
  else if start then
    -- zero-length packet: no data phase
    (b.usbCmd (.writeData ep.buf ep.addr 1 0), ep)
  else (b, ep)

/-- `in_complete`. -/
def inComplete (b : Bus) (ep : UsbEp) (transferred : UInt32) : Bus × UsbEp :=
  if ep.active = false then (b.xferComplete ep.addr transferred, ep)
  else
    let ep := { ep with remaining := ep.remaining - transferred }
    if ep.remaining = 0 then (b.xferComplete ep.addr ep.length, { ep with active := false })
    else fw.inSendBlock (b.usbCmd (.beginXfer ep.addr (1 - ep.buf) (capBlock ep.remaining))) ep false

/-- `out_receive_block`. -/
def outReceiveBlock (b : Bus) (ep : UsbEp) : Bus × UsbEp :=
  let len := ep.received - ep.offset
  if len = 0 then (b, ep)
  else
    let len := capBlock len
    (fw.usbReadBlock b (.readData ep.buf ep.addr) (ep.rx + ep.offset.toNat) len,
     { ep with offset := ep.offset + len, buf := 1 - ep.buf })

/-- `out_complete`; `len` is signed. -/
def outComplete (b : Bus) (ep : UsbEp) (transferred : UInt32) : Bus × UsbEp :=
  if ep.active = false then (b.xferComplete ep.addr transferred, ep)
  else
    let ep := { ep with received := ep.received + transferred }
    let len := capSigned (ep.length.toInt32 - ep.offset.toInt32 - 512)
    let b := if transferred = 512 ∧ len > 0 then b.usbCmd (.beginXfer ep.addr (1 - ep.buf) len.toUInt32) else b
    let r := fw.outReceiveBlock b ep
    if transferred < 512 ∨ len = 0 then (r.1.xferComplete r.2.addr r.2.offset, { r.2 with active := false }) else r

/-! No operation on an endpoint changes its address. -/

theorem inSendBlock_addr (b : Bus) (ep : UsbEp) (start : Bool) : (fw.inSendBlock b ep start).2.addr = ep.addr := by
  unfold inSendBlock
  extract_lets len
  split
  · rfl
  · split <;> rfl

theorem inComplete_addr (b : Bus) (ep : UsbEp) (transferred : UInt32) :
    (fw.inComplete b ep transferred).2.addr = ep.addr := by
  unfold inComplete
  split
  · rfl
  · extract_lets ep'
    split
    · rfl
    · exact fw.inSendBlock_addr _ _ _

theorem outReceiveBlock_addr (b : Bus) (ep : UsbEp) : (fw.outReceiveBlock b ep).2.addr = ep.addr := by
  unfold outReceiveBlock
  extract_lets len
  split <;> rfl

theorem outComplete_addr (b : Bus) (ep : UsbEp) (transferred : UInt32) :
    (fw.outComplete b ep transferred).2.addr = ep.addr := by
  unfold outComplete
  split
  · rfl
  · extract_lets ep' len b' r
    have hr : r.2.addr = ep.addr := fw.outReceiveBlock_addr b' ep'
    split <;> exact hr

end Firmware

/-! ## The controller -/

/-- `TUSB_DIR_IN_MASK | i`. -/
def inAddr (i : Fin 16) : UInt8 := 0x80 ||| UInt8.ofNat i

def outAddr (i : Fin 16) : UInt8 := UInt8.ofNat i

/-- An endpoint that answers to `addr`. -/
structure EpAt (addr : UInt8) where
  ep        : UsbEp
  addressed : ep.addr = addr

/-- A table of endpoints, each in its place. -/
abbrev Endpoints (addr : Fin 16 → UInt8) : Type := (i : Fin 16) → EpAt (addr i)

/-- A function of the driver called with `&eps[i]`. -/
def Endpoints.call {addr : Fin 16 → UInt8} (eps : Endpoints addr) (i : Fin 16) (f : UsbEp → Bus × UsbEp)
    (hf : ∀ ep, (f ep).2.addr = ep.addr) : Bus × Endpoints addr :=
  let r := f (eps i).ep
  (r.1, Function.update eps i ⟨r.2, (hf _).trans (eps i).addressed⟩)

/-- `sIn` and `sOut`, with the addresses `dcd_init` gives them. -/
structure Dcd where
  sIn  : Endpoints inAddr
  sOut : Endpoints outAddr

/-- `dcd_init`, over whatever the tables held. -/
def dcdInit (b : Bus) (sIn sOut : Fin 16 → UsbEp) : Bus × Dcd :=
  (b.usbCmd .init,
   { sIn := fun i => ⟨{ sIn i with addr := inAddr i, active := false }, rfl⟩
     sOut := fun i => ⟨{ sOut i with addr := outAddr i, active := false }, rfl⟩ })

/-- `tu_edpt_dir(ep) == TUSB_DIR_IN`. -/
def tuEdptDirIn (ep : UInt8) : Bool := ep &&& 0x80 != 0

/-- `ep & 0x0F`. -/
def epIndex (ep : UInt8) : Fin 16 :=
  ⟨(ep &&& 0x0F).toNat, Nat.lt_of_le_of_lt (UInt8.toNat_and ep 0x0F ▸ Nat.and_le_right) (by decide)⟩

/-- `dcd_edpt_xfer` on an OUT endpoint. -/
def outXfer (b : Bus) (ep : UsbEp) (buffer : Nat) (totalBytes : UInt16) : Bus × UsbEp :=
  let ep := { ep with
    rx := buffer, length := totalBytes.toUInt32, offset := 0, received := 0, buf := 0, active := true }
  let first : UInt32 := if totalBytes > 512 then 512 else totalBytes.toUInt32
  (b.usbCmd (.beginXfer ep.addr ep.buf first), ep)

namespace Firmware

variable (fw : Firmware)

/-- `dcd_edpt_xfer` on an IN endpoint. -/
def inXfer (b : Bus) (ep : UsbEp) (buffer : Nat) (totalBytes : UInt16) : Bus × UsbEp :=
  let ep := { ep with
    tx := buffer, length := totalBytes.toUInt32, remaining := totalBytes.toUInt32, offset := 0, buf := 0
    active := true }
  let r := fw.inSendBlock b ep true
  fw.inSendBlock r.1 r.2 false

theorem inXfer_addr (b : Bus) (ep : UsbEp) (buffer : Nat) (totalBytes : UInt16) :
    (fw.inXfer b ep buffer totalBytes).2.addr = ep.addr := by
  simp only [inXfer]
  rw [fw.inSendBlock_addr, fw.inSendBlock_addr]

/-- `dcd_edpt_xfer`. -/
def dcdEdptXfer (s : Bus × Dcd) (epAddr : UInt8) (buffer : Nat) (totalBytes : UInt16) : Bus × Dcd :=
  if tuEdptDirIn epAddr then
    let r := s.2.sIn.call (epIndex epAddr) (fun ep => fw.inXfer s.1 ep buffer totalBytes)
      (fun ep => fw.inXfer_addr s.1 ep buffer totalBytes)
    (r.1, { s.2 with sIn := r.2 })
  else
    let r := s.2.sOut.call (epIndex epAddr) (fun ep => outXfer s.1 ep buffer totalBytes) (fun _ => rfl)
    (r.1, { s.2 with sOut := r.2 })

/-- What `gpk_usb_task` does with a transfer event taken off the queue. -/
def xferEvent (s : Bus × Dcd) (ep : UInt8) (transferred : UInt32) : Bus × Dcd :=
  let b := { s.1 with history := s.1.history ++ [.event ep transferred] }
  if tuEdptDirIn ep then
    let r := s.2.sIn.call (epIndex ep) (fun e => fw.inComplete b e transferred)
      (fun e => fw.inComplete_addr b e transferred)
    (r.1, { s.2 with sIn := r.2 })
  else
    let r := s.2.sOut.call (epIndex ep) (fun e => fw.outComplete b e transferred)
      (fun e => fw.outComplete_addr b e transferred)
    (r.1, { s.2 with sOut := r.2 })

end Firmware

end Usb

end GekkoPak
