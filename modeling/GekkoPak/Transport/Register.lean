import GekkoPak.Device.Machine

/-!
# `Transport.Register` — the register-page NTR transport

`include/gekkopak/ntr_register_transport.h`: a 4 KiB NTRCARD register page in which the guest stages an
eight-byte command, raises the ROMCNT activate bit, and moves the data phase through the 32-bit FIFO a word
at a time. The transport is driven by single register accesses; a `RegisterWindow` is everything such an
access can touch — the page, the transport object and the device behind it.

The last field of the transport, `touched`, is history: the offset and length of every access to `buffer_`,
in order. No function reads it.
-/

namespace GekkoPak

open Basis

/-! ## The register page -/

abbrev kRegisterPageSize : Nat := 0x1000

abbrev kRegRomCnt : Nat := 0x04
abbrev kRegCommand : Nat := 0x08
abbrev kRegFifo : Nat := 0x1C

def kCardActivate : UInt32 := (1 : UInt32) <<< 31
def kCardResetHigh : UInt32 := (1 : UInt32) <<< 29
def kCardDataReady : UInt32 := (1 : UInt32) <<< 23

/-- ROMCNT data-block size, bits 26:24. -/
def kCardBlockMask : UInt32 := (7 : UInt32) <<< 24
def kCardBlockNone : UInt32 := (0 : UInt32) <<< 24
def kCardBlock512 : UInt32 := (1 : UInt32) <<< 24
def kCardBlock4 : UInt32 := (7 : UInt32) <<< 24

/-- `Load32`. -/
def load32 (regs : Mem) (offset : Nat) : UInt32 := ofLe32 (regs.read offset 4)

/-- `Store32`. -/
def store32 (regs : Mem) (offset : Nat) (value : UInt32) : Mem := regs.write offset (le32 value)

theorem read_store32_same (regs : Mem) (offset : Nat) (value : UInt32) :
    (store32 regs offset value).read offset 4 = le32 value := by
  have h : (store32 regs offset value).read offset (le32 value).length = le32 value :=
    Mem.read_write_same regs offset (le32 value)
  rw [le32_length] at h
  exact h

@[simp] theorem load32_store32_same (regs : Mem) (offset : Nat) (value : UInt32) :
    load32 (store32 regs offset value) offset = value := by
  rw [load32, read_store32_same, ofLe32_le32]

/-- A store leaves every window it misses alone. -/
theorem read_store32_of_disjoint {regs : Mem} {offset start len : Nat} {value : UInt32}
    (h : offset + 4 ≤ start ∨ start + len ≤ offset) :
    (store32 regs offset value).read start len = regs.read start len :=
  Mem.read_write_disjoint (by rw [le32_length]; exact h)

/-! ## Data phases -/

/-- `PhaseDirection`. -/
inductive PhaseDirection
  | none
  | cartToConsole
  | consoleToCart
deriving DecidableEq, Repr

/-- `ExpectedPhase`. -/
structure ExpectedPhase where
  direction  : PhaseDirection := .none
  bytes      : Nat := 0
  blockField : UInt32 := kCardBlockNone
deriving DecidableEq, Repr

/-- `PhaseForOpcode`. -/
def phaseForOpcode (opcode : UInt8) : ExpectedPhase :=
  match WireOpcode.ofCode opcode with
  | some .readReg    => ⟨.cartToConsole, 4, kCardBlock4⟩
  | some .readBlock  => ⟨.cartToConsole, kBlockBytes, kCardBlock512⟩
  | some .writeBlock => ⟨.consoleToCart, kBlockBytes, kCardBlock512⟩
  | _                => ⟨.none, 0, kCardBlockNone⟩

/-! ## The transport object -/

/-- `RegisterTransport::Fault`. -/
inductive Fault
  | none
  | blockSizeMismatch
  | fifoOutOfPhase
deriving DecidableEq, Repr

/-- `RegisterTransport`. -/
structure RegisterTransport where
  direction   : PhaseDirection := .none
  wordIndex   : Nat := 0
  wordCount   : Nat := 0
  index       : UInt8 := 0
  commandWord : UInt32 := 0
  buffer      : Mem := Mem.zero
  fault       : Fault := .none
  faultCount  : UInt32 := 0
  commands    : UInt64 := 0
  touched     : List (Nat × Nat) := []

namespace RegisterTransport

/-- `transfer_active`. -/
def transferActive (t : RegisterTransport) : Bool := t.direction != .none

/-- `fault_ = f; ++fault_count_`. -/
@[simps] def raise (t : RegisterTransport) (f : Fault) : RegisterTransport :=
  { t with fault := f, faultCount := t.faultCount + 1 }

/-- `memcpy(buffer_ + offset, bs, |bs|)`. -/
@[simps] def bufferCopy (t : RegisterTransport) (offset : Nat) (bs : List UInt8) : RegisterTransport :=
  { t with buffer := t.buffer.write offset bs, touched := t.touched ++ [(offset, bs.length)] }

/-- `memcpy(.., buffer_ + offset, len)`. -/
@[simps] def bufferRead (t : RegisterTransport) (offset len : Nat) : RegisterTransport × List UInt8 :=
  ({ t with touched := t.touched ++ [(offset, len)] }, t.buffer.read offset len)

end RegisterTransport

/-- The page, the transport and the device: what one register access can touch. -/
structure RegisterWindow where
  device    : Device
  regs      : Mem
  transport : RegisterTransport

/-- `memcpy(bytes, .., sizeof(bytes))` of a staged command. -/
def commandOf (bs : List UInt8) : CommandBytes := Vector.ofFn (fun i => bs.getD i.val 0)

namespace RegisterWindow

/-- `RegisterTransport::Reset(regs)`. -/
def resetTransport (w : RegisterWindow) : RegisterWindow :=
  { w with regs := store32 Mem.zero kRegRomCnt kCardResetHigh, transport := {} }

/-- `EndTransfer`. -/
def endTransfer (w : RegisterWindow) : RegisterWindow :=
  { w with
    transport := { w.transport with direction := .none }
    regs := store32 w.regs kRegRomCnt (load32 w.regs kRegRomCnt &&& ~~~(kCardActivate ||| kCardDataReady)) }

/-- The command the guest has staged. -/
def staged (w : RegisterWindow) : WireCommand := decodeCommand (commandOf (w.regs.read kRegCommand 8))

/-- The `switch` over commands without a data phase. -/
def runImmediate (device : Device) (cmd : WireCommand) : Device :=
  match WireOpcode.ofCode cmd.opcode with
  | some .writeReg         => device.writeReg cmd.index cmd.word
  | some .exec             => device.exec cmd.index cmd.word
  | some .writePayloadWord => device.writePayloadWord cmd.index cmd.word
  | _                      => device

/-- The response of a cartridge-to-console phase, computed into `buffer_` before the first word is offered. -/
def fetchResponse (w : RegisterWindow) (cmd : WireCommand) (bytes : Nat) : RegisterWindow :=
  let transport := w.transport.bufferCopy 0 (List.replicate kBlockBytes 0)
  if WireOpcode.ofCode cmd.opcode = some .readReg then
    { w with transport := transport.bufferCopy 0 (le32 (w.device.readReg cmd.index)) }
  else
    let (device, _, out) := w.device.readBlock cmd.index cmd.word (some bytes)
    { w with device := device, transport := transport.bufferCopy 0 out }

/-- The tail of `StartCommand`: open a data phase. CARD_START stays set until the last word crosses. -/
def openPhase (w : RegisterWindow) (cmd : WireCommand) (phase : ExpectedPhase) : RegisterWindow :=
  let w := { w with transport := { w.transport with
    wordIndex := 0, wordCount := phase.bytes / 4, direction := phase.direction } }
  let w := if phase.direction = .cartToConsole then w.fetchResponse cmd phase.bytes else w
  { w with regs := store32 w.regs kRegRomCnt (load32 w.regs kRegRomCnt ||| kCardDataReady) }

/-- `StartCommand`. -/
def startCommand (w : RegisterWindow) : RegisterWindow :=
  let romcnt := load32 w.regs kRegRomCnt
  let cmd := w.staged
  let w := { w with
    device := w.device.countTransfer
    transport := { w.transport with commands := w.transport.commands + 1 } }
  if !cmd.valid then w.endTransfer
  else
    let phase := phaseForOpcode cmd.opcode
    if romcnt &&& kCardBlockMask ≠ phase.blockField then
      { w with transport := w.transport.raise .blockSizeMismatch }.endTransfer
    else
      let w := { w with transport := { w.transport with index := cmd.index, commandWord := cmd.word } }
      if phase.direction = .none then { w with device := runImmediate w.device cmd }.endTransfer
      else w.openPhase cmd phase

/-- `ReadFifo`. -/
def readFifo (w : RegisterWindow) : RegisterWindow × UInt32 :=
  if w.transport.direction ≠ .cartToConsole then
    ({ w with transport := w.transport.raise .fifoOutOfPhase }, 0)
  else
    let (transport, word) := w.transport.bufferRead (w.transport.wordIndex * 4) 4
    let w := { w with transport := { transport with wordIndex := transport.wordIndex + 1 } }
    (if w.transport.wordIndex ≥ w.transport.wordCount then w.endTransfer else w, ofLe32 word)

/-- `WriteFifo`. -/
def writeFifo (w : RegisterWindow) (value : UInt32) : RegisterWindow :=
  if w.transport.direction ≠ .consoleToCart then
    { w with transport := w.transport.raise .fifoOutOfPhase }
  else
    let transport := w.transport.bufferCopy (w.transport.wordIndex * 4) (le32 value)
    let w := { w with transport := { transport with wordIndex := transport.wordIndex + 1 } }
    if w.transport.wordIndex ≥ w.transport.wordCount then
      -- The whole block has arrived; hand it to the device, then close.
      let (transport, block) := w.transport.bufferRead 0 (w.transport.wordCount * 4)
      let (device, _) := w.device.writeBlock transport.index transport.commandWord (some block)
      { w with device := device, transport := transport }.endTransfer
    else w

/-- `Read32`. The bound is computed in 32 bits, as in the source. -/
def read32 (w : RegisterWindow) (offset : UInt32) : RegisterWindow × UInt32 :=
  if (offset + 4).toNat > kRegisterPageSize then (w, 0)
  else if offset.toNat = kRegFifo then w.readFifo
  else (w, load32 w.regs offset.toNat)

/-- `Write32`. -/
def write32 (w : RegisterWindow) (offset value : UInt32) : RegisterWindow :=
  if (offset + 4).toNat > kRegisterPageSize then w
  else if offset.toNat = kRegFifo then w.writeFifo value
  else
    let w := { w with regs := store32 w.regs offset.toNat value }
    if offset.toNat = kRegRomCnt ∧ value &&& kCardActivate ≠ 0 ∧ w.transport.direction = .none then
      w.startCommand
    else w

end RegisterWindow

/-! ## The window as a machine over guest accesses -/

/-- One 32-bit guest access. -/
inductive Access
  | read (offset : UInt32)
  | write (offset value : UInt32)
deriving DecidableEq, Repr

namespace Access

/-- The offset accessed. -/
def offset : Access → UInt32
  | read offset    => offset
  | write offset _ => offset

/-- An aligned access whose four bytes lie inside the window. -/
def Aligned (a : Access) : Prop := a.offset.toNat % 4 = 0 ∧ a.offset.toNat + 4 ≤ kRegisterPageSize

instance (a : Access) : Decidable a.Aligned := inferInstanceAs (Decidable (_ ∧ _))

/-- An access inside the window passes the bound check of `Read32` and `Write32`. -/
theorem Aligned.inWindow {a : Access} (h : a.Aligned) : ¬ (a.offset + 4).toNat > kRegisterPageSize := by
  have hend : a.offset.toNat + 4 ≤ 4096 := h.2
  have hsum : (a.offset + 4).toNat = a.offset.toNat + 4 := by
    have h4 : (4 : UInt32).toNat = 4 := rfl
    rw [UInt32.toNat_add, h4]
    omega
  rw [hsum]
  exact Nat.not_lt.mpr hend

end Access

namespace RegisterWindow

/-- One access; a read answers with the word read. -/
def step (w : RegisterWindow) : Access → RegisterWindow × Option UInt32
  | .read offset =>
    let (w, value) := w.read32 offset
    (w, some value)
  | .write offset value => (w.write32 offset value, none)

/-- Both objects freshly reset over one page. -/
def reset (config : Config) : RegisterWindow := resetTransport ⟨Device.reset config, Mem.zero, {}⟩

/-- The window under configuration `config`. -/
def machine (config : Config) : Machine Access (Option UInt32) RegisterWindow where
  init := reset config
  step := step

end RegisterWindow

end GekkoPak
