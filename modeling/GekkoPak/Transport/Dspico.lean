import GekkoPak.Device.Machine

/-!
# `Transport.Dspico` — the DSpico firmware handlers, on the host shim

`prototype/dspico-v1/overlay/src/gekkopakNtr.cpp` (the cmd0 / cmd1 handlers of F0-F5) over
`prototype/dspico-v1/hostshim` (the PIO transmit FIFO, the bus DMA and `IssueCommand`, which plays one whole
transaction). The globals of the two files are one record, `Dspico`. C++ pointers into the two staging
buffers, and to the one completion callback there is, are names.
-/

namespace GekkoPak

open Basis

/-! ## The firmware's globals -/

/-- `sBlockTx` and `sBlockRx`, as pointers. -/
inductive StagingBuffer
  | blockTx
  | blockRx
deriving DecidableEq, Repr

/-- The values of a `ntrc_read_data_complete_handler_t` other than `nullptr`. -/
inductive CompleteHandler
  | blockWriteComplete
deriving DecidableEq, Repr

/-- `ntr_rom_emu_t`. -/
structure RomEmu where
  wordIdx                 : Nat := 0
  cmd0                    : UInt32 := 0
  cmd1                    : UInt32 := 0
  readDataDestination     : Option StagingBuffer := none
  readDataLimit           : UInt32 := 0
  readDataCompleteHandler : Option CompleteHandler := none
deriving DecidableEq, Repr

abbrev kMaxFifoWrites : Nat := 8

/-- The overlay's and the shim's globals. `fifo` is the written part of `gFifo`. -/
structure Dspico where
  device     : Device
  blockTx    : List UInt8
  blockRx    : List UInt8
  f4Enter    : UInt32
  f4Accepted : UInt32
  f4Complete : UInt32
  f4Parsed   : UInt32
  romEmu     : RomEmu
  fifo       : List UInt32
  fifoCount  : Nat
  dmaData    : Option StagingBuffer
  dmaLength  : UInt32

def kCommandDiscriminator : UInt32 := 0x00474B00
def kCommandLowMask : UInt32 := 0xFFFFFF00

/-- `GEKKOPAK_LOCAL_BYTES`. -/
def kLocalBytes : UInt32 := 64 * 1024

/-- The configuration `gekkopak_ntr_reset` builds. -/
def localConfig : Config :=
  { hasPool := true, poolBytes := kLocalBytes, reportedLocalBytes := kLocalBytes }

namespace RomEmu

/-- `commandMatches`. -/
def commandMatches (r : RomEmu) (opcode : UInt8) : Bool :=
  r.cmd0 &&& kCommandLowMask == (opcode.toUInt32 <<< 24) ||| kCommandDiscriminator

/-- `commandIndex`. -/
def commandIndex (r : RomEmu) : UInt8 := (r.cmd0 &&& 0xFF).toUInt8

end RomEmu

namespace Dspico

/-! ## The bus primitives -/

/-- `BeginTransaction`. -/
def beginTransaction (d : Dspico) : Dspico :=
  { d with fifo := [], fifoCount := 0, dmaData := none, dmaLength := 0, romEmu := {} }

/-- `RecordFifoWrite`: one word pushed to the PIO transmit FIFO. -/
@[simps] def recordFifoWrite (d : Dspico) (value : UInt32) : Dspico :=
  { d with
    fifo := if d.fifoCount < kMaxFifoWrites then d.fifo ++ [value] else d.fifo
    fifoCount := d.fifoCount + 1 }

/-- `ntrc_noPayload`. -/
def noPayload (d : Dspico) : Dspico := d.recordFifoWrite 0

/-- `ntrc_beginWrite`: a payload of `bytes` bytes towards the console. -/
def beginWrite (d : Dspico) (bytes : UInt32) : Dspico := d.recordFifoWrite (bytes - 1)

/-- `ntrc_beginRead`: a payload of `bytes` bytes from the console. -/
def beginRead (d : Dspico) (bytes : UInt32) : Dspico := d.recordFifoWrite (0x80000000 ||| (bytes - 1))

/-- `ntrc_writeWord`. -/
def writeWord (d : Dspico) (word : UInt32) : Dspico := d.recordFifoWrite word

/-- `ntrc_dmaToBus`. -/
@[simps] def dmaToBus (d : Dspico) (data : StagingBuffer) (length : UInt32) : Dspico :=
  { d with dmaData := some data, dmaLength := length }

/-- `ntrc_finishGameNoScrambleCmd0`. -/
def finishCmd0 (d : Dspico) : Dspico := { d with romEmu := { d.romEmu with wordIdx := 1 } }

/-- `ntrc_finishGameNoScrambleCmd1`. -/
@[simps] def finishCmd1 (d : Dspico) : Dspico := { d with romEmu := { d.romEmu with wordIdx := 0 } }

/-- `ntrc_finishGameNoScrambleCmd1WithReadPayload`. -/
@[simps] def finishCmd1WithReadPayload (d : Dspico) (destination : StagingBuffer) (length : UInt32)
    (handler : CompleteHandler) : Dspico :=
  { d with romEmu := { d.romEmu with
    readDataDestination := some destination
    readDataLimit := (length >>> 2) + 1
    readDataCompleteHandler := some handler
    wordIdx := 2 } }

/-- The bytes behind a pointer. -/
def staging (d : Dspico) : StagingBuffer → List UInt8
  | .blockTx => d.blockTx
  | .blockRx => d.blockRx

/-- `memcpy(destination, bs, |bs|)`. -/
def stagingCopy (d : Dspico) (bs : List UInt8) : StagingBuffer → Dspico
  | .blockTx => { d with blockTx := splice d.blockTx 0 bs }
  | .blockRx => { d with blockRx := splice d.blockRx 0 bs }

/-! ## The handlers -/

/-- What the first command word's handler does, for all six opcodes. -/
def cmd0Handler (d : Dspico) (_word : UInt32) : Dspico := d.finishCmd0

/-- The second word's handler of a command without a data phase. -/
def cmd1NoPayload (opcode : WireOpcode) (run : Device → UInt8 → UInt32 → Device) (d : Dspico)
    (word : UInt32) : Dspico :=
  let d := d.noPayload
  let d := if d.romEmu.commandMatches opcode.code then
      { d with device := run d.device d.romEmu.commandIndex word }
    else d
  d.finishCmd1

/-- `ntrc_gekkopakWriteRegCmd1`. -/
def writeRegCmd1 : Dspico → UInt32 → Dspico := cmd1NoPayload .writeReg Device.writeReg

/-- `ntrc_gekkopakExecCmd1`. -/
def execCmd1 : Dspico → UInt32 → Dspico := cmd1NoPayload .exec Device.exec

/-- `ntrc_gekkopakPayloadWordCmd1`. -/
def payloadWordCmd1 : Dspico → UInt32 → Dspico := cmd1NoPayload .writePayloadWord Device.writePayloadWord

/-- What F2 answers: the firmware-local diagnostic window at 0xF0-0xF3, else the core's register. -/
def readRegValue (d : Dspico) : UInt32 :=
  if d.romEmu.commandMatches WireOpcode.readReg.code then
    let index := d.romEmu.commandIndex
    if index = 0xF0 then d.f4Enter
    else if index = 0xF1 then d.f4Accepted
    else if index = 0xF2 then d.f4Complete
    else if index = 0xF3 then d.f4Parsed
    else d.device.readReg index
  else 0

/-- `ntrc_gekkopakReadRegCmd1`. -/
def readRegCmd1 (d : Dspico) (_word : UInt32) : Dspico :=
  let value := d.readRegValue
  ((d.beginWrite 4).writeWord value).finishCmd1

/-- `ntrc_gekkopakWriteBlockCmd1`. -/
def writeBlockCmd1 (d : Dspico) (word : UInt32) : Dspico :=
  let d := { d with f4Enter := d.f4Enter + 1 }
  let meaningful := (word &&& 0xFFFF).toNat
  if !d.romEmu.commandMatches WireOpcode.writeBlock.code ∨ d.romEmu.commandIndex ≠ kSelectorSubmission ∨
      meaningful = 0 ∨ meaningful > kBlockBytes then
    -- The data phase is refused here; the status still comes from the core's own validation.
    let d := if d.romEmu.commandMatches WireOpcode.writeBlock.code then
        { d with device := (d.device.writeBlock d.romEmu.commandIndex word none).1 }
      else d
    d.noPayload.finishCmd1
  else
    let d := { d with f4Accepted := d.f4Accepted + 1 }
    (d.beginRead (UInt32.ofNat kBlockBytes)).finishCmd1WithReadPayload .blockTx (UInt32.ofNat kBlockBytes)
      .blockWriteComplete

/-- `blockWriteComplete`: all 512 bytes have been delivered. -/
def blockWriteComplete (d : Dspico) : Dspico :=
  let d := { d with f4Complete := d.f4Complete + 1 }
  let (device, status) := d.device.writeBlock d.romEmu.commandIndex d.romEmu.cmd1 (some d.blockTx)
  { d with device := device, f4Parsed := if status = .ok then d.f4Parsed + 1 else d.f4Parsed }

/-- `ntrc_gekkopakReadBlockCmd1`. -/
def readBlockCmd1 (d : Dspico) (word : UInt32) : Dspico :=
  let d := if d.romEmu.commandMatches WireOpcode.readBlock.code then
      let (device, _, out) := d.device.readBlock d.romEmu.commandIndex word (some kBlockBytes)
      { d with device := device, blockRx := out }
    else { d with blockRx := List.replicate kBlockBytes 0 }
  ((d.beginWrite (UInt32.ofNat kBlockBytes)).dmaToBus .blockRx (UInt32.ofNat kBlockBytes)).finishCmd1

/-- `HandlersFor`: the cmd0 and cmd1 handlers installed for an opcode. -/
def handlersFor (opcode : UInt8) : Option ((Dspico → UInt32 → Dspico) × (Dspico → UInt32 → Dspico)) :=
  match WireOpcode.ofCode opcode with
  | some .writeReg         => some (cmd0Handler, writeRegCmd1)
  | some .exec             => some (cmd0Handler, execCmd1)
  | some .readReg          => some (cmd0Handler, readRegCmd1)
  | some .writePayloadWord => some (cmd0Handler, payloadWordCmd1)
  | some .writeBlock       => some (cmd0Handler, writeBlockCmd1)
  | some .readBlock        => some (cmd0Handler, readBlockCmd1)
  | none                   => none

/-! ## One transaction -/

/-- `CommandResult`. -/
structure CommandResult where
  responseBytes         : Nat := 0
  directionMismatch     : Bool := false
  payloadLengthMismatch : Bool := false
  declaredBytes         : Nat := 0
  suppliedBytes         : Nat := 0
deriving DecidableEq, Repr

/-- The console-to-cartridge phase a directive with bit 31 set declares. -/
def receivePayload (d : Dspico) (directive : UInt32) (inData : Option (List UInt8)) :
    Dspico × CommandResult :=
  let expected := ((directive &&& 0x7FFFFFFF) + 1).toNat
  match inData with
  | none => (d, { declaredBytes := expected, directionMismatch := true })
  | some bytes =>
    let result : CommandResult := { declaredBytes := expected, suppliedBytes := bytes.length }
    if bytes.length < expected then (d, { result with directionMismatch := true })
    else
      let result := if d.romEmu.readDataLimit.toNat ≠ expected / 4 + 1 then
          { result with payloadLengthMismatch := true }
        else result
      let d := match d.romEmu.readDataDestination with
        | some destination => d.stagingCopy (bytes.take expected) destination
        | none             => d
      match d.romEmu.readDataCompleteHandler with
      | some .blockWriteComplete => (d.blockWriteComplete, result)
      | none                     => (d, result)

/-- The loop over words pushed one at a time: the bytes written and the response buffer. The FIFO count
    bounds the turns. -/
def shiftWords (d : Dspico) (declared : Nat) : Nat → Nat → Nat → List UInt8 → Nat × List UInt8
  | 0,         _, written, out => (written, out)
  | turns + 1, i, written, out =>
    if i < d.fifoCount ∧ written + 4 ≤ declared then
      d.shiftWords declared turns (i + 1) (written + 4) (splice out written (le32 (d.fifo.getD i 0)))
    else (written, out)

/-- The cartridge-to-console phase a directive declares. -/
def sendPayload (d : Dspico) (directive : UInt32) (out : Option (List UInt8)) :
    CommandResult × Option (List UInt8) :=
  let declared := (directive + 1).toNat
  match out with
  | none => ({ declaredBytes := declared, directionMismatch := true }, none)
  | some buffer =>
    if buffer.length < declared then ({ declaredBytes := declared, directionMismatch := true }, some buffer)
    else
      let buffer := splice buffer 0 (List.replicate declared 0)
      match d.dmaData with
      | some data =>
        let copy := if d.dmaLength.toNat < declared then d.dmaLength.toNat else declared
        ({ declaredBytes := declared
           suppliedBytes := d.dmaLength.toNat
           payloadLengthMismatch := d.dmaLength.toNat != declared
           responseBytes := copy }, some (splice buffer 0 ((d.staging data).take copy)))
      | none =>
        let (written, buffer) := d.shiftWords declared d.fifoCount 1 0 buffer
        let supplied := (d.fifoCount - 1) * 4
        ({ declaredBytes := declared
           suppliedBytes := supplied
           payloadLengthMismatch := supplied != declared
           responseBytes := written }, some buffer)

/-- `BeginTransaction`, with the two command words the PIO has shifted in. -/
def latchCommand (d : Dspico) (command : CommandBytes) : Dspico :=
  { d.beginTransaction with romEmu := { cmd0 := command.cmd0, cmd1 := command.cmd1 } }

/-- The second half of `IssueCommand`: the data phase the handlers' first FIFO word declares. -/
def dataPhase (d : Dspico) (inData out : Option (List UInt8)) :
    Dspico × CommandResult × Option (List UInt8) :=
  if d.fifoCount = 0 then (d, {}, out)
  else
    let directive := d.fifo.getD 0 0
    if directive = 0 then (d, {}, out)
    else if directive &&& 0x80000000 ≠ 0 then
      let (d, result) := d.receivePayload directive inData
      (d, result, out)
    else
      let (result, out) := d.sendPayload directive out
      (d, result, out)

/-- `IssueCommand`: the globals afterwards, the result and the response buffer. -/
def issueCommand (d : Dspico) (command : CommandBytes) (inData out : Option (List UInt8)) :
    Dspico × CommandResult × Option (List UInt8) :=
  let d := d.latchCommand command
  match handlersFor command.opcode with
  | none => (d, {}, out)
  | some (cmd0, cmd1) =>
    let d := cmd0 d d.romEmu.cmd0
    let d := cmd1 d d.romEmu.cmd1
    d.dataPhase inData out

/-- `dspico_shim::Reset`. -/
def reset : Dspico where
  device := Device.reset localConfig
  blockTx := List.replicate kBlockBytes 0
  blockRx := List.replicate kBlockBytes 0
  f4Enter := 0
  f4Accepted := 0
  f4Complete := 0
  f4Parsed := 0
  romEmu := {}
  fifo := []
  fifoCount := 0
  dmaData := none
  dmaLength := 0

end Dspico

end GekkoPak
