import GekkoPak.Transport.Register
import GekkoPak.Transport.Dspico

/-!
# `Transport.Targets` — the three conformance targets

`tests/conformance/targets.cpp`: one `Issue` function per way of driving the core — directly, through the
register page exactly the way the ARM guest does, and through the DSpico handlers — each taking a command,
the console-to-cartridge bytes (`none` for `nullptr`) and the length of the response buffer. A target
answers whether it carried the transaction, and the response buffer.
-/

namespace GekkoPak

open Basis

/-- `kConformancePoolBytes`. -/
def kConformancePoolBytes : UInt32 := 64 * 1024

/-- The configuration `CoreReset` and `RegReset` build. -/
def conformanceConfig : Config :=
  { hasPool := true, poolBytes := kConformancePoolBytes, reportedLocalBytes := kConformancePoolBytes }

/-- What `Target::issue` returns and leaves in `out`. -/
structure Answer where
  carried  : Bool
  response : List UInt8
deriving DecidableEq, Repr

/-- `memset(out, 0, out_len)`. -/
def zeroed (outLen : Option Nat) : List UInt8 := List.replicate (outLen.getD 0) 0

/-- `p == nullptr || len < bytes`, for a buffer of that length. -/
def tooShort (len : Option Nat) (bytes : Nat) : Bool :=
  match len with
  | none   => true
  | some n => n < bytes

/-! ## Target 1: the shared device core -/

/-- `CoreIssue`. -/
def coreIssue (s : Device) (command : CommandBytes) (input : Option (List UInt8)) (outLen : Option Nat) :
    Device × Answer :=
  let out := zeroed outLen
  let cmd := decodeCommand command
  let s := s.countTransfer
  if !cmd.valid then (s, ⟨true, out⟩)
  else
    match WireOpcode.ofCode cmd.opcode with
    | some .writeReg => (s.writeReg cmd.index cmd.word, ⟨true, out⟩)
    | some .exec => (s.exec cmd.index cmd.word, ⟨true, out⟩)
    | some .readReg =>
      if tooShort outLen 4 then (s, ⟨false, out⟩)
      else (s, ⟨true, splice out 0 (le32 (s.readReg cmd.index))⟩)
    | some .writePayloadWord => (s.writePayloadWord cmd.index cmd.word, ⟨true, out⟩)
    | some .writeBlock =>
      if tooShort (input.map List.length) kBlockBytes then (s, ⟨false, out⟩)
      else ((s.writeBlock cmd.index cmd.word input).1, ⟨true, out⟩)
    | some .readBlock =>
      if tooShort outLen kBlockBytes then (s, ⟨false, out⟩)
      else
        let (s, _, out) := s.readBlock cmd.index cmd.word outLen
        (s, ⟨true, out⟩)
    | none => (s, ⟨true, out⟩)

/-! ## Target 2: the register-page transport -/

/-- The word loop of `RegIssue`; the flag is false for "the cartridge did not offer the word it promised". -/
def moveWords (direction : PhaseDirection) (input : List UInt8) :
    Nat → Nat → RegisterWindow → List UInt8 → RegisterWindow × Bool × List UInt8
  | 0,        _,    w, out => (w, true, out)
  | left + 1, word, w, out =>
    let (w, romcnt) := w.read32 (UInt32.ofNat kRegRomCnt)
    if romcnt &&& kCardDataReady = 0 then (w, false, out)
    else if direction = .cartToConsole then
      let (w, value) := w.read32 (UInt32.ofNat kRegFifo)
      moveWords direction input left (word + 1) w (splice out (word * 4) (le32 value))
    else
      let w := w.write32 (UInt32.ofNat kRegFifo) (ofLe32 (slice input (word * 4) 4))
      moveWords direction input left (word + 1) w out

/-- Staging and activating: the three register writes before the data phase. -/
def stageAndActivate (w : RegisterWindow) (command : CommandBytes) (blockField : UInt32) : RegisterWindow :=
  let w := w.write32 (UInt32.ofNat kRegCommand) (ofLe32 (slice command.toList 0 4))
  let w := w.write32 (UInt32.ofNat (kRegCommand + 4)) (ofLe32 (slice command.toList 4 4))
  w.write32 (UInt32.ofNat kRegRomCnt) (kCardResetHigh ||| kCardActivate ||| blockField)

/-- `RegIssue`. -/
def regIssue (w : RegisterWindow) (command : CommandBytes) (input : Option (List UInt8))
    (outLen : Option Nat) : RegisterWindow × Answer :=
  let out := zeroed outLen
  let phase := phaseForOpcode command.opcode
  let words := phase.bytes / 4
  if phase.direction = .cartToConsole ∧ tooShort outLen phase.bytes then (w, ⟨false, out⟩)
  else if phase.direction = .consoleToCart ∧ tooShort (input.map List.length) phase.bytes then
    (w, ⟨false, out⟩)
  else
    let w := stageAndActivate w command phase.blockField
    match moveWords phase.direction (input.getD []) words 0 w out with
    | (w, false, out) => (w, ⟨false, out⟩)
    | (w, true, out) =>
      -- The last word ends the transfer, so the activate bit must be clear.
      let (w, romcnt) := w.read32 (UInt32.ofNat kRegRomCnt)
      (w, ⟨romcnt &&& kCardActivate == 0, out⟩)

/-! ## Target 3: the DSpico firmware handlers, on the host -/

/-- `DspicoIssue`. -/
def dspicoIssue (d : Dspico) (command : CommandBytes) (input : Option (List UInt8)) (outLen : Option Nat) :
    Dspico × Answer :=
  let (d, result, out) := d.issueCommand command input (outLen.map (fun n => List.replicate n 0))
  (d, ⟨!result.directionMismatch && !result.payloadLengthMismatch, out.getD []⟩)

/-! ## Transactions -/

/-- A command, and the bytes for its data phase if it is an F4. -/
structure Transaction where
  command : CommandBytes
  payload : Vector UInt8 kBlockBytes
deriving DecidableEq, Repr

namespace Transaction

/-- The console-to-cartridge bytes the opcode calls for. -/
def input (t : Transaction) : Option (List UInt8) :=
  if WireOpcode.ofCode t.command.opcode = some .writeBlock then some t.payload.toList else none

/-- The length of the response buffer the opcode calls for. -/
def outLen (t : Transaction) : Option Nat :=
  match WireOpcode.ofCode t.command.opcode with
  | some .readReg   => some 4
  | some .readBlock => some kBlockBytes
  | _               => none

/-- F2 at 0xF0-0xF3: the firmware-local window, outside the protocol. -/
def FirmwareLocal (t : Transaction) : Prop :=
  WireOpcode.ofCode t.command.opcode = some .readReg ∧ (0xF0 : UInt8) ≤ t.command.index ∧ t.command.index ≤ (0xF3 : UInt8)

instance (t : Transaction) : Decidable t.FirmwareLocal := inferInstanceAs (Decidable (_ ∧ _))

/-- Protocol traffic: the `GK` discriminator is there, and it is not the firmware-local window. -/
def Protocol (t : Transaction) : Prop := (decodeCommand t.command).valid = true ∧ ¬ t.FirmwareLocal

instance (t : Transaction) : Decidable t.Protocol := inferInstanceAs (Decidable (_ ∧ _))

end Transaction

/-- `Target{"host-core", ..}`. -/
def hostCore : Machine Transaction Answer Device where
  init := Device.reset conformanceConfig
  step s t := coreIssue s t.command t.input t.outLen

/-- `Target{"azahar-model", ..}`. -/
def azaharModel : Machine Transaction Answer RegisterWindow where
  init := RegisterWindow.reset conformanceConfig
  step w t := regIssue w t.command t.input t.outLen

/-- `Target{"dspico-shim", ..}`. -/
def dspicoShim : Machine Transaction Answer Dspico where
  init := Dspico.reset
  step d t := dspicoIssue d t.command t.input t.outLen

end GekkoPak
