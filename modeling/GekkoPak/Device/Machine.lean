import GekkoPak.Basis.Machine
import GekkoPak.Device.Block

/-!
# `Device.Machine` — the device as a machine over wire operations

One input per opcode F0-F5, with every argument the method takes. A run starts at `Reset`.
-/

namespace GekkoPak

open Basis

/-- One complete NTR transaction from the core's point of view. -/
inductive WireOp
  | writeReg (index : UInt8) (value : UInt32)
  | exec (command : UInt8) (sequence : UInt32)
  | readReg (index : UInt8)
  | writePayloadWord (index : UInt8) (value : UInt32)
  | writeBlock (selector : UInt8) (word : UInt32) (data : Option (List UInt8))
  | readBlock (selector : UInt8) (word : UInt32) (out : Option Nat)
deriving DecidableEq, Repr

/-- What the method behind a transaction returns. -/
inductive Response
  | none
  | value (v : UInt32)
  | status (st : Status)
  | block (written : Nat) (out : List UInt8)
deriving DecidableEq, Repr

namespace Device

/-- One wire operation. -/
def step (s : Device) : WireOp → Device × Response
  | .writeReg index value         => (s.writeReg index value, .none)
  | .exec command sequence        => (s.exec command sequence, .none)
  | .readReg index                => (s, .value (s.readReg index))
  | .writePayloadWord index value => (s.writePayloadWord index value, .none)
  | .writeBlock selector word data =>
    let (s, status) := s.writeBlock selector word data
    (s, .status status)
  | .readBlock selector word out =>
    let (s, written, bytes) := s.readBlock selector word out
    (s, .block written bytes)

theorem step_writeBlock (s : Device) (selector : UInt8) (word : UInt32) (data : Option (List UInt8)) :
    s.step (.writeBlock selector word data) =
      ((s.writeBlock selector word data).1, .status (s.writeBlock selector word data).2) := rfl

theorem step_readBlock (s : Device) (selector : UInt8) (word : UInt32) (out : Option Nat) :
    s.step (.readBlock selector word out) =
      ((s.readBlock selector word out).1,
        .block (s.readBlock selector word out).2.1 (s.readBlock selector word out).2.2) := rfl

/-- The device under configuration `config`. -/
def machine (config : Config) : Machine WireOp Response Device where
  init := reset config
  step := step

/-- The state after the wire operations `ops`, from `Reset`. -/
abbrev after (config : Config) (ops : List WireOp) : Device := (machine config).run ops

end Device

end GekkoPak
