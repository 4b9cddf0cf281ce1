import GekkoPak.Transport.Targets

/-!
# `Transport.HostModel` — the host's NTR device

`prototype/azahar-ntr/model/gekkopak_ntr_model.cpp`: the `ntr::Device` that the model tests and the tools drive. It owns
a register page, a transport and a core. `Read32` and `Write32` are the guest's window; `WriteBlock`, `ReadEvent` and
`ReadBlock` go past it, straight to the core, each counted as one transfer.

The same two block commands can be put through the window (`wireWriteBlock`, `wireReadBlock`), with the driver the
conformance runner uses.
-/

namespace GekkoPak

open Basis

/-- `ntr::Device`: the page, the transport and the core. -/
abbrev NtrDevice : Type := RegisterWindow

namespace NtrDevice

/-- The configuration the constructor builds: the pool is its own, and everything in it is advertised. -/
def config (localBytes : UInt32) : Config :=
  { hasPool := true, poolBytes := localBytes, reportedLocalBytes := localBytes }

/-- `core_.count_transfer()`. -/
def countTransfer (w : NtrDevice) : NtrDevice := { w with device := w.device.countTransfer }

/-- `WriteBlock`. `data` is the buffer behind the pointer, of which the first `len` bytes are handed on. -/
def writeBlock (w : NtrDevice) (selector : UInt8) (data : Option (List UInt8)) (len : Nat) : NtrDevice × Bool :=
  let w := countTransfer w
  match data with
  | none => (w, false)
  | some bytes =>
    if len = 0 ∨ len > kBlockBytes then (w, false)
    else
      let word := encodeWriteBlockWord (UInt16.ofNat len)
      let (device, status) := w.device.writeBlock selector word (some (bytes.take len))
      ({ w with device := device }, status == .ok)

/-- `ReadEvent`. -/
def readEvent (w : NtrDevice) : NtrDevice × UInt32 :=
  let w := countTransfer w
  (w, w.device.readReg kEventCompletionDepth)

/-- `ReadBlock`. `out` is the caller's buffer, of `len` bytes or more; the result is the byte count and the buffer
    afterwards. -/
def readBlock (w : NtrDevice) (selector : UInt8) (offset : UInt16) (out : Option (List UInt8)) (len : Nat) :
    NtrDevice × Nat × List UInt8 :=
  let w := countTransfer w
  match out with
  | none => (w, 0, [])
  | some buffer =>
    if len = 0 ∨ len > kBlockBytes then (w, 0, buffer)
    else
      let word := encodeReadBlockWord offset (UInt16.ofNat len)
      let (device, written, bytes) := w.device.readBlock selector word (some len)
      ({ w with device := device }, written, splice buffer 0 bytes)

/-! ## The device as a machine over its calls -/

/-- One call. -/
inductive Call
  | read32 (offset : UInt32)
  | write32 (offset value : UInt32)
  | writeBlock (selector : UInt8) (data : Option (List UInt8)) (len : Nat)
  | readEvent
  | readBlock (selector : UInt8) (offset : UInt16) (out : Option (List UInt8)) (len : Nat)
deriving DecidableEq, Repr

/-- What a call returns. -/
inductive Returned
  | none
  | word (v : UInt32)
  | flag (ok : Bool)
  | block (written : Nat) (out : List UInt8)
deriving DecidableEq, Repr

/-- One call on the device. -/
def step (w : NtrDevice) : Call → NtrDevice × Returned
  | .read32 offset =>
    let (w, v) := w.read32 offset
    (w, .word v)
  | .write32 offset value => (w.write32 offset value, .none)
  | .writeBlock selector data len =>
    let (w, ok) := NtrDevice.writeBlock w selector data len
    (w, .flag ok)
  | .readEvent =>
    let (w, v) := NtrDevice.readEvent w
    (w, .word v)
  | .readBlock selector offset out len =>
    let (w, written, out) := NtrDevice.readBlock w selector offset out len
    (w, .block written out)

/-- `Device(local_bytes)` and the calls that follow. -/
def machine (localBytes : UInt32) : Machine Call Returned NtrDevice where
  init := RegisterWindow.reset (config localBytes)
  step := step

/-! ## The same commands through the window -/

/-- The F4 of a block write: a whole 512-byte data phase, of which `len` bytes are meant. -/
def wireWriteBlock (w : NtrDevice) (selector : UInt8) (len : UInt16) (block : Vector UInt8 kBlockBytes) :
    NtrDevice × Answer :=
  regIssue w (encodeCommand WireOpcode.writeBlock.code selector (encodeWriteBlockWord len)) (some block.toList) none

/-- The F5 of a block read: a whole 512-byte response, of which `len` bytes are asked for. -/
def wireReadBlock (w : NtrDevice) (selector : UInt8) (offset len : UInt16) : NtrDevice × Answer :=
  regIssue w (encodeCommand WireOpcode.readBlock.code selector (encodeReadBlockWord offset len)) none (some kBlockBytes)

end NtrDevice

end GekkoPak
