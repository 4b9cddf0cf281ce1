import GekkoPak.Basis.Ledger
import GekkoPak.Basis.Machine

/-!
# `Simulator.Core` — the host-side simulator

`src/gekkopak.cpp` and `include/gekkopak/gekkopak.h`: `Simulator` as far as it keeps state, that is `Simulator()`,
`set_config`, `allocate`, `release`, `allocated_bytes` and `free_bytes`. Rates are doubles; what the code asks of one is
whether it is `<= 0.0`, so a double is its bit pattern here.
-/

namespace GekkoPak

open Basis

/-- An IEEE 754 binary64 value, as its bits. -/
structure Double where
  bits : UInt64
deriving DecidableEq, Repr

namespace Double

/-- Exponent all ones, and a non-zero fraction. -/
def isNan (x : Double) : Bool := x.bits &&& 0x7FFFFFFFFFFFFFFF > 0x7FF0000000000000

/-- `x <= 0.0`: a zero of either sign, or a negative number; never a NaN. -/
def leZero (x : Double) : Bool :=
  !x.isNan && (x.bits &&& 0x7FFFFFFFFFFFFFFF == 0 || x.bits &&& 0x8000000000000000 != 0)

end Double

/-- `Capability::LocalMemory` .. `Capability::Texture`, those of the default mask. -/
def kCapLocalMemory : UInt32 := (1 : UInt32) <<< 0
def kCapDspAudio : UInt32 := (1 : UInt32) <<< 1
def kCapPairedSingle : UInt32 := (1 : UInt32) <<< 2
def kCapTexture : UInt32 := (1 : UInt32) <<< 3

/-- `has_capability`. -/
def hasCapability (mask value : UInt32) : Bool := mask &&& value != 0

/-- `DeviceConfig`, with its defaults. -/
structure DeviceConfig where
  txMibPerSecond          : Double := ⟨0x4018000000000000⟩   -- 6.0
  rxMibPerSecond          : Double := ⟨0x4018000000000000⟩
  commandLatencyUs        : Double := ⟨0x4039000000000000⟩   -- 25.0
  localMemoryBytes        : UInt64 := 32 * 1024 * 1024
  acceleratorOpsPerSecond : Double := ⟨0x4197D78400000000⟩   -- 100'000'000.0
  capabilities            : UInt32 := kCapLocalMemory ||| kCapDspAudio ||| kCapPairedSingle ||| kCapTexture
deriving DecidableEq, Repr

/-- What a call throws. -/
inductive Thrown
  | invalidArgument (what : String)
  | runtimeError (what : String)
  | badAlloc
deriving DecidableEq, Repr

/-- `Simulator`. -/
structure Simulator where
  config         : DeviceConfig
  allocatedBytes : UInt64 := 0
  nextHandle     : UInt32 := 1
  allocations    : AList (fun _ : UInt32 => UInt64) := ∅

namespace Simulator

/-- The checks of rates that the constructor and `set_config` share. -/
def checkRates (config : DeviceConfig) : Except Thrown Unit :=
  if config.txMibPerSecond.leZero || config.rxMibPerSecond.leZero then
    .error (.invalidArgument "GekkoPAK TX/RX bandwidth must be greater than zero")
  else if config.acceleratorOpsPerSecond.leZero then
    .error (.invalidArgument "GekkoPAK accelerator throughput must be greater than zero")
  else .ok ()

/-- `Simulator(config)`. -/
def construct (config : DeviceConfig) : Except Thrown Simulator := do
  checkRates config
  return { config := config }

/-- `free_bytes`. -/
def freeBytes (s : Simulator) : UInt64 := s.config.localMemoryBytes - s.allocatedBytes

/-- `set_config`: the state after the call, and what it throws. -/
def setConfig (s : Simulator) (config : DeviceConfig) : Simulator × Except Thrown Unit :=
  match checkRates config with
  | .error e => (s, .error e)
  | .ok () =>
    if config.localMemoryBytes < s.allocatedBytes then
      (s, .error (.invalidArgument "new local-memory size is smaller than current allocations"))
    else ({ s with config := config }, .ok ())

/-- `allocate`. The outcome of `emplace` is not looked at. -/
def allocate (s : Simulator) (bytes : UInt64) : Simulator × Except Thrown UInt32 :=
  if !hasCapability s.config.capabilities kCapLocalMemory then
    (s, .error (.runtimeError "device does not expose accelerator-local memory"))
  else if bytes = 0 then (s, .error (.invalidArgument "cannot allocate a zero-byte GekkoPAK buffer"))
  else if bytes > s.freeBytes then (s, .error .badAlloc)
  else
    let handle := s.nextHandle
    let s := { s with nextHandle := s.nextHandle + 1 }
    let s := { s with allocations := emplace s.allocations handle bytes }
    let s := { s with allocatedBytes := s.allocatedBytes + bytes }
    (s, .ok handle)

/-- `release`. -/
def release (s : Simulator) (handle : UInt32) : Simulator × Except Thrown Unit :=
  match s.allocations.lookup handle with
  | none => (s, .error (.invalidArgument "unknown GekkoPAK buffer handle"))
  | some size =>
    let s := { s with allocatedBytes := s.allocatedBytes - size }
    ({ s with allocations := s.allocations.erase handle }, .ok ())

/-! ## The simulator as a machine over its calls -/

/-- One call. -/
inductive Call
  | allocate (bytes : UInt64)
  | release (handle : UInt32)
  | setConfig (config : DeviceConfig)
deriving DecidableEq, Repr

/-- One call, with the handle it returns if it returns one, or what it throws. -/
def step (s : Simulator) : Call → Simulator × Except Thrown (Option UInt32)
  | .allocate bytes =>
    let (s, result) := s.allocate bytes
    (s, result.map some)
  | .release handle =>
    let (s, result) := s.release handle
    (s, result.map (fun _ => none))
  | .setConfig config =>
    let (s, result) := s.setConfig config
    (s, result.map (fun _ => none))

/-- The calls made on a constructed simulator. -/
def machine (s : Simulator) : Machine Call (Except Thrown (Option UInt32)) Simulator where
  init := s
  step := step

end Simulator

end GekkoPak
