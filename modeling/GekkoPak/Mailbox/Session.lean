import GekkoPak.Basis.Rendezvous
import GekkoPak.Basis.Symbolic
import GekkoPak.Mailbox.Frontend
import GekkoPak.Mailbox.Guest
import GekkoPak.Protocol.Records

/-!
# `Mailbox.Session` — guest and frontend together, and what the session is meant to be

The guest is one party, the frontend the other; `frameLoop` is the schedule the frontend's `main` makes of them. The
rest of the file is the session as `validate_trace.py` wants it: ten requests, what the frontend holds between them,
and what is known of the guest while it waits for each answer.
-/

namespace GekkoPak

open Basis Arm

namespace Mailbox

/-- The guest and the frontend. -/
structure System where
  cpu      : State Mem
  frontend : Frontend

namespace System

/-- The program loaded into a machine that is zero everywhere, and a trace file. -/
def boot (descriptors : List MemoryDescriptor) : System where
  cpu      := ⟨fun _ => 0, false, false, false, 0, .zero⟩
  frontend := .init descriptors true

variable (modelJobUs : UInt32 → UInt32 → UInt32 → UInt32) (calloc : UInt32 → Bool)

/-- One instruction of the guest. -/
def guest (s : System) : System := { s with cpu := Arm.step Guest.program ram s.cpu }

/-- One look of the frontend into the guest's memory. -/
def service (s : System) : System :=
  let (f, m) := s.frontend.serviceGekkopak modelJobUs calloc s.cpu.mem
  { cpu := { s.cpu with mem := m }, frontend := f }

/-- The state after a schedule. -/
def after (s : System) (ps : List Party) : System := play guest (service modelJobUs calloc) s ps

/-- The loop of `main`, with the frames left: `steps f` is how many instructions the core runs in frame `f`. -/
def frameLoop (steps : Nat → Nat) : Nat → Nat → System → System
  | 0,     _, s => s
  | n + 1, f, s =>
    if s.frontend.guestDone then s
    else frameLoop steps n (f + 1) (service modelJobUs calloc (guest^[steps f] s))

/-- What `main` returns after its 90 frames. -/
def exitCode (s : System) : Nat := if s.frontend.guestDone then 0 else 1

end System

/-! ## The trace validator -/

/-- `expected` of `validate_trace.py`. -/
def expectedCommands : List String :=
  ["HELLO", "GET_CAPS", "ALLOC", "UPLOAD", "SUBMIT", "POLL", "POLL", "COLLECT", "FREE", "COMPLETE"]

/-- `struct.pack('<IIII', ...)`. -/
def payloadBytes : List UInt8 :=
  le32 0x11223344 ++ le32 0x55667788 ++ le32 0xAABBCCDD ++ le32 0x0BADF00D

/-- The assertions of `validate_trace.py`; an index out of range fails as well. -/
def validateTrace (lines : List TraceLine) : Bool :=
  lines.map TraceLine.cmd = expectedCommands ∧
  (∀ line ∈ lines, line.result = 0) ∧
  lines[3]?.map TraceLine.payloadLen = some 16 ∧
  (lines[5]?.bind (·.out[0]?) = some 0 ∧ lines[6]?.bind (·.out[0]?) = some 1) ∧
  lines[7]?.bind (·.out[2]?) = some (fnv1a payloadBytes)

/-! ## The session -/

/-- A request as it stands in the mailbox. -/
structure Request where
  command    : GkCommand
  arg0       : UInt32
  arg1       : UInt32
  arg2       : UInt32
  arg3       : UInt32
  payloadLen : UInt32
deriving DecidableEq, Repr

/-- What the guest asks for, and what it is answered; `param 0` is the modelled time of the job, `param 1` the speedup
    computed from it. -/
def script : List (Request × List Val) := [
  (⟨.hello, 0, 0, 0, 0, 0⟩,            [.const gkVersion, .const gkCaps, .const gkLocalMemoryBytes, .const 1]),
  (⟨.getCaps, 0, 0, 0, 0, 0⟩,          [.const gkCaps, .const gkLocalMemoryBytes, .const 6291456, .const 25]),
  (⟨.alloc, 4096, 0, 0, 0, 0⟩,         [.const 1, .const 4096, .const 0, .const 0]),
  (⟨.upload, 1, 0, 0, 0, 16⟩,          [.const 16, .const 0xF269B734, .const 0, .const 0]),
  (⟨.submit, 1, 1, 250000, 3500, 0⟩,   [.const 1, .param 0, .const 0, .const 0]),
  (⟨.poll, 1, 0, 0, 0, 0⟩,             [.const 0, .const 1, .const 0, .const 0]),
  (⟨.poll, 1, 0, 0, 0, 0⟩,             [.const 1, .const 0, .const 0, .const 0]),
  (⟨.collect, 1, 0, 0, 0, 0⟩,          [.param 0, .param 1, .const 0xF269B734, .const 3500]),
  (⟨.free, 1, 0, 0, 0, 0⟩,             [.const 0, .const 0, .const 0, .const 0]),
  (⟨.complete, 0, 0, 0, 0, 0⟩,         [.const 0x53534150, .const 0, .const 0, .const 0])]

/-- Knowledge of the guest, with the answer in the mailbox. -/
def answered (K : Known) (outs : List Val) : Known :=
  (((((K.setWord 0x0FFFC014 (some (.const 0))).setWord 0x0FFFC028 outs[0]?).setWord 0x0FFFC02C outs[1]?).setWord
    0x0FFFC030 outs[2]?).setWord 0x0FFFC034 outs[3]?).setWord 0x0FFFC010 (some (.const gkStateResponse))

/-- The state word is known to be something else than REQUEST; `param 2` is what it is at first. -/
def unasked (K : Known) : Bool := K.word 0x0FFFC010 = some (.const gkStateResponse) ∨ K.word 0x0FFFC010 = some (.param 2)

/-- The guest about to start, with nothing known but that. -/
def knownAtStart : Known := ⟨0, [], [(0x0FFFC010, .param 2)], none⟩

/-- How many instructions the guest executes before request `k`, from its start or from the answer before; in the end,
    before it rests. -/
def stretch : List Nat := [25, 28, 30, 36, 28, 28, 29, 29, 32, 28, 7]

/-- What is known of the guest once it has executed a stretch. -/
def onwards (K : Known) (n : Nat) : Option Known :=
  (K.run Guest.program (fun _ => true) unasked n).map (fun K => { K with z := none })

/-- What is known of the guest when it has raised request `k` and begins to wait; after the last one, when it rests. -/
def knownAt : Nat → Known
  | 0     => (onwards knownAtStart (stretch.getD 0 0)).getD knownAtStart
  | k + 1 =>
    let K := answered (knownAt k) ((script.map Prod.snd).getD k [])
    (onwards K (stretch.getD (k + 1) 0)).getD K

/-- Where the guest can be while it waits, and how many instructions that puts it behind the beginning of the loop. -/
def spins (k : Nat) : List (Known × Nat) :=
  let K := knownAt k
  if k < 10 then
    [(K, 0), ({ K with pc := K.pc + 1 }, 2), ({ K with pc := K.pc + 2, z := some false }, 1)]
  else [(K, 0)]

/-- The request is known to stand in the mailbox. -/
def asks (K : Known) (k : Nat) (r : Request) : Bool :=
  [(0x0FFFC000, gkMagic), (0x0FFFC008, UInt32.ofNat (k + 1)), (0x0FFFC00C, r.command.code),
    (0x0FFFC010, gkStateRequest), (0x0FFFC018, r.arg0), (0x0FFFC01C, r.arg1), (0x0FFFC020, r.arg2),
    (0x0FFFC024, r.arg3), (0x0FFFC038, r.payloadLen)].all (fun e => K.word e.1 = some (.const e.2))

/-! ## What the frontend holds -/

section Held

variable (modelJobUs : UInt32 → UInt32 → UInt32 → UInt32) (state : UInt32) (descs : List MemoryDescriptor)

/-- The modelled time of the session's job. -/
def sessionUs : UInt32 := modelJobUs 16 16 250000

/-- Its speedup over 3500 us, in thousandths. -/
def sessionSpeedup : UInt32 :=
  if sessionUs modelJobUs ≠ 0 then UInt32.ofNat (3500 * 1000 / (sessionUs modelJobUs).toNat) else 0

/-- The parameters of the script. -/
def params : Nat → UInt32
  | 0 => sessionUs modelJobUs
  | 1 => sessionSpeedup modelJobUs
  | _ => state

/-- A value of the script. -/
def meant (v : Val) : UInt32 := v.den Guest.program (params modelJobUs state)

/-- The trace line of an answered request. -/
def scriptLine (k : Nat) (e : Request × List Val) : TraceLine where
  seq        := UInt32.ofNat (k + 1)
  cmd        := cmdName e.1.command.code
  arg        := [e.1.arg0, e.1.arg1, e.1.arg2, e.1.arg3]
  result     := gkOk
  out        := e.2.map (meant modelJobUs 0)
  payloadLen := e.1.payloadLen

/-- The trace of the whole session. -/
def sessionTrace : List TraceLine := script.mapIdx (scriptLine modelJobUs)

/-- The summary the guest leaves. -/
def sessionSummary : List UInt32 :=
  [Guest.passMagic, gkVersion, gkCaps, gkLocalMemoryBytes, 1, 1, sessionUs modelJobUs, sessionSpeedup modelJobUs,
    0xF269B734]

/-- The allocation once the payload is in it. -/
def sessionData : List UInt8 := splice (List.replicate 4096 0) 0 payloadBytes

/-- The allocation after `k` answers. -/
def allocAt (k : Nat) : GkAlloc :=
  if k < 3 then .zero
  else if k < 4 then ⟨1, some (List.replicate 4096 0), 4096, 0⟩
  else if k < 9 then ⟨1, some sessionData, 4096, 16⟩
  else .zero

/-- The job after `k` answers. -/
def jobAt (k : Nat) : GkJob :=
  if k < 5 then .zero
  else
    { handle         := 1
      allocHandle    := 1
      kernel         := 1
      operations     := 250000
      softwareUs     := 3500
      modeledUs      := sessionUs modelJobUs
      speedupX1000   := sessionSpeedup modelJobUs
      checksum       := 0xF269B734
      pollsRemaining := 7 - max 5 (min k 7)
      ready          := decide (7 ≤ k) }

/-- The frontend after `k` answers. -/
def frontendAt (k : Nat) : Frontend where
  descs           := descs
  gTrace          := true
  alloc           := allocAt k
  job             := jobAt modelJobUs k
  lastSeq         := UInt32.ofNat k
  nextAllocHandle := if k < 3 then 1 else 2
  nextJobHandle   := if k < 5 then 1 else 2
  guestDone       := decide (10 ≤ k)
  answered        := (sessionTrace modelJobUs).take k
  trace           := (sessionTrace modelJobUs).take k
  summaries       := if k < 10 then [] else [sessionSummary modelJobUs]

end Held

end Mailbox

end GekkoPak
