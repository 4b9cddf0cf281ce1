import GekkoPak.Basis.Bits
import GekkoPak.Basis.Bytes

/-!
# `Protocol.Wire` — the wire command and the protocol's numbers

From `include/gekkopak/protocol.h`: the eight-byte command `OP 47 4B II VV VV VV VV` with its codec, the
opcodes, the staging registers, the high-level commands, the statuses and the fixed sizes. Numbers that the
source compares as bytes or words stay numbers; closed enumerations are inductive types with their codes.
-/

namespace GekkoPak

open Basis

/-! ## The command header -/

/-- `'G'`, byte 1 of every command. -/
def kMagic0 : UInt8 := 0x47

/-- `'K'`, byte 2 of every command. -/
def kMagic1 : UInt8 := 0x4B

/-- The wire opcodes F0-F5. -/
inductive WireOpcode
  | writeReg
  | exec
  | readReg
  | writePayloadWord
  | writeBlock
  | readBlock
deriving DecidableEq, Repr

/-- `kWireWriteReg` .. `kWireReadBlock`. -/
def WireOpcode.code : WireOpcode → UInt8
  | .writeReg         => 0xF0
  | .exec             => 0xF1
  | .readReg          => 0xF2
  | .writePayloadWord => 0xF3
  | .writeBlock       => 0xF4
  | .readBlock        => 0xF5

/-- The case an opcode byte selects in `switch (cmd.opcode)`; `none` is `default`. -/
def WireOpcode.ofCode (b : UInt8) : Option WireOpcode :=
  if b = WireOpcode.writeReg.code then some .writeReg
  else if b = WireOpcode.exec.code then some .exec
  else if b = WireOpcode.readReg.code then some .readReg
  else if b = WireOpcode.writePayloadWord.code then some .writePayloadWord
  else if b = WireOpcode.writeBlock.code then some .writeBlock
  else if b = WireOpcode.readBlock.code then some .readBlock
  else none

theorem WireOpcode.eq_code_of_ofCode {b : UInt8} {opcode : WireOpcode} (h : ofCode b = some opcode) :
    b = opcode.code := by
  unfold ofCode at h
  split_ifs at h with h0 h1 h2 h3 h4 h5 <;> cases h <;> assumption

/-- The eight bytes of a command, in wire order. -/
abbrev CommandBytes : Type := Vector UInt8 8

/-- A decoded command; `valid` is false when the `GK` discriminator did not match. -/
structure WireCommand where
  opcode : UInt8
  index  : UInt8
  word   : UInt32
  valid  : Bool
deriving DecidableEq, Repr

/-- Four bytes as a word, most significant first. -/
def beWord (a b c d : UInt8) : UInt32 :=
  (a.toUInt32 <<< 24) ||| (b.toUInt32 <<< 16) ||| (c.toUInt32 <<< 8) ||| d.toUInt32

theorem beWord_toNat (a b c d : UInt8) :
    (beWord a b c d).toNat = a.toNat * 2 ^ 24 + b.toNat * 2 ^ 16 + c.toNat * 2 ^ 8 + d.toNat := by
  have ha := a.toNat_lt
  have hb := b.toNat_lt
  have hc := c.toNat_lt
  have hd := d.toNat_lt
  have hfit : ∀ (x : UInt8) (n : Nat), n ≤ 24 → x.toNat <<< n % 2 ^ 32 = x.toNat <<< n := by
    intro x n hn
    have hx : x.toNat < 2 ^ 8 := x.toNat_lt
    have hpow : 2 ^ n ≤ 2 ^ 24 := Nat.pow_le_pow_right (by decide) hn
    rw [Nat.shiftLeft_eq]
    apply Nat.mod_eq_of_lt
    calc x.toNat * 2 ^ n ≤ x.toNat * 2 ^ 24 := Nat.mul_le_mul_left _ hpow
      _ < 2 ^ 8 * 2 ^ 24 := Nat.mul_lt_mul_of_pos_right hx (by decide)
  simp only [beWord, UInt32.toNat_or, UInt32.toNat_shiftLeft, UInt8.toNat_toUInt32]
  rw [show (24 : UInt32).toNat % 32 = 24 from rfl, show (16 : UInt32).toNat % 32 = 16 from rfl,
    show (8 : UInt32).toNat % 32 = 8 from rfl, hfit a 24 (by decide), hfit b 16 (by decide), hfit c 8 (by decide)]
  -- the bytes do not overlap, so `|` is `+`
  rw [← shiftLeft_or_shiftLeft _ _ 8 16, ← shiftLeft_or_shiftLeft _ _ 8 8, ← Nat.shiftLeft_add_eq_or_of_lt hd,
    ← Nat.shiftLeft_add_eq_or_of_lt hc, ← Nat.shiftLeft_add_eq_or_of_lt hb]
  simp only [Nat.shiftLeft_eq]
  omega

namespace CommandBytes

/-- `command[0]`. -/
def opcode (command : CommandBytes) : UInt8 := command[0]

/-- `command[3]`. -/
def index (command : CommandBytes) : UInt8 := command[3]

/-- `command[1]` and `command[2]`. -/
def discriminator (command : CommandBytes) : UInt8 × UInt8 := (command[1], command[2])

/-- The first four bytes as the PIO shifts them in. -/
def cmd0 (command : CommandBytes) : UInt32 := beWord command[0] command[1] command[2] command[3]

/-- The last four. -/
def cmd1 (command : CommandBytes) : UInt32 := beWord command[4] command[5] command[6] command[7]

theorem toList_eq (command : CommandBytes) : command.toList =
    [command[0], command[1], command[2], command[3]] ++ [command[4], command[5], command[6], command[7]] := by
  have hcommand : command = Vector.ofFn (fun i => command[i]) := by simp
  rw [hcommand, Vector.toList_ofFn]
  simp [List.ofFn_succ]

end CommandBytes

/-- `DecodeCommand`: the canonical big-endian wire form. -/
def decodeCommand (bytes : CommandBytes) : WireCommand where
  opcode := bytes[0]
  index := bytes[3]
  word := beWord bytes[4] bytes[5] bytes[6] bytes[7]
  valid := bytes[1] == kMagic0 && bytes[2] == kMagic1

theorem decodeCommand_valid {bytes : CommandBytes} :
    (decodeCommand bytes).valid = true ↔ bytes.discriminator = (kMagic0, kMagic1) := by
  simp only [decodeCommand, CommandBytes.discriminator, Bool.and_eq_true, beq_iff_eq, Prod.mk.injEq]

/-- The first word of a command with the `GK` discriminator. -/
theorem CommandBytes.cmd0_eq {command : CommandBytes} (h : (decodeCommand command).valid = true) :
    command.cmd0 = beWord command.opcode kMagic0 kMagic1 command.index := by
  obtain ⟨hG, hK⟩ := Prod.mk.inj (decodeCommand_valid.mp h)
  rw [CommandBytes.cmd0, hG, hK]
  rfl

/-- `EncodeCommand`. -/
def encodeCommand (opcode index : UInt8) (word : UInt32) : CommandBytes :=
  #v[opcode, kMagic0, kMagic1, index, (word >>> 24).toUInt8, (word >>> 16).toUInt8,
     (word >>> 8).toUInt8, word.toUInt8]

/-! ## Staging registers -/

/-- `kStageRegisterCount`. -/
abbrev kStageRegisterCount : Nat := 16

/-- An index into the staging registers. -/
abbrev StageRegister : Type := Fin kStageRegisterCount

def kArg0 : StageRegister := 0
def kArg1 : StageRegister := 1
def kArg2 : StageRegister := 2
def kArg3 : StageRegister := 3
def kPayloadLen : StageRegister := 4
def kResult : StageRegister := 5
def kOut0 : StageRegister := 6
def kOut1 : StageRegister := 7
def kOut2 : StageRegister := 8
def kOut3 : StageRegister := 9

/-- F2 pseudo-register: the completion-queue depth. -/
def kEventCompletionDepth : UInt8 := 0xFE

/-! ## High-level commands and statuses -/

/-- The F1 commands. -/
inductive HighCommand
  | hello
  | getCaps
  | alloc
  | upload
  | submit
  | poll
  | collect
  | free
  | complete
deriving DecidableEq, Repr

/-- `kHello` .. `kComplete`. -/
def HighCommand.code : HighCommand → UInt8
  | .hello    => 1
  | .getCaps  => 2
  | .alloc    => 3
  | .upload   => 4
  | .submit   => 5
  | .poll     => 6
  | .collect  => 7
  | .free     => 8
  | .complete => 9

/-- The case a command byte selects in `switch (command)`; `none` is `default`. -/
def HighCommand.ofCode (b : UInt8) : Option HighCommand :=
  if b = HighCommand.hello.code then some .hello
  else if b = HighCommand.getCaps.code then some .getCaps
  else if b = HighCommand.alloc.code then some .alloc
  else if b = HighCommand.upload.code then some .upload
  else if b = HighCommand.submit.code then some .submit
  else if b = HighCommand.poll.code then some .poll
  else if b = HighCommand.collect.code then some .collect
  else if b = HighCommand.free.code then some .free
  else if b = HighCommand.complete.code then some .complete
  else none

@[simp] theorem HighCommand.ofCode_code (c : HighCommand) : HighCommand.ofCode c.code = some c := by
  cases c <;> rfl

/-- What RESULT, a block write and a completion record report. -/
inductive Status
  | ok
  | badCommand
  | badHandle
  | noMemory
  | notReady
  | badDescriptor
  | badBlock
  | queueFull
deriving DecidableEq, Repr

/-- `kOk` .. `kQueueFull`, as the word left in RESULT. -/
def Status.code : Status → UInt32
  | .ok            => 0
  | .badCommand    => 1
  | .badHandle     => 2
  | .noMemory      => 3
  | .notReady      => 4
  | .badDescriptor => 5
  | .badBlock      => 6
  | .queueFull     => 7

/-- The same as the 16-bit `status` field of a completion record. -/
def Status.code16 (st : Status) : UInt16 := st.code.toUInt16

theorem Status.code_inj {a b : Status} (h : a.code = b.code) : a = b := by
  cases a <;> cases b <;> first | rfl | exact absurd h (by decide)

theorem Status.code16_inj {a b : Status} (h : a.code16 = b.code16) : a = b := by
  cases a <;> cases b <;> first | rfl | exact absurd h (by decide)

/-! ## Identity, timing and sizes -/

def kProtocolVersion : UInt32 := 0x00010000
def kBaseCaps : UInt32 := 0x0000000F
def kCapBlockTransport : UInt32 := (1 : UInt32) <<< 4
def kCaps : UInt32 := kBaseCaps ||| kCapBlockTransport

/-- COMPLETE acknowledges with `'PASS'`. -/
def kCompleteAck : UInt32 := 0x53534150

/-- The modeled transport parameters. -/
structure TimingModel where
  commandLatencyNs     : UInt32 := 25000
  busBytesPerSecond    : UInt32 := 6 * 1024 * 1024
  kernelOpsPerSecond   : UInt32 := 100000000
deriving DecidableEq, Repr

abbrev kBlockBytes : Nat := 512
abbrev kDescriptorBytes : Nat := 64
abbrev kCompletionBytes : Nat := 64
abbrev kMaxDescriptorsPerBlock : Nat := kBlockBytes / kDescriptorBytes

/-- F4 destination: the submission queue. -/
def kSelectorSubmission : UInt8 := 0

/-- F5 source: the completion queue. -/
def kSelectorCompletion : UInt8 := 1

/-- `EncodeWriteBlockWord`: the meaningful byte count in bits 15:0. -/
def encodeWriteBlockWord (meaningfulBytes : UInt16) : UInt32 := meaningfulBytes.toUInt32

/-- `EncodeReadBlockWord`: length in bits 31:16, source offset in bits 15:0. -/
def encodeReadBlockWord (offset length : UInt16) : UInt32 :=
  (length.toUInt32 <<< 16) ||| offset.toUInt32

/-! ## Checksum -/

/-- `Fnv1a`: FNV-1a over a byte string. -/
def fnv1a (data : List UInt8) : UInt32 :=
  data.foldl (fun hash b => (hash ^^^ b.toUInt32) * 16777619) 2166136261

/-- The transport's byte-order canary: the 16-byte reference pattern hashes to `kReferenceChecksum`. -/
example : fnv1a [0x44, 0x33, 0x22, 0x11, 0x88, 0x77, 0x66, 0x55, 0xDD, 0xCC, 0xBB, 0xAA,
    0x0D, 0xF0, 0xAD, 0x0B] = 0xF269B734 := by decide

end GekkoPak
