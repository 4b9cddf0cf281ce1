import GekkoPak.Transport.Register

/-!
# `Transport.Atomic` — what the register transport is for

The guest sees words; the device sees whole operations. An `Atomic` state says which operations have been
applied so far and how far the open data phase has got, and nothing about registers: one activation, one
operation. An F4 is the exception by nature — it is complete only with the last word of its block.

`Transport.Correctness.Atomic` shows that the register transport refines this machine.
-/

namespace GekkoPak

open Basis

/-! ## Words of a byte string -/

/-- The 32-bit words a byte string is made of, in order. -/
def wordsOf (bs : List UInt8) : List UInt32 :=
  (List.range (bs.length / 4)).map (fun k => ofLe32 (slice bs (4 * k) 4))

@[simp] theorem wordsOf_length (bs : List UInt8) : (wordsOf bs).length = bs.length / 4 := by
  simp [wordsOf]

/-- Consecutive words make up the bytes they lie over. -/
theorem range_flatMap_slice (bs : List UInt8) (n : Nat) :
    (List.range n).flatMap (fun k => slice bs (4 * k) 4) = slice bs 0 (4 * n) := by
  induction n with
  | zero => simp [slice]
  | succ n ih =>
    rw [List.range_succ, List.flatMap_append, ih, List.flatMap_singleton]
    exact slice_join (by omega)

/-- A string of whole words is the bytes of its words. -/
theorem flatMap_le32_wordsOf {bs : List UInt8} {n : Nat} (h : bs.length = 4 * n) :
    (wordsOf bs).flatMap le32 = bs := by
  have hn : bs.length / 4 = n := by omega
  rw [wordsOf, hn, List.flatMap_map]
  have hword : ∀ k ∈ List.range n, le32 (ofLe32 (slice bs (4 * k) 4)) = slice bs (4 * k) 4 := by
    intro k hk
    have hlt : k < n := List.mem_range.mp hk
    exact le32_ofLe32 (slice_length (by omega))
  rw [List.flatMap_congr hword, range_flatMap_slice]
  exact slice_eq_self h

theorem flatMap_le32_length (ws : List UInt32) : (ws.flatMap le32).length = 4 * ws.length := by
  induction ws with
  | nil => rfl
  | cons w ws ih =>
    rw [List.flatMap_cons, List.length_append, le32_length, ih, List.length_cons]
    omega

/-- Word `k` of the bytes of `ws` is `ws[k]`. -/
theorem slice_flatMap_le32 (ws : List UInt32) {k : Nat} (h : k < ws.length) :
    ofLe32 (slice (ws.flatMap le32) (4 * k) 4) = ws.getD k 0 := by
  induction ws generalizing k with
  | nil => simp at h
  | cons w ws ih =>
    rw [List.flatMap_cons]
    cases k with
    | zero => rw [slice_append_eq_left (le32_length w), ofLe32_le32]; rfl
    | succ k =>
      rw [slice_of_length_le (by rw [le32_length]; omega), le32_length,
        show 4 * (k + 1) - 4 = 4 * k by omega, ih (by simpa using h)]
      rfl

/-- The words a response is carried in. -/
def Response.words : Response → List UInt32
  | .value v     => [v]
  | .block _ out => wordsOf out
  | _            => []

/-! ## Atomic transactions -/

/-- Where the transaction in flight stands between two accesses. -/
inductive Phase
  /-- No transfer is open. -/
  | idle
  /-- `k` words of the response have been read. -/
  | reading (response : List UInt32) (k : Nat)
  /-- The words written so far of the block of an F4 with this selector and word. -/
  | writing (selector : UInt8) (word : UInt32) (block : List UInt32)
deriving DecidableEq, Repr

/-- The operations applied so far, the command words staged and the phase. -/
structure Atomic where
  log   : List WireOp := []
  cmd0  : UInt32 := 0
  cmd1  : UInt32 := 0
  phase : Phase := .idle

/-- Words in a block. -/
abbrev kBlockWords : Nat := 128

namespace Atomic

/-- The staged command, as the eight bytes of the two words. -/
def command (t : Atomic) : WireCommand := decodeCommand (commandOf (le32 t.cmd0 ++ le32 t.cmd1))

/-- Apply an operation. -/
def apply (t : Atomic) (op : WireOp) : Atomic := { t with log := t.log ++ [op] }

/-- Apply an operation and offer the words of its response. -/
def answer (config : Config) (t : Atomic) (op : WireOp) : Atomic :=
  { t.apply op with phase := .reading ((Device.machine config).out (Device.after config t.log) op).words 0 }

/-- The `GK` discriminator is there and the block-size field is the one the opcode calls for. -/
def Admitted (cmd : WireCommand) (romcnt : UInt32) : Prop :=
  cmd.valid = true ∧ romcnt &&& kCardBlockMask = (phaseForOpcode cmd.opcode).blockField

instance (cmd : WireCommand) (romcnt : UInt32) : Decidable (Admitted cmd romcnt) :=
  inferInstanceAs (Decidable (_ ∧ _))

/-- An activation with no transfer open. -/
def activate (config : Config) (t : Atomic) (romcnt : UInt32) : Atomic :=
  let cmd := t.command
  if Admitted cmd romcnt then
    match WireOpcode.ofCode cmd.opcode with
    | some .writeReg         => t.apply (.writeReg cmd.index cmd.word)
    | some .exec             => t.apply (.exec cmd.index cmd.word)
    | some .readReg          => t.answer config (.readReg cmd.index)
    | some .writePayloadWord => t.apply (.writePayloadWord cmd.index cmd.word)
    | some .writeBlock       => { t with phase := .writing cmd.index cmd.word [] }
    | some .readBlock        => t.answer config (.readBlock cmd.index cmd.word (some kBlockBytes))
    | none                   => t
  else t

/-- A read of the FIFO: the next word of the response, or `0` out of phase. -/
def takeWord (t : Atomic) : Atomic × UInt32 :=
  match t.phase with
  | .reading response k =>
    ({ t with phase := if k + 1 = response.length then .idle else .reading response (k + 1) },
      response.getD k 0)
  | _ => (t, 0)

/-- A write of the FIFO: the next word of the block; the last one applies the F4. -/
def giveWord (t : Atomic) (value : UInt32) : Atomic :=
  match t.phase with
  | .writing selector word block =>
    let block := block ++ [value]
    if block.length = kBlockWords then
      { t.apply (.writeBlock selector word (some (block.flatMap le32))) with phase := .idle }
    else { t with phase := .writing selector word block }
  | _ => t

/-- One access; only FIFO reads answer. -/
def step (config : Config) (t : Atomic) : Access → Atomic × Option UInt32
  | .read offset =>
    if offset.toNat = kRegFifo then (t.takeWord.1, some t.takeWord.2) else (t, none)
  | .write offset value =>
    if offset.toNat = kRegFifo then (t.giveWord value, none)
    else if offset.toNat = kRegCommand then ({ t with cmd0 := value }, none)
    else if offset.toNat = kRegCommand + 4 then ({ t with cmd1 := value }, none)
    else if offset.toNat = kRegRomCnt ∧ value &&& kCardActivate ≠ 0 ∧ t.phase = .idle then
      (t.activate config value, none)
    else (t, none)

/-- Atomic transactions against a device under `config`. -/
def machine (config : Config) : Machine Access (Option UInt32) Atomic where
  init := {}
  step := step config

end Atomic

/-- What a register access answers, as far as the data phase goes: FIFO reads only. -/
def Access.fifoAnswer : Access → Option UInt32 → Option UInt32
  | .read offset, value => if offset.toNat = kRegFifo then value else none
  | .write _ _,   _     => none

end GekkoPak
