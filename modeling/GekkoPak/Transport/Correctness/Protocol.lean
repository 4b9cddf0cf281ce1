import GekkoPak.Device.Transfers
import GekkoPak.Transport.Targets

/-!
# `Transport.Correctness.Protocol` — the one protocol, and the direct driver

`protocol` is what all three targets are supposed to implement: a transaction is one core operation, always
carried, answered with the operation's bytes. A target conforms on a transaction (`Conforms`) when it ends
in the protocol's device, up to the transfer counter, with the protocol's answer. The direct driver does so
at once; the other two are in `Transport.Correctness.Page` and `Transport.Correctness.Conformance`.
-/

namespace GekkoPak

open Basis

/-! ## The protocol -/

/-- The bytes a response puts on the bus. -/
def Response.bytes : Response → List UInt8
  | .value v     => le32 v
  | .block _ out => out
  | _            => []

/-- The core operation a transaction asks for; `none` for an opcode outside F0-F5. -/
def Transaction.op (t : Transaction) : Option WireOp :=
  let cmd := decodeCommand t.command
  match WireOpcode.ofCode t.command.opcode with
  | some .writeReg         => some (.writeReg cmd.index cmd.word)
  | some .exec             => some (.exec cmd.index cmd.word)
  | some .readReg          => some (.readReg cmd.index)
  | some .writePayloadWord => some (.writePayloadWord cmd.index cmd.word)
  | some .writeBlock       => some (.writeBlock cmd.index cmd.word (some t.payload.toList))
  | some .readBlock        => some (.readBlock cmd.index cmd.word (some kBlockBytes))
  | none                   => none

/-- The seven kinds of transaction, each with its operation and its data phase. -/
theorem Transaction.op_cases (t : Transaction) :
    (WireOpcode.ofCode t.command.opcode = none ∧ t.op = none ∧ t.input = none ∧ t.outLen = none) ∨
    (WireOpcode.ofCode t.command.opcode = some .writeReg ∧
      t.op = some (.writeReg (decodeCommand t.command).index (decodeCommand t.command).word) ∧
      t.input = none ∧ t.outLen = none) ∨
    (WireOpcode.ofCode t.command.opcode = some .exec ∧
      t.op = some (.exec (decodeCommand t.command).index (decodeCommand t.command).word) ∧
      t.input = none ∧ t.outLen = none) ∨
    (WireOpcode.ofCode t.command.opcode = some .writePayloadWord ∧
      t.op = some (.writePayloadWord (decodeCommand t.command).index (decodeCommand t.command).word) ∧
      t.input = none ∧ t.outLen = none) ∨
    (WireOpcode.ofCode t.command.opcode = some .readReg ∧
      t.op = some (.readReg (decodeCommand t.command).index) ∧ t.input = none ∧ t.outLen = some 4) ∨
    (WireOpcode.ofCode t.command.opcode = some .readBlock ∧
      t.op = some (.readBlock (decodeCommand t.command).index (decodeCommand t.command).word
        (some kBlockBytes)) ∧ t.input = none ∧ t.outLen = some kBlockBytes) ∨
    (WireOpcode.ofCode t.command.opcode = some .writeBlock ∧
      t.op = some (.writeBlock (decodeCommand t.command).index (decodeCommand t.command).word
        (some t.payload.toList)) ∧ t.input = some t.payload.toList ∧ t.outLen = none) := by
  unfold Transaction.op Transaction.input Transaction.outLen
  cases WireOpcode.ofCode t.command.opcode with
  | none => simp
  | some opcode => cases opcode <;> simp

/-- One core operation per transaction. -/
def protocol : Machine Transaction Answer Device where
  init := Device.reset conformanceConfig
  step s t :=
    match t.op with
    | some op => ((s.step op).1, ⟨true, (s.step op).2.bytes⟩)
    | none    => (s, ⟨true, []⟩)

variable {s c : Device} {t : Transaction}

theorem protocol_step_some {op : WireOp} (hop : t.op = some op) (s : Device) :
    protocol.step s t = ((s.step op).1, ⟨true, (s.step op).2.bytes⟩) := by
  simp only [protocol, hop]

theorem protocol_step_none (hop : t.op = none) (s : Device) : protocol.step s t = (s, ⟨true, []⟩) := by
  simp only [protocol, hop]

/-- A target that ends in `device` with `answer` did what the protocol does. -/
def Conforms (s : Device) (t : Transaction) (device : Device) (answer : Answer) : Prop :=
  Device.SameCore (protocol.next s t) device ∧ answer = protocol.out s t

/-- Applying the transaction's operation to a device that is the same but for the counter. -/
theorem conforms_of_op (h : Device.SameCore s c) {op : WireOp} (hop : t.op = some op) :
    Conforms s t (c.step op).1 ⟨true, (c.step op).2.bytes⟩ := by
  obtain ⟨hnext, hout⟩ := h.step op
  constructor
  · rw [Machine.next, protocol_step_some hop]
    exact hnext
  · rw [Machine.out, protocol_step_some hop, hout]

/-- Doing nothing, for a transaction without an operation. -/
theorem conforms_of_none (h : Device.SameCore s c) (hop : t.op = none) : Conforms s t c ⟨true, []⟩ := by
  constructor
  · rw [Machine.next, protocol_step_none hop]
    exact h
  · rw [Machine.out, protocol_step_none hop]

/-! ## Target 1: the core -/

theorem coreIssue_conforms (h : Device.SameCore s c) (ht : t.Protocol) :
    Conforms s t (hostCore.next c t) (hostCore.out c t) := by
  have hvalid := ht.1
  have hcount := h.countTransfer
  have hopcode : (decodeCommand t.command).opcode = t.command.opcode := rfl
  show Conforms s t (coreIssue c t.command t.input t.outLen).1 (coreIssue c t.command t.input t.outLen).2
  rcases t.op_cases with ⟨hcode, hop, hin, hlen⟩ | ⟨hcode, hop, hin, hlen⟩ | ⟨hcode, hop, hin, hlen⟩ |
    ⟨hcode, hop, hin, hlen⟩ | ⟨hcode, hop, hin, hlen⟩ | ⟨hcode, hop, hin, hlen⟩ | ⟨hcode, hop, hin, hlen⟩
  · -- an opcode outside F0-F5
    simp only [coreIssue, hvalid, hopcode, hcode, hlen]
    exact conforms_of_none hcount hop
  · -- F0
    simp only [coreIssue, hvalid, hopcode, hcode, hlen]
    exact conforms_of_op hcount hop
  · -- F1
    simp only [coreIssue, hvalid, hopcode, hcode, hlen]
    exact conforms_of_op hcount hop
  · -- F3
    simp only [coreIssue, hvalid, hopcode, hcode, hlen]
    exact conforms_of_op hcount hop
  · -- F2
    have hsplice : splice (zeroed (some 4)) 0 (le32 (c.countTransfer.readReg (decodeCommand t.command).index))
        = le32 (c.countTransfer.readReg (decodeCommand t.command).index) :=
      splice_all (by simp [zeroed])
    simp only [coreIssue, hvalid, hopcode, hcode, hlen, hsplice]
    exact conforms_of_op hcount hop
  · -- F5
    simp only [coreIssue, hvalid, hopcode, hcode, hlen]
    exact conforms_of_op hcount hop
  · -- F4
    have hlong : tooShort ((some t.payload.toList).map List.length) kBlockBytes = false := by
      simp [tooShort]
    simp only [coreIssue, hvalid, hopcode, hcode, hlen, hin, hlong]
    exact conforms_of_op hcount hop

end GekkoPak
