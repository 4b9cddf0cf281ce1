import GekkoPak.Device.Correctness.Parser
import GekkoPak.Device.Correctness.Reject
import GekkoPak.Transport.Correctness.Commands
import GekkoPak.Transport.Correctness.Foreign
import GekkoPak.Transport.HostModel

/-!
# `Transport.Correctness.HostModel` — block calls past the page, and through it

A block call and the F4 or F5 with the same arguments reach the same core by two ways. Through the window the command
is counted, the data phase is moved word by word, and the core's own `WriteBlock` or `ReadBlock` sees the whole block:
that is an equation for the device here, counter included (`wireWriteBlock_device`, `wireReadBlock_device`), where
`Refines` speaks up to the counter. The direct call is counted, and then its own check of the length stands in front of
the core's: a length the core would refuse with `kBadBlock` is dropped before the core can say so, and RESULT keeps
what it held (`block_calls_agree_iff`).
-/

namespace GekkoPak

open Basis

/-! ## A data phase, exactly -/

/-- The device has made the logged operations, from `d`, and the transport stands where the phase says. -/
structure Exactly (d : Device) (a : Atomic) (w : RegisterWindow) : Prop where
  device     : w.device = d.apply a.log
  tracks     : Tracks a.phase w.transport
  wellFormed : a.phase.WellFormed

theorem Device.apply_append (d : Device) (ops ops' : List WireOp) : d.apply (ops ++ ops') = (d.apply ops).apply ops' :=
  List.foldl_append

theorem Exactly.advance {d : Device} {a a' : Atomic} {w w' : RegisterWindow} (h : Exactly d a w)
    (hadv : Advances a a' w w') : Exactly d a' w' where
  device := by
    obtain ⟨ops, hlog, hdev⟩ := hadv.applied
    rw [hlog, hdev, h.device, Device.apply_append]
  tracks := hadv.tracks
  wellFormed := hadv.wellFormed

theorem fifoRelation_exactly (d : Device) : FifoRelation (Exactly d) where
  direction_none := fun h => h.tracks.direction_none
  readFifo := fun h =>
    ⟨h.advance (Advances.readFifo h.tracks h.wellFormed).1, (Advances.readFifo h.tracks h.wellFormed).2⟩
  writeFifo := fun h value => h.advance (Advances.writeFifo h.tracks h.wellFormed value)

section Window

variable {w : RegisterWindow}

/-- Staging and activating a command with no transfer open is an activation of that command. -/
theorem stageAndActivate_command (hidle : w.transport.direction = .none) (command : CommandBytes) (blockField : UInt32) :
    ∃ w' : RegisterWindow, stageAndActivate w command blockField = w'.startCommand ∧ w'.device = w.device ∧
      w'.transport = w.transport ∧ w'.staged = decodeCommand command ∧
      load32 w'.regs kRegRomCnt = kCardResetHigh ||| kCardActivate ||| blockField := by
  have heq := stageAndActivate_eq hidle command blockField
  refine ⟨_, heq, rfl, rfl, ?_, load32_store32_same _ _ _⟩
  have hread := stageAndActivate_read w command blockField
  rw [heq, startCommand_staged] at hread
  rw [RegisterWindow.staged, hread, commandOf_toList]

variable (selector : UInt8) (word : UInt32)

/-- An F4, up to the data phase it waits for. -/
theorem activate_writeBlock (hidle : w.transport.direction = .none) :
    Exactly w.device.countTransfer { phase := .writing selector word [] }
      (stageAndActivate w (encodeCommand WireOpcode.writeBlock.code selector word) kCardBlock512) := by
  obtain ⟨w', heq, hdev, -, hstaged, hromcnt⟩ :=
    stageAndActivate_command hidle (encodeCommand WireOpcode.writeBlock.code selector word) kCardBlock512
  have hfield : ¬ (kCardResetHigh ||| kCardActivate ||| kCardBlock512) &&& kCardBlockMask ≠ kCardBlock512 := by decide
  rw [heq, ← hdev]
  rw [decodeCommand_encodeCommand] at hstaged
  simp only [RegisterWindow.startCommand, hstaged, hromcnt]
  have hphase : phaseForOpcode WireOpcode.writeBlock.code = ⟨.consoleToCart, kBlockBytes, kCardBlock512⟩ := by decide
  rw [hphase]
  simp only [Bool.not_true, Bool.false_eq_true, if_false, if_neg hfield, reduceCtorEq, RegisterWindow.openPhase]
  refine ⟨rfl, ⟨rfl, rfl, rfl, rfl, rfl, rfl⟩, ?_⟩
  show 0 < kBlockWords
  decide

/-- An F5, with its response ready to be taken. -/
theorem activate_readBlock (hidle : w.transport.direction = .none) :
    Exactly w.device.countTransfer
      { log := [.readBlock selector word (some kBlockBytes)]
        phase := .reading (wordsOf (w.device.countTransfer.readBlock selector word (some kBlockBytes)).2.2) 0 }
      (stageAndActivate w (encodeCommand WireOpcode.readBlock.code selector word) kCardBlock512) := by
  obtain ⟨w', heq, hdev, -, hstaged, hromcnt⟩ :=
    stageAndActivate_command hidle (encodeCommand WireOpcode.readBlock.code selector word) kCardBlock512
  have hfield : ¬ (kCardResetHigh ||| kCardActivate ||| kCardBlock512) &&& kCardBlockMask ≠ kCardBlock512 := by decide
  have hlen : (w.device.countTransfer.readBlock selector word (some kBlockBytes)).2.2.length = 4 * kBlockWords :=
    Device.readBlock_out_length _ _ _ _
  have hcount : (wordsOf (w.device.countTransfer.readBlock selector word (some kBlockBytes)).2.2).length = kBlockWords := by
    rw [wordsOf_length, hlen]
    exact Nat.mul_div_cancel_left _ (by decide)
  rw [← hdev] at hlen hcount ⊢
  rw [heq]
  rw [decodeCommand_encodeCommand] at hstaged
  simp only [RegisterWindow.startCommand, hstaged, hromcnt]
  have hphase : phaseForOpcode WireOpcode.readBlock.code = ⟨.cartToConsole, kBlockBytes, kCardBlock512⟩ := by decide
  have hopcode : WireOpcode.ofCode WireOpcode.readBlock.code ≠ some .readReg := by decide
  rw [hphase]
  simp only [Bool.not_true, Bool.false_eq_true, if_false, if_neg hfield, reduceCtorEq, RegisterWindow.openPhase,
    RegisterWindow.fetchResponse, if_true, if_neg hopcode]
  exact ⟨rfl, ⟨rfl, rfl, hcount.symm, holdsWords_write _ hlen⟩, Or.inr hcount, by rw [hcount]; decide⟩

end Window

/-! ## What the core makes of the buffers -/

namespace Device

/-- No operation counts itself. -/
theorem step_transfers (s : Device) (op : WireOp) : (s.step op).1.transfers = s.transfers := by
  have h : s.step op = ((s.step op).1.withTransfers s.transfers, (s.step op).2) := step_withTransfers s s.transfers op
  rw [h]
  rfl

/-- Counted and then made, an operation leaves no state as it was. -/
theorem step_countTransfer_ne (s : Device) (op : WireOp) : (s.countTransfer.step op).1 ≠ s := by
  intro h
  have htransfers := step_transfers s.countTransfer op
  rw [h] at htransfers
  exact absurd (UInt64.add_eq_left.mp htransfers.symm) (by decide)

/-- `WriteBlock` looks at the first `len` bytes of the buffer only. -/
theorem writeBlock_take (s : Device) (selector : UInt8) {word : UInt32} {bytes bytes' : List UInt8}
    (hlen : blockLength word ≤ bytes.length) (hlen' : blockLength word ≤ bytes'.length)
    (htake : bytes.take (blockLength word) = bytes'.take (blockLength word)) :
    s.writeBlock selector word (some bytes) = s.writeBlock selector word (some bytes') := by
  have hparse : parse bytes (blockLength word) = parse bytes' (blockLength word) := by
    rw [parse_eq_parseRest hlen, parse_eq_parseRest hlen', htake]
  have hrun : s.processDescriptorBlock bytes (blockLength word) = s.processDescriptorBlock bytes' (blockLength word) := by
    unfold processDescriptorBlock
    rw [hparse]
  have hfits : blockLength word > bytes.length ↔ blockLength word > bytes'.length :=
    ⟨fun h => absurd hlen (Nat.not_le.mpr h), fun h => absurd hlen' (Nat.not_le.mpr h)⟩
  have hwrite : ∀ bs : List UInt8, s.writeBlock selector word (some bs) =
      if selector ≠ kSelectorSubmission ∨ blockLength word = 0 ∨ blockLength word > kBlockBytes ∨
          blockLength word > bs.length then (s.setResult .badBlock, .badBlock)
      else ((s.processDescriptorBlock bs (blockLength word)).1.setResult
        (s.processDescriptorBlock bs (blockLength word)).2, (s.processDescriptorBlock bs (blockLength word)).2) :=
    fun _ => rfl
  rw [hwrite, hwrite, hrun]
  exact if_congr (or_congr_right (or_congr_right (or_congr_right hfits))) rfl rfl

/-- Which records the copy loop takes off the queue does not depend on what is in the buffer. -/
theorem drainLoop_buffer (limit : Nat) : ∀ (turns : Nat) (s : Device) (written : Nat) (out out' : List UInt8),
    (drainLoop limit turns s written out).1 = (drainLoop limit turns s written out').1 := by
  intro turns
  induction turns with
  | zero => intro s written out out'; rfl
  | succ turns ih =>
    intro s written out out'
    simp only [drainLoop]
    split
    · cases s.popCompletion with
      | none => rfl
      | some popped => exact ih _ _ _ _
    · rfl

/-- `ReadBlock` into two buffers that both hold what is asked for: the same state, and the same records in front of
    zeros. -/
theorem readBlock_buffer (s : Device) (selector : UInt8) {word : UInt32} {n m : Nat} (hn : readLength word ≤ n)
    (hm : readLength word ≤ m) (hn0 : n ≠ 0) (hm0 : m ≠ 0) :
    (s.readBlock selector word (some m)).1 = (s.readBlock selector word (some n)).1 ∧
      (s.readBlock selector word (some n)).2.1 ≤ n ∧
      (s.readBlock selector word (some m)).2.2 =
        (s.readBlock selector word (some n)).2.2.take (s.readBlock selector word (some n)).2.1 ++
          List.replicate (m - (s.readBlock selector word (some n)).2.1) 0 := by
  have hlimit : ∀ k, readLength word ≤ k → (if readLength word < k then readLength word else k) = readLength word := by
    intro k hk
    split
    · rfl
    · omega
  have hcount : s.readCount word m = s.readCount word n := by
    rw [readCount, readCount, Nat.min_eq_left hn, Nat.min_eq_left hm]
  refine ⟨?_, ?_, ?_⟩
  · simp only [readBlock]
    rw [if_neg hn0, if_neg hm0]
    split
    · rfl
    · show (drainLoop (if readLength word < m then readLength word else m) _ s 0 _).1.setResult .ok =
        (drainLoop (if readLength word < n then readLength word else n) _ s 0 _).1.setResult .ok
      rw [hlimit m hm, hlimit n hn, drainLoop_buffer _ _ _ _ _ (List.replicate n 0)]
  · rcases s.readBlock_cases selector word (some n) with ⟨heq, -⟩ | ⟨_, q, hb, -, -, heq⟩
    · rw [heq]
      exact Nat.zero_le n
    · cases hb
      have hle : s.readCount word n ≤ min (readLength word) n / kCompletionBytes := Nat.min_le_right _ _
      rw [heq]
      calc kCompletionBytes * s.readCount word n
          ≤ kCompletionBytes * (min (readLength word) n / kCompletionBytes) := Nat.mul_le_mul_left _ hle
        _ ≤ min (readLength word) n := Nat.mul_div_le _ _
        _ ≤ n := Nat.min_le_right _ _
  · rcases s.readBlock_cases selector word (some n) with ⟨heq, hno⟩ | ⟨_, q, hb, hacc, -, heq⟩
    · rcases s.readBlock_cases selector word (some m) with ⟨heq', -⟩ | ⟨_, q, hb', hacc', -⟩
      · rw [heq, heq']
        simp
      · cases hb'
        exact absurd ⟨hn0, hacc'.2⟩ (hno n rfl)
    · cases hb
      rcases s.readBlock_cases selector word (some m) with ⟨-, hno'⟩ | ⟨_, q', hb', -, -, heq'⟩
      · exact absurd ⟨hm0, hacc.2⟩ (hno' m rfl)
      · cases hb'
        have hsize : (recordBytes (s.completions.contents.take (s.readCount word n))).length =
            kCompletionBytes * s.readCount word n := by
          have hle : s.readCount word n ≤ s.completions.count := Nat.min_le_left _ _
          rw [recordBytes_length, List.length_take, Ring.contents_length, Nat.min_eq_left hle]
        rw [heq, heq', hcount]
        simp only
        rw [← hsize, List.take_left]

end Device

namespace NtrDevice

variable {w : NtrDevice} (selector : UInt8) (offset len : UInt16)

/-! ## The wire path -/

/-- **An F4 through the window**, with no transfer open: one transfer, and the core's own `WriteBlock` of the whole
    512 bytes. -/
theorem wireWriteBlock_device (hidle : w.transport.direction = .none) (block : Vector UInt8 kBlockBytes) :
    (wireWriteBlock w selector len block).1.device =
      (w.device.countTransfer.writeBlock selector (encodeWriteBlockWord len) (some block.toList)).1 := by
  have htells := romcntTells_startCommand
  obtain ⟨w', heq, -⟩ := stageAndActivate_command hidle
    (encodeCommand WireOpcode.writeBlock.code selector (encodeWriteBlockWord len)) kCardBlock512
  obtain ⟨v, hissue, hexact⟩ := (fifoRelation_exactly w.device.countTransfer).regIssue_writing
    (t := ⟨encodeCommand WireOpcode.writeBlock.code selector (encodeWriteBlockWord len), block⟩)
    (activate_writeBlock selector (encodeWriteBlockWord len) hidle) (heq ▸ htells w') rfl rfl rfl rfl
  have hwire : wireWriteBlock w selector len block = (v, ⟨true, []⟩) := hissue
  rw [hwire]
  exact hexact.device

/-- **An F5 through the window**, with no transfer open: one transfer, the core's own `ReadBlock` into 512 bytes, and
    those bytes as the response. -/
theorem wireReadBlock_device (hidle : w.transport.direction = .none) :
    let r := w.device.countTransfer.readBlock selector (encodeReadBlockWord offset len) (some kBlockBytes)
    (wireReadBlock w selector offset len).1.device = r.1 ∧
      (wireReadBlock w selector offset len).2.response = r.2.2 := by
  intro r
  have htells := romcntTells_startCommand
  have hlen : r.2.2.length = 4 * kBlockWords := Device.readBlock_out_length _ _ _ _
  have hcount : (wordsOf r.2.2).length = 127 + 1 := by
    rw [wordsOf_length, hlen]
    rfl
  obtain ⟨w', heq, -⟩ := stageAndActivate_command hidle
    (encodeCommand WireOpcode.readBlock.code selector (encodeReadBlockWord offset len)) kCardBlock512
  obtain ⟨v, hissue, hexact⟩ := (fifoRelation_exactly w.device.countTransfer).regIssue_reading
    (t := ⟨encodeCommand WireOpcode.readBlock.code selector (encodeReadBlockWord offset len), Vector.replicate _ 0⟩)
    (activate_readBlock selector (encodeReadBlockWord offset len) hidle) (heq ▸ htells w') rfl hcount rfl rfl
  have hwire : wireReadBlock w selector offset len = (v, ⟨true, (wordsOf r.2.2).flatMap le32⟩) := hissue
  rw [hwire]
  exact ⟨hexact.device, flatMap_le32_wordsOf hlen⟩

/-- With a transfer open the three stores start nothing, and the driver finds no DATA_READY in what it has just
    written. -/
theorem stageAndActivate_open (hopen : w.transport.direction ≠ .none) (command : CommandBytes) :
    (stageAndActivate w command kCardBlock512).device = w.device ∧
      load32 (stageAndActivate w command kCardBlock512).regs kRegRomCnt &&& kCardDataReady = 0 := by
  simp only [stageAndActivate, write32_cmd0, write32_cmd1]
  rw [write32_romcnt_cases _ _ rfl (by decide), if_neg (fun h => hopen h.2), load32_store32_same]
  exact ⟨rfl, by decide⟩

/-- **With a transfer open** neither command reaches the core. -/
theorem wireWriteBlock_open (hopen : w.transport.direction ≠ .none) (block : Vector UInt8 kBlockBytes) :
    (wireWriteBlock w selector len block).1.device = w.device := by
  obtain ⟨hdev, hready⟩ := stageAndActivate_open hopen
    (encodeCommand WireOpcode.writeBlock.code selector (encodeWriteBlockWord len))
  have hphase : phaseForOpcode (encodeCommand WireOpcode.writeBlock.code selector (encodeWriteBlockWord len)).opcode =
      ⟨.consoleToCart, kBlockBytes, kCardBlock512⟩ := rfl
  rw [wireWriteBlock, regIssue_dropped (n := 127) (by rw [hphase]; simp) (by rw [hphase]; simp [tooShort])
    (by rw [hphase]; rfl) (by rw [hphase]; exact hready), hphase]
  exact hdev

theorem wireReadBlock_open (hopen : w.transport.direction ≠ .none) :
    (wireReadBlock w selector offset len).1.device = w.device := by
  obtain ⟨hdev, hready⟩ := stageAndActivate_open hopen
    (encodeCommand WireOpcode.readBlock.code selector (encodeReadBlockWord offset len))
  have hphase : phaseForOpcode (encodeCommand WireOpcode.readBlock.code selector (encodeReadBlockWord offset len)).opcode =
      ⟨.cartToConsole, kBlockBytes, kCardBlock512⟩ := rfl
  rw [wireReadBlock, regIssue_dropped (n := 127) (by rw [hphase]; simp [tooShort]) (by rw [hphase]; simp)
    (by rw [hphase]; rfl) (by rw [hphase]; exact hready), hphase]
  exact hdev

/-! ## The direct calls -/

theorem blockLength_encode : Device.blockLength (encodeWriteBlockWord len) = len.toNat := by
  have hlt : len.toNat < 2 ^ 16 := len.toNat_lt
  rw [Device.blockLength, encodeWriteBlockWord, UInt32.toNat_and, UInt16.toNat_toUInt32]
  show len.toNat &&& (2 ^ 16 - 1) = len.toNat
  rw [Nat.and_two_pow_sub_one_eq_mod, Nat.mod_eq_of_lt hlt]

theorem readLength_encode : Device.readLength (encodeReadBlockWord offset len) = len.toNat := by
  have hlen : len.toNat < 2 ^ 16 := len.toNat_lt
  have hoff : offset.toNat < 2 ^ 16 := offset.toNat_lt
  have hword : (encodeReadBlockWord offset len).toNat = len.toNat * 2 ^ 16 + offset.toNat := by
    rw [encodeReadBlockWord, UInt32.toNat_or, UInt32.toNat_shiftLeft, UInt16.toNat_toUInt32, UInt16.toNat_toUInt32]
    show len.toNat <<< 16 % 2 ^ 32 ||| offset.toNat = _
    rw [Nat.mod_eq_of_lt (by rw [Nat.shiftLeft_eq]; omega), shiftLeft_or_of_lt _ hoff]
  rw [Device.readLength, UInt32.toNat_shiftRight, hword]
  show (len.toNat * 2 ^ 16 + offset.toNat) >>> 16 = len.toNat
  rw [Nat.shiftRight_eq_div_pow]
  omega

/-- A length outside 1..512, refused by the core. -/
theorem writeBlock_out_of_range {len : UInt16} (h : len.toNat = 0 ∨ len.toNat > kBlockBytes) (d : Device)
    (bytes : List UInt8) :
    d.writeBlock selector (encodeWriteBlockWord len) (some bytes) = (d.setResult .badBlock, .badBlock) := by
  rcases d.writeBlock_cases selector (encodeWriteBlockWord len) (some bytes) with ⟨heq, -⟩ | ⟨_, -, hacc, -⟩
  · exact heq
  · obtain ⟨-, hpos, hle, -⟩ := hacc
    rw [blockLength_encode] at hpos hle
    omega

theorem readBlock_out_of_range {len : UInt16} (h : len.toNat = 0 ∨ len.toNat > kBlockBytes) (d : Device) (n : Nat) :
    d.readBlock selector (encodeReadBlockWord offset len) (some n) =
      (d.setResult .badBlock, 0, List.replicate n 0) := by
  rcases d.readBlock_cases selector (encodeReadBlockWord offset len) (some n) with ⟨heq, -⟩ | ⟨_, _, -, hacc, -⟩
  · exact heq
  · obtain ⟨-, -, -, hpos, hle⟩ := hacc
    rw [readLength_encode] at hpos hle
    omega

/-- Counting a transfer, the core says `kBadBlock` without a trace iff it had said so before. -/
theorem setResult_badBlock_iff (d : Device) :
    d.countTransfer = d.countTransfer.setResult .badBlock ↔ d.stage kResult = Status.badBlock.code := by
  constructor
  · intro h
    have hstage : d.countTransfer.stage kResult = (d.countTransfer.setResult .badBlock).stage kResult := by rw [← h]
    rw [Device.setResult_result] at hstage
    exact hstage
  · intro h
    have hstage : Function.update d.stage kResult Status.badBlock.code = d.stage := by rw [← h, Function.update_eq_self]
    show d.countTransfer = { d.countTransfer with stage := Function.update d.stage kResult Status.badBlock.code }
    rw [hstage]
    rfl

section Calls

variable {len}

theorem writeBlock_refused_early (h : len.toNat = 0 ∨ len.toNat > kBlockBytes) (data : List UInt8) :
    (writeBlock w selector (some data) len.toNat).1.device = w.device.countTransfer := by
  simp only [writeBlock]
  rw [if_pos h]
  rfl

theorem writeBlock_passed_on (h : ¬ (len.toNat = 0 ∨ len.toNat > kBlockBytes)) (data : List UInt8) :
    (writeBlock w selector (some data) len.toNat).1.device =
      (w.device.countTransfer.writeBlock selector (encodeWriteBlockWord len) (some (data.take len.toNat))).1 := by
  simp only [writeBlock]
  rw [if_neg h, UInt16.ofNat_toNat]
  rfl

theorem readBlock_refused_early (h : len.toNat = 0 ∨ len.toNat > kBlockBytes) (out : List UInt8) :
    readBlock w selector offset (some out) len.toNat = (countTransfer w, 0, out) := by
  simp only [readBlock]
  rw [if_pos h]

theorem readBlock_passed_on (h : ¬ (len.toNat = 0 ∨ len.toNat > kBlockBytes)) (out : List UInt8) :
    let r := w.device.countTransfer.readBlock selector (encodeReadBlockWord offset len) (some len.toNat)
    (readBlock w selector offset (some out) len.toNat).1.device = r.1 ∧
      (readBlock w selector offset (some out) len.toNat).2 = (r.2.1, splice out 0 r.2.2) := by
  simp only [readBlock]
  rw [if_neg h, UInt16.ofNat_toNat]
  exact ⟨rfl, rfl⟩

end Calls

/-! ## When the two agree -/

/-- The data phase `block` carries the first `len` bytes of `data`; of more than a block, the first 512. -/
def OnWire (data : List UInt8) (len : Nat) (block : Vector UInt8 kBlockBytes) : Prop :=
  len ≤ data.length ∧ block.toList.take len = (data.take kBlockBytes).take len

instance (data : List UInt8) (len : Nat) (block : Vector UInt8 kBlockBytes) : Decidable (OnWire data len block) :=
  inferInstanceAs (Decidable (_ ∧ _))

/-- No transfer is open, and the length is one that the core does not refuse, or RESULT says `kBadBlock` as it is. -/
def CallsCarry (w : NtrDevice) (len : UInt16) : Prop :=
  w.transport.transferActive = false ∧
    (0 < len.toNat ∧ len.toNat ≤ kBlockBytes ∨ w.device.stage kResult = Status.badBlock.code)

instance (w : NtrDevice) (len : UInt16) : Decidable (CallsCarry w len) := inferInstanceAs (Decidable (_ ∧ _))

section Agree

variable {selector offset len}

/-- With no transfer open and a length both checks let through, or none does. -/
theorem callsCarry_iff_of_idle (hidle : w.transport.direction = .none) :
    CallsCarry w len ↔ (len.toNat = 0 ∨ len.toNat > kBlockBytes → w.device.stage kResult = Status.badBlock.code) := by
  unfold CallsCarry
  rw [iff_true_intro ((transferActive_iff_not _).mpr hidle), true_and]
  constructor
  · rintro (⟨hpos, hle⟩ | hresult) hout
    · omega
    · exact hresult
  · intro h
    by_cases hin : 0 < len.toNat ∧ len.toNat ≤ kBlockBytes
    · exact Or.inl hin
    · exact Or.inr (h (by omega))

theorem not_callsCarry_of_open (hopen : w.transport.direction ≠ .none) : ¬ CallsCarry w len :=
  fun h => hopen ((transferActive_iff_not _).mp h.1)

theorem writeBlock_agrees_iff {data : List UInt8} {block : Vector UInt8 kBlockBytes} (hwire : OnWire data len.toNat block) :
    (writeBlock w selector (some data) len.toNat).1.device = (wireWriteBlock w selector len block).1.device ↔
      CallsCarry w len := by
  by_cases hidle : w.transport.direction = .none
  · rw [wireWriteBlock_device selector len hidle, callsCarry_iff_of_idle hidle]
    by_cases hout : len.toNat = 0 ∨ len.toNat > kBlockBytes
    · -- refused on both sides, but only the core says so
      rw [writeBlock_refused_early selector hout, writeBlock_out_of_range selector hout, setResult_badBlock_iff]
      exact ⟨fun h _ => h, fun h => h hout⟩
    · refine iff_of_true ?_ (fun h => absurd h hout)
      have hlen : len.toNat ≤ kBlockBytes := by omega
      rw [writeBlock_passed_on selector hout]
      refine congrArg Prod.fst (Device.writeBlock_take _ _ ?_ ?_ ?_)
      · rw [blockLength_encode, List.length_take, Nat.min_eq_left hwire.1]
      · rw [blockLength_encode, Vector.length_toList]
        exact hlen
      · rw [blockLength_encode, List.take_take, Nat.min_self, hwire.2, List.take_take, Nat.min_eq_left hlen]
  · -- the wire path reaches nothing; the call has at least been counted
    rw [wireWriteBlock_open selector len hidle]
    refine iff_of_false ?_ (not_callsCarry_of_open hidle)
    by_cases hout : len.toNat = 0 ∨ len.toNat > kBlockBytes
    · rw [writeBlock_refused_early selector hout]
      exact w.device.step_countTransfer_ne (.readReg 0)
    · rw [writeBlock_passed_on selector hout]
      exact w.device.step_countTransfer_ne (.writeBlock selector (encodeWriteBlockWord len) (some (data.take len.toNat)))

theorem readBlock_agrees_iff (out : List UInt8) :
    (readBlock w selector offset (some out) len.toNat).1.device = (wireReadBlock w selector offset len).1.device ∧
      (wireReadBlock w selector offset len).2.response =
        (readBlock w selector offset (some out) len.toNat).2.2.take (readBlock w selector offset (some out) len.toNat).2.1 ++
          List.replicate (kBlockBytes - (readBlock w selector offset (some out) len.toNat).2.1) 0 ↔
      CallsCarry w len := by
  by_cases hidle : w.transport.direction = .none
  · obtain ⟨hdevice, hresponse⟩ := wireReadBlock_device selector offset len hidle
    rw [hdevice, hresponse, callsCarry_iff_of_idle hidle]
    by_cases hout : len.toNat = 0 ∨ len.toNat > kBlockBytes
    · rw [readBlock_refused_early selector offset hout, readBlock_out_of_range selector offset hout]
      refine ⟨fun h _ => (setResult_badBlock_iff _).mp h.1, fun h => ⟨(setResult_badBlock_iff _).mpr (h hout), ?_⟩⟩
      rw [List.take_zero, List.nil_append, Nat.sub_zero]
    · refine iff_of_true ?_ (fun h => absurd h hout)
      have hpos : len.toNat ≠ 0 := by omega
      have hle : Device.readLength (encodeReadBlockWord offset len) ≤ kBlockBytes := by rw [readLength_encode]; omega
      obtain ⟨hstate, hwritten, hrecords⟩ := w.device.countTransfer.readBlock_buffer selector
        (Nat.le_of_eq (readLength_encode offset len)) hle hpos (by decide)
      obtain ⟨hcall, hreturned⟩ := readBlock_passed_on (w := w) selector offset hout out
      rw [hcall, hreturned, hrecords]
      refine ⟨hstate.symm, ?_⟩
      simp only [splice, List.take_zero, List.nil_append]
      rw [List.take_append_of_le_length]
      rw [Device.readBlock_out_length]
      exact hwritten
  · rw [wireReadBlock_open selector offset len hidle]
    refine iff_of_false (fun h => ?_) (not_callsCarry_of_open hidle)
    by_cases hout : len.toNat = 0 ∨ len.toNat > kBlockBytes
    · rw [readBlock_refused_early selector offset hout] at h
      exact w.device.step_countTransfer_ne (.readReg 0) h.1
    · rw [(readBlock_passed_on selector offset hout out).1] at h
      exact w.device.step_countTransfer_ne (.readBlock selector (encodeReadBlockWord offset len) (some len.toNat)) h.1

end Agree

/-- **When a block call agrees with its own wire path.** In every reachable state, for every selector, offset, length and
    data: `WriteBlock` leaves the core as the F4 through the window does, and `ReadBlock` leaves it as the F5 does and
    returns the records that stand, in front of zeros, in its response, iff no transfer is open and the length is between
    1 and 512 or RESULT holds `kBadBlock` already. -/
theorem block_calls_agree_iff (localBytes : UInt32) (calls : List Call) (selector : UInt8) (offset len : UInt16) :
    let w := (machine localBytes).run calls
    (∀ data block, OnWire data len.toNat block →
      ((writeBlock w selector (some data) len.toNat).1.device = (wireWriteBlock w selector len block).1.device ↔
        CallsCarry w len)) ∧
    ∀ out : List UInt8,
      let read := readBlock w selector offset (some out) len.toNat
      read.1.device = (wireReadBlock w selector offset len).1.device ∧
          (wireReadBlock w selector offset len).2.response =
            read.2.2.take read.2.1 ++ List.replicate (kBlockBytes - read.2.1) 0 ↔
        CallsCarry w len := by
  intro w
  exact ⟨fun _ _ hwire => writeBlock_agrees_iff hwire, fun out => readBlock_agrees_iff out⟩

/-- A descriptor's worth of bytes, to a fresh device. -/
theorem block_calls_agree_descriptor :
    let w := (machine 65536).run []
    CallsCarry w 64 ∧
      (writeBlock w kSelectorSubmission (some (List.replicate 64 1)) 64).1.device =
        (wireWriteBlock w kSelectorSubmission 64 (Vector.replicate _ 1)).1.device := by
  have hcarry : CallsCarry ((machine 65536).run []) 64 := by decide
  have hwire : OnWire (List.replicate 64 1) (64 : UInt16).toNat (Vector.replicate _ 1) := by decide
  exact ⟨hcarry, ((block_calls_agree_iff 65536 [] kSelectorSubmission 0 64).1 _ _ hwire).mpr hcarry⟩

/-- An empty block: the wire path reports `kBadBlock`, the call leaves RESULT at `kOk`. -/
theorem block_call_refused_silently :
    let w := (machine 65536).run []
    let called := (writeBlock w kSelectorSubmission (some []) 0).1
    let issued := (wireWriteBlock w kSelectorSubmission 0 (Vector.replicate _ 0)).1
    called.device.stage kResult = Status.ok.code ∧ issued.device.stage kResult = Status.badBlock.code ∧
      called.device ≠ issued.device := by
  have hcalled : (writeBlock ((machine 65536).run []) kSelectorSubmission (some []) 0).1.device.stage kResult =
      Status.ok.code := by decide
  have hissued : (wireWriteBlock ((machine 65536).run []) kSelectorSubmission 0
      (Vector.replicate _ 0)).1.device.stage kResult = Status.badBlock.code := by
    rw [wireWriteBlock_device kSelectorSubmission 0 rfl, writeBlock_out_of_range _ (Or.inl rfl), Device.setResult_result]
  refine ⟨hcalled, hissued, fun h => ?_⟩
  rw [h, hissued] at hcalled
  exact absurd hcalled (by decide)

end NtrDevice

end GekkoPak
