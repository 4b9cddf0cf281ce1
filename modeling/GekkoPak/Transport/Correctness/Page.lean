import GekkoPak.Transport.Correctness.Atomic
import GekkoPak.Transport.Correctness.Protocol
import GekkoPak.Transport.Correctness.Romcnt

/-!
# `Transport.Correctness.Page` — the register page carries every transaction

`RegIssue` stages a command, activates it and moves words while DATA_READY is set. `RomcntTells` says that the bits
the loop waits for are there; what the device and the FIFO do meanwhile is said by any relation to the atomic machine
that FIFO accesses keep (`FifoRelation`). Together they give the loop its two invariants
(`FifoRelation.moveWords_reading`, `FifoRelation.moveWords_writing`); `Refines` is the relation the transactions of
this file use.
-/

namespace GekkoPak

open Basis

variable {s : Device} {t : Transaction}
variable {config : Config} {a : Atomic} {w : RegisterWindow}

/-! ## Single accesses -/

theorem write32_cmd0 (w : RegisterWindow) (value : UInt32) :
    w.write32 (UInt32.ofNat kRegCommand) value = { w with regs := store32 w.regs kRegCommand value } := rfl

theorem write32_cmd1 (w : RegisterWindow) (value : UInt32) :
    w.write32 (UInt32.ofNat (kRegCommand + 4)) value
      = { w with regs := store32 w.regs (kRegCommand + 4) value } := rfl

theorem write32_romcnt {value : UInt32} (hidle : w.transport.direction = .none)
    (hact : value &&& kCardActivate ≠ 0) :
    w.write32 (UInt32.ofNat kRegRomCnt) value
      = { w with regs := store32 w.regs kRegRomCnt value }.startCommand := by
  unfold RegisterWindow.write32
  rw [if_neg (by decide), if_neg (by decide)]
  exact if_pos ⟨rfl, hact, hidle⟩

theorem write32_fifo (w : RegisterWindow) (value : UInt32) :
    w.write32 (UInt32.ofNat kRegFifo) value = w.writeFifo value := rfl

theorem read32_romcnt (w : RegisterWindow) :
    w.read32 (UInt32.ofNat kRegRomCnt) = (w, load32 w.regs kRegRomCnt) := rfl

theorem read32_fifo (w : RegisterWindow) : w.read32 (UInt32.ofNat kRegFifo) = w.readFifo := rfl

theorem commandOf_toList (command : CommandBytes) : commandOf command.toList = command := by
  apply Vector.ext
  intro i hi
  simp [commandOf, List.getD]

/-- The two words staged for a command are its eight bytes. -/
theorem commandOf_words (command : CommandBytes) :
    commandOf (le32 (ofLe32 (slice command.toList 0 4)) ++ le32 (ofLe32 (slice command.toList 4 4)))
      = command := by
  have hlen : command.toList.length = 8 := by simp
  rw [le32_ofLe32 (slice_length (by omega)), le32_ofLe32 (slice_length (by omega)), slice_join (by omega),
    slice_eq_self hlen]
  exact commandOf_toList command

/-- The block field `RegIssue` programs is the one the opcode calls for. -/
theorem romcnt_blockField (opcode : UInt8) :
    (kCardResetHigh ||| kCardActivate ||| (phaseForOpcode opcode).blockField) &&& kCardBlockMask
      = (phaseForOpcode opcode).blockField := by
  unfold phaseForOpcode
  cases WireOpcode.ofCode opcode with
  | none => decide
  | some code => cases code <;> decide

theorem romcnt_activate (x : UInt32) : (kCardResetHigh ||| kCardActivate ||| x) &&& kCardActivate ≠ 0 := by
  rw [UInt32.or_comm kCardResetHigh, UInt32.or_assoc, UInt32.or_comm, or_and_same]
  decide

theorem stageAndActivate_eq (hidle : w.transport.direction = .none) (command : CommandBytes)
    (blockField : UInt32) :
    stageAndActivate w command blockField =
      { w with regs := (store32 (store32 (store32 w.regs kRegCommand (ofLe32 (slice command.toList 0 4)))
          (kRegCommand + 4) (ofLe32 (slice command.toList 4 4))) kRegRomCnt
          (kCardResetHigh ||| kCardActivate ||| blockField)) }.startCommand := by
  simp only [stageAndActivate, write32_cmd0, write32_cmd1]
  exact write32_romcnt hidle (romcnt_activate _)

/-- **Staging and activating** a protocol command is an admitted activation. -/
theorem Refines.stageAndActivate (h : Refines config a w) (hidle : a.phase = .idle)
    (command : CommandBytes) :
    ∃ a' : Atomic, a'.log = a.log ∧ a'.phase = .idle ∧ a'.command = decodeCommand command ∧
      Refines config
        (a'.activate config (kCardResetHigh ||| kCardActivate ||| (phaseForOpcode command.opcode).blockField))
        (stageAndActivate w command (phaseForOpcode command.opcode).blockField) ∧
      RomcntTells (stageAndActivate w command (phaseForOpcode command.opcode).blockField) := by
  have hdir : w.transport.direction = .none := h.direction_none.mpr hidle
  have hstored := ((h.storeCmd0 (ofLe32 (slice command.toList 0 4))).storeCmd1
    (ofLe32 (slice command.toList 4 4))).store kRegRomCnt
      (kCardResetHigh ||| kCardActivate ||| (phaseForOpcode command.opcode).blockField) (Or.inl (by decide))
  have hstart := hstored.startCommand hidle
  rw [load32_store32_same] at hstart
  rw [stageAndActivate_eq hdir]
  exact ⟨{ a with cmd0 := ofLe32 (slice command.toList 0 4), cmd1 := ofLe32 (slice command.toList 4 4) }, rfl,
    hidle, congrArg decodeCommand (commandOf_words command), hstart, romcntTells_startCommand _⟩

/-! ## The word loop -/

/-- A relation between the two machines that says when a transfer is open and that FIFO accesses keep. -/
structure FifoRelation (R : Atomic → RegisterWindow → Prop) : Prop where
  direction_none : ∀ {a w}, R a w → (w.transport.direction = .none ↔ a.phase = .idle)
  readFifo       : ∀ {a w}, R a w → R a.takeWord.1 w.readFifo.1 ∧ w.readFifo.2 = a.takeWord.2
  writeFifo      : ∀ {a w}, R a w → ∀ value, R (a.giveWord value) (w.writeFifo value)

theorem fifoRelation_refines (config : Config) : FifoRelation (Refines config) where
  direction_none := Refines.direction_none
  readFifo := Refines.readFifo
  writeFifo := Refines.writeFifo

section Loop

variable {R : Atomic → RegisterWindow → Prop} (hR : FifoRelation R)

include hR

/-- DATA_READY is up while a phase is open. -/
theorem FifoRelation.dataReady (h : R a w) (htells : RomcntTells w) (hopen : a.phase ≠ .idle) :
    load32 w.regs kRegRomCnt &&& kCardDataReady ≠ 0 :=
  htells.1 (fun hdir => hopen ((hR.direction_none h).mp hdir))

/-- One turn of the loop towards the console. -/
theorem FifoRelation.moveWords_reading_succ (h : R a w) (htells : RomcntTells w) (hopen : a.phase ≠ .idle)
    {input out : List UInt8} {left word : Nat} :
    moveWords .cartToConsole input (left + 1) word w out =
      moveWords .cartToConsole input left (word + 1) w.readFifo.1
        (splice out (word * 4) (le32 w.readFifo.2)) := by
  simp only [moveWords, read32_romcnt, read32_fifo]
  rw [if_neg (hR.dataReady h htells hopen), if_pos trivial]

omit hR in
/-- What taking one word does to the phase, and to a response buffer filled so far. -/
theorem takeWord_out {response : List UInt32} {word : Nat} (pad : List UInt8)
    (hp : a.phase = .reading response word) (hword : word < response.length) :
    a.takeWord.1 = { a with phase :=
        if word + 1 = response.length then .idle else .reading response (word + 1) } ∧
      splice ((response.take word).flatMap le32 ++ pad) (word * 4) (le32 a.takeWord.2)
        = (response.take (word + 1)).flatMap le32 ++ pad.drop 4 := by
  simp only [Atomic.takeWord, hp, true_and]
  have hlen : ((response.take word).flatMap le32).length = word * 4 := by
    rw [flatMap_le32_length, List.length_take, Nat.min_eq_left (by omega), Nat.mul_comm]
  have hget : response.getD word 0 = response[word] := by simp [List.getD, hword]
  rw [← hlen, splice_append, le32_length, hget, List.take_succ_eq_append_getElem hword, List.flatMap_append,
    List.flatMap_singleton]

/-- **The word loop, towards the console.** With `word` words already copied out, it takes the rest of the
    response, each word offered in turn, and closes the transfer. -/
theorem FifoRelation.moveWords_reading {response : List UInt32} (input : List UInt8) :
    ∀ (n word : Nat) (a : Atomic) (w : RegisterWindow) (pad : List UInt8), R a w → RomcntTells w →
      a.phase = .reading response word → word + (n + 1) = response.length → pad.length = 4 * (n + 1) →
      ∃ w', moveWords .cartToConsole input (n + 1) word w ((response.take word).flatMap le32 ++ pad)
          = (w', true, response.flatMap le32) ∧
        R { a with phase := .idle } w' ∧ RomcntTells w' := by
  -- on the words left; the last one closes the transfer, so the base case is one word and not none
  intro n
  induction n with
  | zero =>
    intro word a w pad h htells hp hlen hpad
    obtain ⟨hnext, hout⟩ := takeWord_out pad hp (by omega)
    obtain ⟨hread, hvalue⟩ := hR.readFifo h
    rw [hnext, if_pos (by omega)] at hread
    refine ⟨w.readFifo.1, ?_, hread, htells.readFifo⟩
    rw [hR.moveWords_reading_succ h htells (by rw [hp]; simp), hvalue, hout, moveWords,
      List.take_of_length_le (by omega), List.drop_eq_nil_of_le (by omega), List.append_nil]
  | succ n ih =>
    intro word a w pad h htells hp hlen hpad
    obtain ⟨hnext, hout⟩ := takeWord_out pad hp (by omega)
    obtain ⟨hread, hvalue⟩ := hR.readFifo h
    rw [hnext, if_neg (by omega)] at hread
    obtain ⟨w', hmove, hrefines, htells'⟩ := ih (word + 1) _ w.readFifo.1 (pad.drop 4) hread htells.readFifo rfl
      (by omega) (by rw [List.length_drop]; omega)
    refine ⟨w', ?_, hrefines, htells'⟩
    rw [hR.moveWords_reading_succ h htells (by rw [hp]; simp), hvalue, hout]
    exact hmove

/-- One turn of the loop towards the cartridge. -/
theorem FifoRelation.moveWords_writing_succ (h : R a w) (htells : RomcntTells w) (hopen : a.phase ≠ .idle)
    {input out : List UInt8} {left word : Nat} :
    moveWords .consoleToCart input (left + 1) word w out =
      moveWords .consoleToCart input left (word + 1)
        (w.writeFifo (ofLe32 (slice input (word * 4) 4))) out := by
  simp only [moveWords, read32_romcnt, write32_fifo, reduceCtorEq, if_false]
  rw [if_neg (hR.dataReady h htells hopen)]

omit hR in
/-- What giving the next word of `input` does to the phase. -/
theorem giveWord_input {selector : UInt8} {cmdWord : UInt32} {input : List UInt8} {word : Nat}
    (hinput : input.length = 4 * kBlockWords) (hword : word < kBlockWords)
    (hp : a.phase = .writing selector cmdWord ((wordsOf input).take word)) :
    a.giveWord (ofLe32 (slice input (word * 4) 4)) =
      if word + 1 = kBlockWords then { a.apply (.writeBlock selector cmdWord (some input)) with phase := .idle }
      else { a with phase := .writing selector cmdWord ((wordsOf input).take (word + 1)) } := by
  have hlen : (wordsOf input).length = kBlockWords := by
    rw [wordsOf_length, hinput]
    exact Nat.mul_div_cancel_left _ (by decide)
  have hlt : word < (wordsOf input).length := by rw [hlen]; exact hword
  have hget : (wordsOf input)[word] = ofLe32 (slice input (word * 4) 4) := by
    simp [wordsOf, Nat.mul_comm]
  have htake : (wordsOf input).take word ++ [ofLe32 (slice input (word * 4) 4)] = (wordsOf input).take (word + 1) := by
    rw [List.take_succ_eq_append_getElem hlt, hget]
  have htakeLen : ((wordsOf input).take (word + 1)).length = word + 1 := by
    rw [List.length_take, hlen]
    exact Nat.min_eq_left hword
  simp only [Atomic.giveWord, hp, htake, htakeLen]
  by_cases hlast : word + 1 = kBlockWords
  · rw [if_pos hlast, if_pos hlast, hlast, List.take_of_length_le (Nat.le_of_eq hlen),
      flatMap_le32_wordsOf hinput]
  · rw [if_neg hlast, if_neg hlast]

/-- **The word loop, towards the cartridge.** With `word` words already written, it supplies the rest of the
    block; the device sees one F4 with exactly `input`. -/
theorem FifoRelation.moveWords_writing {selector : UInt8} {cmdWord : UInt32} {input : List UInt8}
    (hinput : input.length = 4 * kBlockWords) (out : List UInt8) :
    ∀ (n word : Nat) (a : Atomic) (w : RegisterWindow), R a w → RomcntTells w →
      a.phase = .writing selector cmdWord ((wordsOf input).take word) → word + (n + 1) = kBlockWords →
      ∃ w', moveWords .consoleToCart input (n + 1) word w out = (w', true, out) ∧
        R { a.apply (.writeBlock selector cmdWord (some input)) with phase := .idle } w' ∧
        RomcntTells w' := by
  intro n
  -- the same induction; here the last word also applies the F4
  induction n with
  | zero =>
    intro word a w h htells hp hlen
    have hgive := hR.writeFifo h (ofLe32 (slice input (word * 4) 4))
    rw [giveWord_input hinput (by omega) hp, if_pos hlen] at hgive
    refine ⟨_, ?_, hgive, htells.writeFifo _⟩
    rw [hR.moveWords_writing_succ h htells (by rw [hp]; simp), moveWords]
  | succ n ih =>
    intro word a w h htells hp hlen
    have hgive := hR.writeFifo h (ofLe32 (slice input (word * 4) 4))
    rw [giveWord_input hinput (by omega) hp, if_neg (by omega)] at hgive
    obtain ⟨w', hmove, hrefines, htells'⟩ := ih (word + 1) _ _ hgive (htells.writeFifo _) rfl (by omega)
    refine ⟨w', ?_, hrefines, htells'⟩
    rw [hR.moveWords_writing_succ h htells (by rw [hp]; simp)]
    exact hmove

omit hR in
/-- `RegIssue`, once the data phase is known to go through and the transfer to be closed. -/
theorem regIssue_carried {command : CommandBytes} {input : Option (List UInt8)} {outLen : Option Nat}
    {w' : RegisterWindow} {out : List UInt8}
    (hout : ¬ ((phaseForOpcode command.opcode).direction = .cartToConsole ∧
      tooShort outLen (phaseForOpcode command.opcode).bytes = true))
    (hin : ¬ ((phaseForOpcode command.opcode).direction = .consoleToCart ∧
      tooShort (input.map List.length) (phaseForOpcode command.opcode).bytes = true))
    (hmove : moveWords (phaseForOpcode command.opcode).direction (input.getD [])
      ((phaseForOpcode command.opcode).bytes / 4) 0
      (stageAndActivate w command (phaseForOpcode command.opcode).blockField) (zeroed outLen) = (w', true, out))
    (htells : RomcntTells w') (hclosed : w'.transport.direction = .none) :
    regIssue w command input outLen = (w', ⟨true, out⟩) := by
  simp only [regIssue]
  rw [if_neg hout, if_neg hin, hmove]
  simp only [read32_romcnt, htells.2 hclosed, beq_self_eq_true]

/-- A transaction that is over with its activation. -/
theorem FifoRelation.regIssue_immediate (h : R a (stageAndActivate w t.command (phaseForOpcode t.command.opcode).blockField))
    (htells : RomcntTells (stageAndActivate w t.command (phaseForOpcode t.command.opcode).blockField))
    (hidle : a.phase = .idle) (hphase : phaseForOpcode t.command.opcode = ⟨.none, 0, kCardBlockNone⟩)
    (hlen : t.outLen = none) :
    regIssue w t.command t.input t.outLen =
      (stageAndActivate w t.command (phaseForOpcode t.command.opcode).blockField, ⟨true, []⟩) := by
  apply regIssue_carried _ _ _ htells ((hR.direction_none h).mpr hidle)
  · simp [hphase]
  · simp [hphase]
  · rw [hphase, hlen]
    rfl

/-- A transaction whose response is `n + 1` words. -/
theorem FifoRelation.regIssue_reading {response : List UInt32} {n : Nat} {field : UInt32}
    (h : R a (stageAndActivate w t.command (phaseForOpcode t.command.opcode).blockField))
    (htells : RomcntTells (stageAndActivate w t.command (phaseForOpcode t.command.opcode).blockField))
    (hp : a.phase = .reading response 0) (hresponse : response.length = n + 1)
    (hphase : phaseForOpcode t.command.opcode = ⟨.cartToConsole, 4 * (n + 1), field⟩)
    (hlen : t.outLen = some (4 * (n + 1))) :
    ∃ w', regIssue w t.command t.input t.outLen = (w', ⟨true, response.flatMap le32⟩) ∧
      R { a with phase := .idle } w' := by
  obtain ⟨w', hmove, hclosed, htells'⟩ := hR.moveWords_reading (t.input.getD []) n 0 a _
    (zeroed t.outLen) h htells hp (by omega) (by simp [zeroed, hlen])
  refine ⟨w', regIssue_carried ?_ ?_ ?_ htells' ((hR.direction_none hclosed).mpr rfl), hclosed⟩
  · simp [hphase, hlen, tooShort]
  · simp [hphase]
  · rw [hphase] at hmove ⊢
    rw [Nat.mul_div_cancel_left _ (by decide)]
    exact hmove

/-- An F4. -/
theorem FifoRelation.regIssue_writing {selector : UInt8} {cmdWord : UInt32} {field : UInt32}
    (h : R a (stageAndActivate w t.command (phaseForOpcode t.command.opcode).blockField))
    (htells : RomcntTells (stageAndActivate w t.command (phaseForOpcode t.command.opcode).blockField))
    (hp : a.phase = .writing selector cmdWord [])
    (hphase : phaseForOpcode t.command.opcode = ⟨.consoleToCart, kBlockBytes, field⟩)
    (hlen : t.outLen = none) (hin : t.input = some t.payload.toList) :
    ∃ w', regIssue w t.command t.input t.outLen = (w', ⟨true, []⟩) ∧
      R { a.apply (.writeBlock selector cmdWord (some t.payload.toList)) with phase := .idle } w' := by
  have hpayload : t.payload.toList.length = 4 * kBlockWords := Vector.length_toList
  obtain ⟨w', hmove, hclosed, htells'⟩ := hR.moveWords_writing hpayload [] 127 0 a _ h htells hp rfl
  refine ⟨w', regIssue_carried ?_ ?_ ?_ htells' ((hR.direction_none hclosed).mpr rfl), hclosed⟩
  · simp [hphase]
  · simp [hphase, hin, tooShort]
  · rw [hphase] at hmove ⊢
    rw [hlen, hin]
    show moveWords .consoleToCart t.payload.toList (kBlockBytes / 4) 0 _ [] = _
    rw [show kBlockBytes / 4 = 127 + 1 from rfl]
    exact hmove

end Loop

/-! ## Every transaction -/

/-- Between transactions: no transfer is open, and the log of operations leads to `s`. -/
def OnPage (s : Device) (w : RegisterWindow) : Prop :=
  ∃ a : Atomic, Refines conformanceConfig a w ∧ a.phase = .idle ∧ s = Device.after conformanceConfig a.log

/-- A transaction that has logged its operation, closed the transfer and answered the operation's bytes. -/
theorem onPage_of_op {op : WireOp} (hop : t.op = some op) {log : List WireOp} {answer : Answer}
    (hs : s = Device.after conformanceConfig log) (h : Refines conformanceConfig a w) (hidle : a.phase = .idle)
    (hlog : a.log = log ++ [op]) (hanswer : answer = ⟨true, (s.step op).2.bytes⟩) :
    OnPage (protocol.next s t) w ∧ answer = protocol.out s t := by
  refine ⟨⟨a, h, hidle, ?_⟩, ?_⟩
  · rw [Machine.next, protocol_step_some hop, hs, hlog]
    exact (Machine.run_concat (Device.machine conformanceConfig) log op).symm
  · rw [Machine.out, protocol_step_some hop, hanswer]

theorem regIssue_conforms (h : OnPage s w) (ht : (decodeCommand t.command).valid = true) :
    OnPage (protocol.next s t) (azaharModel.next w t) ∧ azaharModel.out w t = protocol.out s t := by
  obtain ⟨a, hrefines, hidle, hs⟩ := h
  obtain ⟨a', hlog, hidle', hcommand, hstart, htells⟩ := hrefines.stageAndActivate hidle t.command
  rw [← hlog] at hs
  have hopcode : (decodeCommand t.command).opcode = t.command.opcode := rfl
  have hadmitted : Atomic.Admitted (decodeCommand t.command)
      (kCardResetHigh ||| kCardActivate ||| (phaseForOpcode t.command.opcode).blockField) :=
    ⟨ht, romcnt_blockField t.command.opcode⟩
  simp only [Atomic.activate, hcommand, if_pos hadmitted, hopcode] at hstart
  show OnPage _ (regIssue w t.command t.input t.outLen).1 ∧ (regIssue w t.command t.input t.outLen).2 = _
  rcases t.op_cases with ⟨hcode, hop, hin, hlen⟩ | ⟨hcode, hop, hin, hlen⟩ | ⟨hcode, hop, hin, hlen⟩ |
    ⟨hcode, hop, hin, hlen⟩ | ⟨hcode, hop, hin, hlen⟩ | ⟨hcode, hop, hin, hlen⟩ | ⟨hcode, hop, hin, hlen⟩
  · -- an opcode outside F0-F5
    simp only [hcode] at hstart
    rw [(fifoRelation_refines _).regIssue_immediate hstart htells hidle' (by simp only [phaseForOpcode, hcode]) hlen, Machine.next,
      Machine.out, protocol_step_none hop]
    exact ⟨⟨a', hstart, hidle', hs⟩, rfl⟩
  · -- F0
    simp only [hcode] at hstart
    rw [(fifoRelation_refines _).regIssue_immediate hstart htells hidle' (by simp only [phaseForOpcode, hcode]) hlen]
    exact onPage_of_op hop hs hstart hidle' rfl rfl
  · -- F1
    simp only [hcode] at hstart
    rw [(fifoRelation_refines _).regIssue_immediate hstart htells hidle' (by simp only [phaseForOpcode, hcode]) hlen]
    exact onPage_of_op hop hs hstart hidle' rfl rfl
  · -- F3
    simp only [hcode] at hstart
    rw [(fifoRelation_refines _).regIssue_immediate hstart htells hidle' (by simp only [phaseForOpcode, hcode]) hlen]
    exact onPage_of_op hop hs hstart hidle' rfl rfl
  · -- F2
    have hphase : phaseForOpcode t.command.opcode = ⟨.cartToConsole, 4 * (0 + 1), kCardBlock4⟩ := by
      simp only [phaseForOpcode, hcode]
    simp only [hcode] at hstart
    obtain ⟨w', heq, hclosed⟩ := (fifoRelation_refines _).regIssue_reading hstart htells rfl rfl hphase hlen
    rw [heq]
    refine onPage_of_op hop hs hclosed rfl rfl ?_
    rw [hs]
    rfl
  · -- F5
    have hphase : phaseForOpcode t.command.opcode = ⟨.cartToConsole, 4 * (127 + 1), kCardBlock512⟩ := by
      simp only [phaseForOpcode, hcode]
    simp only [hcode] at hstart
    have hout : ((Device.after conformanceConfig a'.log).readBlock (decodeCommand t.command).index
        (decodeCommand t.command).word (some kBlockBytes)).2.2.length = 4 * 128 :=
      Device.readBlock_out_length _ _ _ _
    have hcount : (wordsOf ((Device.after conformanceConfig a'.log).readBlock (decodeCommand t.command).index
        (decodeCommand t.command).word (some kBlockBytes)).2.2).length = 127 + 1 := by
      rw [wordsOf_length, hout]
    obtain ⟨w', heq, hclosed⟩ := (fifoRelation_refines _).regIssue_reading hstart htells rfl hcount hphase hlen
    rw [heq]
    refine onPage_of_op hop hs hclosed rfl rfl ?_
    rw [hs]
    exact congrArg (Answer.mk true) (flatMap_le32_wordsOf hout)
  · -- F4
    have hphase : phaseForOpcode t.command.opcode = ⟨.consoleToCart, kBlockBytes, kCardBlock512⟩ := by
      simp only [phaseForOpcode, hcode]
    simp only [hcode] at hstart
    obtain ⟨w', heq, hclosed⟩ := (fifoRelation_refines _).regIssue_writing hstart htells rfl hphase hlen hin
    rw [heq]
    exact onPage_of_op hop hs hclosed rfl rfl rfl

end GekkoPak
