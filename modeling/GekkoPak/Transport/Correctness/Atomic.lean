import GekkoPak.Device.Transfers
import GekkoPak.Transport.Atomic

/-!
# `Transport.Correctness.Atomic` — the register transport refines atomic transactions

`Refines` relates the two machines between accesses: same device up to the transfer counter, same staged
command, and the transport's cursor where the phase says, with the words so far in `buffer_`. Each of the
three things an access can do — read the FIFO, write it, activate — keeps the relation (`Refines.readFifo`,
`Refines.writeFifo`, `Refines.startCommand`); everything else an access does is a store that misses the
command registers. What a FIFO access does is said once, without the relation (`Advances`).
-/

namespace GekkoPak

open Basis

/-! ## Words in the buffer -/

/-- The buffer starts with the bytes of `ws`. -/
def HoldsWords (buffer : Mem) (ws : List UInt32) : Prop :=
  buffer.read 0 (4 * ws.length) = ws.flatMap le32

theorem holdsWords_nil (buffer : Mem) : HoldsWords buffer [] := rfl

/-- Reading word `k` of a buffer that holds `ws`. -/
theorem HoldsWords.word {buffer : Mem} {ws : List UInt32} (h : HoldsWords buffer ws) {k : Nat}
    (hk : k < ws.length) : ofLe32 (buffer.read (k * 4) 4) = ws.getD k 0 := by
  have hslice : slice (buffer.read 0 (4 * ws.length)) (4 * k) 4 = buffer.read (0 + 4 * k) 4 :=
    Mem.slice_read (by omega)
  rw [← slice_flatMap_le32 ws hk, ← h, hslice, Nat.zero_add, Nat.mul_comm]

/-- Writing one more word at the end. -/
theorem HoldsWords.concat {buffer : Mem} {ws : List UInt32} (h : HoldsWords buffer ws) (v : UInt32) :
    HoldsWords (buffer.write (ws.length * 4) (le32 v)) (ws ++ [v]) := by
  have hlen : 4 * (ws ++ [v]).length = 4 * ws.length + 4 := by simp; omega
  have hlast : (buffer.write (ws.length * 4) (le32 v)).read (0 + 4 * ws.length) 4 = le32 v := by
    have hsame := Mem.read_write_same buffer (ws.length * 4) (le32 v)
    rw [le32_length] at hsame
    rw [Nat.zero_add, Nat.mul_comm 4, hsame]
  rw [HoldsWords, hlen, Mem.read_add, hlast, Mem.read_write_disjoint (by omega), h,
    List.flatMap_append, List.flatMap_singleton]

/-- A string of whole words, copied to the front of the buffer. -/
theorem holdsWords_write (buffer : Mem) {bs : List UInt8} {n : Nat} (h : bs.length = 4 * n) :
    HoldsWords (buffer.write 0 bs) (wordsOf bs) := by
  have hlen : 4 * (wordsOf bs).length = bs.length := by rw [wordsOf_length]; omega
  rw [HoldsWords, hlen, Mem.read_write_same, flatMap_le32_wordsOf h]

/-! ## The relation -/

/-- A phase carries one word or a block of them, and is over with the last. -/
def Phase.WellFormed : Phase → Prop
  | .idle               => True
  | .reading response k => (response.length = 1 ∨ response.length = kBlockWords) ∧ k < response.length
  | .writing _ _ block  => block.length < kBlockWords

/-- The transport stands where the phase says. -/
def Tracks : Phase → RegisterTransport → Prop
  | .idle, t => t.direction = .none
  | .reading response k, t =>
    t.direction = .cartToConsole ∧ t.wordIndex = k ∧ t.wordCount = response.length ∧
      HoldsWords t.buffer response
  | .writing selector word block, t =>
    t.direction = .consoleToCart ∧ t.wordIndex = block.length ∧ t.wordCount = kBlockWords ∧
      t.index = selector ∧ t.commandWord = word ∧ HoldsWords t.buffer block

/-- Every access to `buffer_` so far was inside it. -/
def RegisterTransport.InBuffer (t : RegisterTransport) : Prop :=
  ∀ span ∈ t.touched, span.1 + span.2 ≤ kBlockBytes

theorem RegisterTransport.InBuffer.concat {t t' : RegisterTransport} (h : t.InBuffer) {offset len : Nat}
    (hfit : offset + len ≤ kBlockBytes) (ht : t'.touched = t.touched ++ [(offset, len)]) : t'.InBuffer := by
  intro span hspan
  rw [ht] at hspan
  rcases List.mem_append.mp hspan with hold | hnew
  · exact h span hold
  · rw [List.mem_singleton.mp hnew]
    exact hfit

/-- `memset(buffer_, 0, sizeof(buffer_))`. -/
theorem RegisterTransport.InBuffer.clear {t : RegisterTransport} (h : t.InBuffer) :
    (t.bufferCopy 0 (List.replicate kBlockBytes 0)).InBuffer :=
  h.concat (by rw [List.length_replicate]; decide) rfl

/-- **The refinement relation**, between two accesses. -/
structure Refines (config : Config) (t : Atomic) (w : RegisterWindow) : Prop where
  core       : Device.SameCore (Device.after config t.log) w.device
  staged     : w.regs.read kRegCommand 8 = le32 t.cmd0 ++ le32 t.cmd1
  tracks     : Tracks t.phase w.transport
  wellFormed : t.phase.WellFormed
  inBuffer   : w.transport.InBuffer

variable {config : Config} {t : Atomic} {w : RegisterWindow}

/-- The transport is active exactly in a data phase. -/
theorem Tracks.direction_none {phase : Phase} {rt : RegisterTransport} (h : Tracks phase rt) :
    rt.direction = .none ↔ phase = .idle := by
  cases phase with
  | idle => exact ⟨fun _ => rfl, fun _ => h⟩
  | reading response k => simp [h.1]
  | writing selector word block => simp [h.1]

theorem Refines.direction_none (h : Refines config t w) :
    w.transport.direction = .none ↔ t.phase = .idle := h.tracks.direction_none

/-- One applied operation keeps the devices the same but for the counter. -/
theorem sameCore_concat {log : List WireOp} {d : Device} (h : Device.SameCore (Device.after config log) d)
    (op : WireOp) : Device.SameCore (Device.after config (log ++ [op])) (d.step op).1 := by
  rw [show Device.after config (log ++ [op]) = ((Device.after config log).step op).1 from
    Machine.run_concat _ log op]
  exact (h.step op).1

/-! ## Closing a transfer -/

/-- `EndTransfer` leaves the staged command alone. -/
theorem endTransfer_staged (w : RegisterWindow) :
    w.endTransfer.regs.read kRegCommand 8 = w.regs.read kRegCommand 8 :=
  read_store32_of_disjoint (by decide)

/-- A window whose transport has just been closed refines the idle phase. -/
theorem Refines.close {log : List WireOp} (hcore : Device.SameCore (Device.after config log) w.device)
    (hstaged : w.regs.read kRegCommand 8 = le32 t.cmd0 ++ le32 t.cmd1) (hin : w.transport.InBuffer) :
    Refines config { t with log := log, phase := .idle } w.endTransfer where
  core := hcore
  staged := by rw [endTransfer_staged]; exact hstaged
  tracks := rfl
  wellFormed := trivial
  inBuffer := hin

/-! ## The FIFO -/

/-- The wire operations `ops`, applied to `d` one after the other. -/
def Device.apply (d : Device) (ops : List WireOp) : Device := ops.foldl (fun d op => (d.step op).1) d

/-- What a FIFO access does: the transport moves on as the phase does, the operations that enter the log are the ones
    the device has made, and what is staged stays. -/
structure Advances (t t' : Atomic) (w w' : RegisterWindow) : Prop where
  tracks     : Tracks t'.phase w'.transport
  wellFormed : t'.phase.WellFormed
  applied    : ∃ ops, t'.log = t.log ++ ops ∧ w'.device = w.device.apply ops
  command    : t'.cmd0 = t.cmd0 ∧ t'.cmd1 = t.cmd1
  staged     : w'.regs.read kRegCommand 8 = w.regs.read kRegCommand 8
  inBuffer   : w.transport.InBuffer → w'.transport.InBuffer

/-- A FIFO access out of phase raises a fault and nothing else. -/
theorem Advances.raise (h : Tracks t.phase w.transport) (hwf : t.phase.WellFormed) (f : Fault) :
    Advances t t w { w with transport := w.transport.raise f } where
  tracks := by
    cases hp : t.phase with
    | idle | reading | writing => rw [hp] at h; exact h
  wellFormed := hwf
  applied := ⟨[], (List.append_nil _).symm, rfl⟩
  command := ⟨rfl, rfl⟩
  staged := rfl
  inBuffer := fun hin => hin

/-- **A FIFO read** takes the next word of the response, or nothing. -/
theorem Advances.readFifo (h : Tracks t.phase w.transport) (hwf : t.phase.WellFormed) :
    Advances t t.takeWord.1 w w.readFifo.1 ∧ w.readFifo.2 = t.takeWord.2 := by
  cases hp : t.phase with
  | idle =>   -- no data phase
    have htracks := h
    rw [hp] at htracks
    have hdir : w.transport.direction ≠ .cartToConsole := by rw [htracks]; decide
    simp only [RegisterWindow.readFifo, Atomic.takeWord, hp, if_pos hdir]
    exact ⟨Advances.raise h hwf _, trivial⟩
  | writing selector word block =>   -- the wrong direction
    have htracks := h
    rw [hp] at htracks
    have hdir : w.transport.direction ≠ .cartToConsole := by rw [htracks.1]; decide
    simp only [RegisterWindow.readFifo, Atomic.takeWord, hp, if_pos hdir]
    exact ⟨Advances.raise h hwf _, trivial⟩
  | reading response k =>
    rw [hp] at h hwf
    obtain ⟨hdir, hindex, hcount, hholds⟩ := h
    obtain ⟨hlength, hk⟩ := hwf
    have hword := hholds.word hk
    have hspan : k * 4 + 4 ≤ kBlockBytes := by
      show k * 4 + 4 ≤ 512
      have h128 : response.length = 1 ∨ response.length = 128 := hlength
      omega
    have hin : w.transport.InBuffer → ({ w.transport with
        touched := w.transport.touched ++ [(k * 4, 4)], wordIndex := k + 1 } : RegisterTransport).InBuffer :=
      fun hin => hin.concat hspan rfl
    have hnone : ∃ ops, t.log = t.log ++ ops ∧ w.device = w.device.apply ops :=
      ⟨[], (List.append_nil _).symm, rfl⟩
    simp only [RegisterWindow.readFifo, Atomic.takeWord, hp, hdir, ne_eq, not_true_eq_false, if_false,
      RegisterTransport.bufferRead, hindex, hcount, hword, and_true]
    rcases Nat.lt_or_ge (k + 1) response.length with hmore | hlast
    · rw [if_neg (by omega), if_neg (by omega)]
      exact ⟨⟨rfl, rfl, rfl, hholds⟩, ⟨hlength, hmore⟩, hnone, ⟨rfl, rfl⟩, rfl, hin⟩
    · -- the last word closes the transfer
      rw [if_pos hlast, if_pos (by omega)]
      exact ⟨rfl, trivial, hnone, ⟨rfl, rfl⟩, endTransfer_staged _, hin⟩

/-- **A FIFO write** supplies the next word of the block; the last one applies the F4. -/
theorem Advances.writeFifo (h : Tracks t.phase w.transport) (hwf : t.phase.WellFormed) (value : UInt32) :
    Advances t (t.giveWord value) w (w.writeFifo value) := by
  cases hp : t.phase with
  | idle =>   -- no data phase
    have htracks := h
    rw [hp] at htracks
    have hdir : w.transport.direction ≠ .consoleToCart := by rw [htracks]; decide
    simp only [RegisterWindow.writeFifo, Atomic.giveWord, hp, if_pos hdir]
    exact Advances.raise h hwf _
  | reading response k =>   -- the wrong direction
    have htracks := h
    rw [hp] at htracks
    have hdir : w.transport.direction ≠ .consoleToCart := by rw [htracks.1]; decide
    simp only [RegisterWindow.writeFifo, Atomic.giveWord, hp, if_pos hdir]
    exact Advances.raise h hwf _
  | writing selector word block =>
    rw [hp] at h hwf
    obtain ⟨hdir, hindex, hcount, hsel, hword, hholds⟩ := h
    have hlt : block.length < 128 := hwf
    have hlen : (block ++ [value]).length = block.length + 1 := by simp
    have hholds' := hholds.concat value
    have hspan : block.length * 4 + (le32 value).length ≤ kBlockBytes := by
      rw [le32_length]
      show block.length * 4 + 4 ≤ 512
      omega
    have hin : w.transport.InBuffer → ({ w.transport with
        touched := w.transport.touched ++ [(block.length * 4, (le32 value).length)] } : RegisterTransport).InBuffer :=
      fun hin => hin.concat hspan rfl
    simp only [RegisterWindow.writeFifo, Atomic.giveWord, hp, hdir, ne_eq, not_true_eq_false, if_false,
      RegisterTransport.bufferRead, RegisterTransport.bufferCopy, hindex, hcount, hlen, hsel, hword]
    by_cases hlast : block.length + 1 = kBlockWords
    · -- the 128th word: what the buffer holds is the whole block
      have hblock : (w.transport.buffer.write (block.length * 4) (le32 value)).read 0 (kBlockWords * 4)
          = (block ++ [value]).flatMap le32 := by
        rw [← hholds', hlen, hlast, Nat.mul_comm 4]
      rw [if_pos (Nat.le_of_eq hlast.symm), if_pos hlast, hblock]
      refine ⟨rfl, trivial, ⟨[.writeBlock selector word (some ((block ++ [value]).flatMap le32))], rfl, rfl⟩,
        ⟨rfl, rfl⟩, endTransfer_staged _, fun hbuf => (hin hbuf).concat ?_ rfl⟩
      decide
    · have hmore : ¬ block.length + 1 ≥ kBlockWords := fun hge => hlast (Nat.le_antisymm hwf hge)
      rw [if_neg hmore, if_neg hlast]
      refine ⟨⟨rfl, hlen.symm, rfl, rfl, rfl, hholds'⟩, ?_, ⟨[], (List.append_nil _).symm, rfl⟩, ⟨rfl, rfl⟩, rfl, hin⟩
      show (block ++ [value]).length < kBlockWords
      rw [hlen]
      exact Nat.lt_of_not_le hmore

/-- Applied operations keep the devices the same but for the counter. -/
theorem sameCore_apply : ∀ {ops log : List WireOp} {d : Device},
    Device.SameCore (Device.after config log) d → Device.SameCore (Device.after config (log ++ ops)) (d.apply ops) := by
  intro ops
  induction ops with
  | nil =>
    intro log d h
    rw [List.append_nil]
    exact h
  | cons op ops ih =>
    intro log d h
    rw [List.append_cons]
    exact ih (sameCore_concat h op)

/-- The refinement survives a FIFO access. -/
theorem Refines.advance (h : Refines config t w) {t' : Atomic} {w' : RegisterWindow} (hadv : Advances t t' w w') :
    Refines config t' w' where
  core := by
    obtain ⟨ops, hlog, hdev⟩ := hadv.applied
    rw [hlog, hdev]
    exact sameCore_apply h.core
  staged := by rw [hadv.staged, hadv.command.1, hadv.command.2]; exact h.staged
  tracks := hadv.tracks
  wellFormed := hadv.wellFormed
  inBuffer := hadv.inBuffer h.inBuffer

theorem Refines.readFifo (h : Refines config t w) :
    Refines config t.takeWord.1 w.readFifo.1 ∧ w.readFifo.2 = t.takeWord.2 := by
  obtain ⟨hadv, hvalue⟩ := Advances.readFifo h.tracks h.wellFormed
  exact ⟨h.advance hadv, hvalue⟩

theorem Refines.writeFifo (h : Refines config t w) (value : UInt32) :
    Refines config (t.giveWord value) (w.writeFifo value) :=
  h.advance (Advances.writeFifo h.tracks h.wellFormed value)

/-! ## Activation -/

/-- The window decodes the command the two staged words make up. -/
theorem Refines.command (h : Refines config t w) : w.staged = t.command := by
  rw [RegisterWindow.staged, h.staged, Atomic.command]

/-- Closing right after the activation: only the device may have moved, by the operations of `log`. -/
theorem Refines.finish (h : Refines config t w) (hidle : t.phase = .idle) {w' : RegisterWindow}
    {log : List WireOp} (hcore : Device.SameCore (Device.after config log) w'.device) (hregs : w'.regs = w.regs)
    (ht : w'.transport.touched = w.transport.touched) : Refines config { t with log := log } w'.endTransfer := by
  have hin : w'.transport.InBuffer := fun span hspan => h.inBuffer span (ht ▸ hspan)
  have hclose := Refines.close (t := t) hcore (hregs ▸ h.staged) hin
  rw [← hidle] at hclose
  exact hclose

/-- Closing without having applied anything. -/
theorem Refines.refused (h : Refines config t w) (hidle : t.phase = .idle) {w' : RegisterWindow}
    (hdev : w'.device = w.device.countTransfer) (hregs : w'.regs = w.regs)
    (ht : w'.transport.touched = w.transport.touched) : Refines config t w'.endTransfer := by
  have hcore := h.core.countTransfer
  rw [← hdev] at hcore
  exact h.finish hidle hcore hregs ht

/-- Closing after an operation without a data phase. -/
theorem Refines.immediate (h : Refines config t w) (hidle : t.phase = .idle) {w' : RegisterWindow}
    {op : WireOp} (hdev : w'.device = (w.device.countTransfer.step op).1) (hregs : w'.regs = w.regs)
    (ht : w'.transport.touched = w.transport.touched) : Refines config (t.apply op) w'.endTransfer := by
  have hcore := sameCore_concat h.core.countTransfer op
  rw [← hdev] at hcore
  exact h.finish hidle hcore hregs ht

/-- Offering the words of a response. -/
theorem Refines.answered (h : Refines config t w) {w' : RegisterWindow} {op : WireOp}
    (hdev : w'.device = (w.device.countTransfer.step op).1)
    (hregs : w'.regs.read kRegCommand 8 = w.regs.read kRegCommand 8) (hin : w'.transport.InBuffer)
    {response : List UInt32} (hresponse : (w.device.countTransfer.step op).2.words = response)
    (hlength : response.length = 1 ∨ response.length = kBlockWords)
    (htracks : Tracks (.reading response 0) w'.transport) : Refines config (t.answer config op) w' := by
  have hcore := sameCore_concat h.core.countTransfer op
  rw [← hdev] at hcore
  have hwords : ((Device.machine config).out (Device.after config t.log) op).words = response := by
    rw [← hresponse, (h.core.countTransfer.step op).2]
    rfl
  refine ⟨hcore, by rw [hregs]; exact h.staged, ?_, ?_, hin⟩
  · show Tracks (.reading ((Device.machine config).out (Device.after config t.log) op).words 0) _
    rw [hwords]
    exact htracks
  · show Phase.WellFormed (.reading ((Device.machine config).out (Device.after config t.log) op).words 0)
    rw [hwords]
    refine ⟨hlength, ?_⟩
    rcases hlength with hone | hblock
    · omega
    · rw [hblock]; decide

/-- **An activation** applies the staged command's operation, or nothing if it is not admitted. -/
theorem Refines.startCommand (h : Refines config t w) (hidle : t.phase = .idle) :
    Refines config (t.activate config (load32 w.regs kRegRomCnt)) w.startCommand := by
  have hdir : w.transport.direction = .none := h.direction_none.mpr hidle
  simp only [RegisterWindow.startCommand, Atomic.activate, Atomic.Admitted, h.command]
  generalize t.command = cmd
  by_cases hvalid : cmd.valid = true
  · by_cases hfield : load32 w.regs kRegRomCnt &&& kCardBlockMask = (phaseForOpcode cmd.opcode).blockField
    · simp only [hvalid, hfield, Bool.not_true, Bool.false_eq_true, if_false, ne_eq, not_true_eq_false,
        and_self, if_true]
      clear hfield
      -- one case per arm of `PhaseForOpcode` and of the inner `switch`
      cases hop : WireOpcode.ofCode cmd.opcode with
      | none =>   -- the opcode is not ours: counted, not applied
        simp only [phaseForOpcode, hop, if_true, RegisterWindow.runImmediate]
        exact h.refused hidle rfl rfl rfl
      | some opcode =>
        cases opcode with
        | writeReg =>
          simp only [phaseForOpcode, hop, if_true, RegisterWindow.runImmediate]
          exact h.immediate hidle rfl rfl rfl
        | exec =>
          simp only [phaseForOpcode, hop, if_true, RegisterWindow.runImmediate]
          exact h.immediate hidle rfl rfl rfl
        | writePayloadWord =>
          simp only [phaseForOpcode, hop, if_true, RegisterWindow.runImmediate]
          exact h.immediate hidle rfl rfl rfl
        | readReg =>
          simp only [phaseForOpcode, hop, reduceCtorEq, if_false, RegisterWindow.openPhase,
            RegisterWindow.fetchResponse, if_true]
          have hwords : (w.device.countTransfer.step (.readReg cmd.index)).2.words
              = [w.device.countTransfer.readReg cmd.index] := rfl
          refine h.answered rfl (read_store32_of_disjoint (by decide)) ?_ hwords (Or.inl rfl)
            ⟨rfl, rfl, rfl, ?_⟩
          · exact h.inBuffer.clear.concat (by rw [le32_length]; decide) rfl
          · exact (holdsWords_nil _).concat _
        | readBlock =>
          simp only [phaseForOpcode, hop, reduceCtorEq, if_false, RegisterWindow.openPhase,
            RegisterWindow.fetchResponse, if_true, Option.some.injEq]
          have hlen : (w.device.countTransfer.readBlock cmd.index cmd.word (some kBlockBytes)).2.2.length
              = 4 * kBlockWords := Device.readBlock_out_length _ _ _ _
          have hwords : (w.device.countTransfer.step (.readBlock cmd.index cmd.word (some kBlockBytes))).2.words
              = wordsOf (w.device.countTransfer.readBlock cmd.index cmd.word (some kBlockBytes)).2.2 := rfl
          have hcount : (wordsOf (w.device.countTransfer.readBlock cmd.index cmd.word
              (some kBlockBytes)).2.2).length = kBlockWords := by
            rw [wordsOf_length, hlen]
            exact Nat.mul_div_cancel_left _ (by decide)
          refine h.answered rfl (read_store32_of_disjoint (by decide)) ?_ hwords (Or.inr hcount)
            ⟨rfl, rfl, hcount.symm, ?_⟩
          · exact h.inBuffer.clear.concat (by rw [hlen]; decide) rfl
          · exact holdsWords_write _ hlen
        | writeBlock =>   -- nothing is applied until the last word is in
          simp only [phaseForOpcode, hop, reduceCtorEq, if_false, RegisterWindow.openPhase]
          refine ⟨h.core.countTransfer, ?_, ⟨rfl, rfl, rfl, rfl, rfl, rfl⟩, ?_, h.inBuffer⟩
          · exact (read_store32_of_disjoint (by decide)).trans h.staged
          · show 0 < kBlockWords
            decide
    · -- a block field that does not fit the opcode
      simp only [hvalid, hfield, Bool.not_true, Bool.false_eq_true, if_false, ne_eq, not_false_eq_true,
        and_false, if_true]
      exact h.refused hidle rfl rfl rfl
  · -- no discriminator
    simp only [hvalid, Bool.not_false, if_true]
    exact h.refused hidle rfl rfl rfl

/-! ## Plain stores -/

/-- A store that misses the command registers. -/
theorem Refines.store (h : Refines config t w) (offset : Nat) (value : UInt32)
    (hmiss : offset + 4 ≤ kRegCommand ∨ kRegCommand + 8 ≤ offset) :
    Refines config t { w with regs := store32 w.regs offset value } :=
  ⟨h.core, (read_store32_of_disjoint hmiss).trans h.staged, h.tracks, h.wellFormed, h.inBuffer⟩

/-- The two halves of the command registers. -/
theorem read_command (regs : Mem) :
    regs.read kRegCommand 8 = regs.read kRegCommand 4 ++ regs.read (kRegCommand + 4) 4 :=
  regs.read_add kRegCommand 4 4

/-- The staged words, one by one. -/
theorem Refines.staged_halves (h : Refines config t w) :
    w.regs.read kRegCommand 4 = le32 t.cmd0 ∧ w.regs.read (kRegCommand + 4) 4 = le32 t.cmd1 := by
  have hstaged := h.staged
  rw [read_command] at hstaged
  exact List.append_inj hstaged (by simp)

theorem Refines.storeCmd0 (h : Refines config t w) (value : UInt32) :
    Refines config { t with cmd0 := value } { w with regs := store32 w.regs kRegCommand value } := by
  refine ⟨h.core, ?_, h.tracks, h.wellFormed, h.inBuffer⟩
  rw [read_command, read_store32_same, read_store32_of_disjoint (by decide), h.staged_halves.2]

theorem Refines.storeCmd1 (h : Refines config t w) (value : UInt32) :
    Refines config { t with cmd1 := value } { w with regs := store32 w.regs (kRegCommand + 4) value } := by
  refine ⟨h.core, ?_, h.tracks, h.wellFormed, h.inBuffer⟩
  rw [read_command, read_store32_same, read_store32_of_disjoint (by decide), h.staged_halves.1]

/-! ## One access, and every run -/

theorem Refines.write32 (h : Refines config t w) {offset value : UInt32}
    (ha : (Access.write offset value).Aligned) :
    Refines config (t.step config (.write offset value)).1 (w.write32 offset value) := by
  have hwin : ¬ (offset + 4).toNat > kRegisterPageSize := ha.inWindow
  have halign : offset.toNat % 4 = 0 := ha.1
  simp only [RegisterWindow.write32, Atomic.step, if_neg hwin]
  by_cases hfifo : offset.toNat = kRegFifo
  · simp only [if_pos hfifo]
    exact h.writeFifo value
  simp only [if_neg hfifo]
  by_cases hromcnt : offset.toNat = kRegRomCnt
  · -- the activate bit runs the command unless a transfer is open
    have hstored : Refines config t { w with regs := store32 w.regs kRegRomCnt value } :=
      h.store kRegRomCnt value (Or.inl (by decide))
    simp only [hromcnt, true_and, h.direction_none]
    by_cases hact : value &&& kCardActivate ≠ 0 ∧ t.phase = .idle
    · simp only [if_pos hact]
      have hstart := hstored.startCommand hact.2
      rw [load32_store32_same] at hstart
      exact hstart
    · simp only [if_neg hact]
      exact hstored
  · have hnone : ∀ p : Prop, ¬ (offset.toNat = kRegRomCnt ∧ p) := fun p hp => hromcnt hp.1
    simp only [if_neg (hnone _)]
    by_cases hcmd0 : offset.toNat = kRegCommand
    · simp only [if_pos hcmd0]
      rw [hcmd0]
      exact h.storeCmd0 value
    by_cases hcmd1 : offset.toNat = kRegCommand + 4
    · simp only [if_neg hcmd0, if_pos hcmd1]
      rw [hcmd1]
      exact h.storeCmd1 value
    · simp only [if_neg hcmd0, if_neg hcmd1]
      apply h.store
      have h8 : offset.toNat ≠ 8 := hcmd0
      have h12 : offset.toNat ≠ 12 := hcmd1
      show offset.toNat + 4 ≤ 8 ∨ 16 ≤ offset.toNat
      omega

theorem Refines.read32 (h : Refines config t w) {offset : UInt32} (ha : (Access.read offset).Aligned) :
    Refines config (t.step config (.read offset)).1 (w.read32 offset).1 ∧
      (Access.read offset).fifoAnswer (some (w.read32 offset).2) = (t.step config (.read offset)).2 := by
  have hwin : ¬ (offset + 4).toNat > kRegisterPageSize := ha.inWindow
  simp only [RegisterWindow.read32, Atomic.step, Access.fifoAnswer, if_neg hwin]
  by_cases hfifo : offset.toNat = kRegFifo
  · simp only [if_pos hfifo]
    exact ⟨h.readFifo.1, congrArg some h.readFifo.2⟩
  · simp only [if_neg hfifo]
    exact ⟨h, trivial⟩

/-- Freshly reset, nothing is staged and nothing is open. -/
theorem refines_reset (config : Config) : Refines config {} (RegisterWindow.reset config) where
  core := Device.SameCore.refl _
  staged := (read_store32_of_disjoint (by decide)).trans (by decide)
  tracks := rfl
  wellFormed := trivial
  inBuffer := fun span hspan => by cases hspan

/-- One access, on both sides. -/
theorem Refines.access (h : Refines config t w) {a : Access} (ha : a.Aligned) :
    Refines config ((Atomic.machine config).next t a)
        (((RegisterWindow.machine config).view Access.fifoAnswer).next w a) ∧
      ((RegisterWindow.machine config).view Access.fifoAnswer).out w a = (Atomic.machine config).out t a := by
  cases a with
  | read offset => exact h.read32 ha
  | write offset value =>
    refine ⟨h.write32 ha, ?_⟩
    show none = (t.step config (.write offset value)).2
    simp only [Atomic.step]
    split
    · rfl
    split
    · rfl
    split
    · rfl
    split <;> rfl

/-- **The register transport refines atomic transactions.** After any aligned accesses inside the window the
    device is, up to the transfer counter, the one that the operations of the atomic log lead to; FIFO reads
    answered the words of the responses computed at activation; a transfer is open exactly while the phase
    still has words to move, one or 128 of them in all; and `buffer_` was never accessed outside. -/
theorem register_transport_atomic (config : Config) {accesses : List Access}
    (h : ∀ a ∈ accesses, a.Aligned) :
    let w := (RegisterWindow.machine config).run accesses
    let t := (Atomic.machine config).run accesses
    Device.SameCore (Device.after config t.log) w.device ∧
      ((RegisterWindow.machine config).view Access.fifoAnswer).outs accesses
        = (Atomic.machine config).outs accesses ∧
      (w.transport.transferActive = true ↔ t.phase ≠ .idle) ∧ t.phase.WellFormed ∧
      w.transport.InBuffer := by
  intro w t
  obtain ⟨hrel, houts⟩ := Machine.simulation (R := fun w t => Refines config t w) (P := Access.Aligned)
    (refines_reset config) (fun w t a ha hwt => Refines.access hwt ha) h
  rw [Machine.run_view] at hrel
  refine ⟨hrel.core, houts, ?_, hrel.wellFormed, hrel.inBuffer⟩
  rw [RegisterTransport.transferActive, bne_iff_ne, ne_eq, hrel.direction_none]

/-- A guest that reads the event register, with a stray FIFO write and another command staged before the
    word is taken. -/
def eventRead : List Access :=
  [.write 0x08 0xFE4B47F2, .write 0x0C 0, .write 0x04 (kCardResetHigh ||| kCardActivate ||| kCardBlock4),
    .write 0x1C 0xDEADBEEF, .write 0x08 0x054B47F0, .read 0x1C]

theorem register_transport_atomic_eventRead :
    let config : Config := { hasPool := true, poolBytes := 65536 }
    Device.SameCore (Device.after config [.readReg kEventCompletionDepth])
        ((RegisterWindow.machine config).run eventRead).device ∧
      ((RegisterWindow.machine config).view Access.fifoAnswer).outs eventRead
        = [none, none, none, none, none, some 0] := by
  intro config
  have hlog : ((Atomic.machine config).run eventRead).log = [.readReg kEventCompletionDepth] := by decide +kernel
  have houts : (Atomic.machine config).outs eventRead = [none, none, none, none, none, some 0] := by
    decide +kernel
  obtain ⟨hcore, hout, -⟩ := register_transport_atomic config (show ∀ a ∈ eventRead, a.Aligned by decide)
  rw [hlog] at hcore
  exact ⟨hcore, hout.trans houts⟩

end GekkoPak
