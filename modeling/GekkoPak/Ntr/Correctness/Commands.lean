import GekkoPak.Ntr.Correctness.Routines
import GekkoPak.Ntr.Session

/-!
# `Ntr.Correctness.Commands` — register commands of the guest

`wrreg`, `rdreg` and `exec_hi` on a page with no transfer open (`Serves`): each is the core's own `WriteReg`, `ReadReg`
or `Exec`, one transfer at a time. `exec_hi` looks at RESULT and comes back only if the command was carried out; any
other result takes the guest to its failure routine.
-/

namespace GekkoPak

open Basis Arm

namespace Ntr

/-! ## Activations -/

section Activations

variable {w : RegisterWindow}

/-- No transfer is open, and the device behind the page is `d`. -/
structure Serves (d : Device) (w : RegisterWindow) : Prop where
  device : w.device = d
  idle   : w.transport.direction = .none

/-- Whatever is activated, ROMCNT tells what comes of it. -/
theorem activate_tells (hidle : w.transport.direction = .none) (command : CommandBytes) (blockField : UInt32) :
    RomcntTells (stageAndActivate w command blockField) := by
  rw [stageAndActivate_eq hidle]
  exact romcntTells_startCommand _

/-- A command without a data phase is over with its activation. -/
theorem activate_immediate (hidle : w.transport.direction = .none) (opcode index : UInt8) (word : UInt32)
    (hphase : phaseForOpcode opcode = ⟨.none, 0, kCardBlockNone⟩) :
    Serves (RegisterWindow.runImmediate w.device.countTransfer ⟨opcode, index, word, true⟩)
      (stageAndActivate w (encodeCommand opcode index word) cardBlkNone) := by
  obtain ⟨w', heq, hdev, -, hstaged, hromcnt⟩ := stageAndActivate_command hidle (encodeCommand opcode index word) cardBlkNone
  have hfield : ¬ (kCardResetHigh ||| kCardActivate ||| cardBlkNone) &&& kCardBlockMask ≠ kCardBlockNone := by decide
  rw [heq, ← hdev]
  rw [decodeCommand_encodeCommand] at hstaged
  simp only [RegisterWindow.startCommand, hstaged, hromcnt, hphase, Bool.not_true, Bool.false_eq_true, if_false,
    if_neg hfield, if_true]
  exact ⟨rfl, rfl⟩

/-- An F2, with its word ready to be taken. -/
theorem activate_readReg (hidle : w.transport.direction = .none) (index : UInt8) (word : UInt32) :
    Exactly w.device.countTransfer { phase := .reading [w.device.countTransfer.readReg index] 0 }
      (stageAndActivate w (encodeCommand WireOpcode.readReg.code index word) cardBlk4) := by
  obtain ⟨w', heq, hdev, -, hstaged, hromcnt⟩ :=
    stageAndActivate_command hidle (encodeCommand WireOpcode.readReg.code index word) cardBlk4
  have hfield : ¬ (kCardResetHigh ||| kCardActivate ||| cardBlk4) &&& kCardBlockMask ≠ kCardBlock4 := by decide
  have hphase : phaseForOpcode WireOpcode.readReg.code = ⟨.cartToConsole, 4, kCardBlock4⟩ := by decide
  have hopcode : WireOpcode.ofCode WireOpcode.readReg.code = some .readReg := by decide
  rw [heq, ← hdev]
  rw [decodeCommand_encodeCommand] at hstaged
  simp only [RegisterWindow.startCommand, hstaged, hromcnt, hphase, Bool.not_true, Bool.false_eq_true, if_false,
    if_neg hfield, reduceCtorEq, RegisterWindow.openPhase, RegisterWindow.fetchResponse, if_true, hopcode]
  refine ⟨rfl, ⟨rfl, rfl, rfl, ?_⟩, Or.inl rfl, Nat.zero_lt_one⟩
  have hread := Mem.read_write_same (w'.transport.buffer.write 0 (List.replicate kBlockBytes 0)) 0
    (le32 (w'.device.countTransfer.readReg index))
  rw [le32_length] at hread
  rw [HoldsWords, List.flatMap_singleton]
  exact hread

end Activations

/-! ## `wrreg` and `rdreg` -/

variable {s : State Board} {d : Device} {k : Nat}

theorem wrreg_leads (h : Called .wrreg 16 s k) (hserves : Serves d s.mem.window) :
    ∃ t, Returns 0 [] 16 [r0, r1, r2, r3, lr] s t k ∧
      Serves (d.countTransfer.writeReg (s.regs r0).toUInt8 (s.regs r1)) t.mem.window := by
  obtain ⟨s₁, hlead₁, henter, hpc₁, hpage₁⟩ := entered h [] (by decide +kernel) (by decide)
  have hwindow₁ : s₁.mem.window = s.mem.window := henter.rest
  obtain ⟨s₂, hlead₂, hcalled₂, hkeeps₂, hregs₂, hmem₂⟩ := calls hpc₁ [.mov r2 (.reg r1), .mov r1 (.reg r0),
    .mov r0 (.imm wWriteReg)] .wire (by decide +kernel) (by decide) hpage₁ (henter.room 12 h.room) (by decide +kernel)
  have hargs : s₂.regs r0 = wWriteReg ∧ s₂.regs r1 = s.regs r0 ∧ s₂.regs r2 = s.regs r1 := by
    rw [hregs₂ r0 (by decide), hregs₂ r1 (by decide), hregs₂ r2 (by decide), ← henter.regs r0 (by decide),
      ← henter.regs r1 (by decide)]
    exact ⟨rfl, rfl, rfl⟩
  have hmem : s₂.mem = s₁.mem := hmem₂
  have hact := activate_immediate hserves.idle wWriteReg.toUInt8 (s.regs r0).toUInt8 (s.regs r1) rfl
  rw [hserves.device] at hact
  obtain ⟨s₃, hreturns, hwindow₃⟩ := wire_leads hcalled₂ (by rw [hargs.1, hargs.2.1, hargs.2.2, hmem, hwindow₁])
    (activate_tells hserves.idle _ _) hact.idle
  have hbody := (hreturns.after hlead₂ hkeeps₂ (by decide) (congrArg Board.ram hmem)).mono (Nat.le_refl _)
    (show _ ⊆ [r0, r1, r2, r3, lr] by decide)
  obtain ⟨t, hreturns', hmem', -⟩ := returns_framed [r0, r1, r2, r3, lr] h hlead₁ henter hbody (by decide +kernel)
    (by decide) (by decide) (by decide) (by decide) (Or.inl (Nat.zero_le _))
  refine ⟨t, hreturns', ?_⟩
  rw [hmem', hwindow₃]
  exact hact

theorem rdreg_leads (h : Called .rdreg 20 s k) (hserves : Serves d s.mem.window) :
    ∃ t, Returns 0 [] 20 [r0, r1, r2, r3, lr] s t k ∧ t.regs r0 = d.countTransfer.readReg (s.regs r0).toUInt8 ∧
      Serves d.countTransfer t.mem.window := by
  obtain ⟨s₁, hlead₁, henter, hpc₁, hpage₁⟩ := entered h [] (by decide +kernel) (by decide)
  have hwindow₁ : s₁.mem.window = s.mem.window := henter.rest
  obtain ⟨s₂, hlead₂, hcalled₂, hkeeps₂, hregs₂, hmem₂⟩ := calls hpc₁ [.mov r1 (.reg r0), .mov r0 (.imm wReadReg),
    .mov r2 (.imm 0)] .wireRead4 (by decide +kernel) (by decide) hpage₁ (henter.room 16 h.room) (by decide +kernel)
  have hargs : s₂.regs r0 = wReadReg ∧ s₂.regs r1 = s.regs r0 ∧ s₂.regs r2 = 0 := by
    rw [hregs₂ r0 (by decide), hregs₂ r1 (by decide), hregs₂ r2 (by decide), ← henter.regs r0 (by decide)]
    exact ⟨rfl, rfl, rfl⟩
  have hmem : s₂.mem = s₁.mem := hmem₂
  have hact := activate_readReg hserves.idle (s.regs r0).toUInt8 0
  rw [hserves.device] at hact
  obtain ⟨s₃, hreturns, hvalue, hdone⟩ := wireRead4_leads hcalled₂
    (by rw [hargs.1, hargs.2.1, hargs.2.2, hmem, hwindow₁]; rfl)
    (activate_tells hserves.idle _ _) hact rfl
  have hbody := (hreturns.after hlead₂ hkeeps₂ (by decide) (congrArg Board.ram hmem)).mono (Nat.le_refl _)
    (show _ ⊆ [r0, r1, r2, r3, lr] by decide)
  obtain ⟨t, hreturns', hmem', hother⟩ := returns_framed [r0, r1, r2, r3, lr] h hlead₁ henter hbody (by decide +kernel)
    (by decide) (by decide) (by decide) (by decide) (Or.inl (Nat.zero_le _))
  refine ⟨t, hreturns', (hother r0 (by decide) (by decide)).trans hvalue, ?_⟩
  rw [hmem']
  exact ⟨hdone.device, hdone.tracks⟩

/-! ## `exec_hi` -/

theorem execHi_leads (h : Called .execHi 28 s k) (hserves : Serves d s.mem.window) :
    ∃ t, Serves (Core.execResult d (s.regs r0).toUInt8 (s.regs r8 + 1)).1 t.mem.window ∧
      if (Core.execResult d (s.regs r0).toUInt8 (s.regs r8 + 1)).2 = 0 then
        Returns 0 [] 28 [r0, r1, r2, r3, r8, lr] s t k ∧ t.regs r8 = s.regs r8 + 1
      else Returns 0 [] 28 [r0, r1, r2, r3, r4, r8, sp, lr] s t (program.target .failed) := by
  obtain ⟨s₁, hlead₁, henter, hpc₁, hpage₁⟩ := entered h [r4] (by decide +kernel) (by decide)
  have hwindow₁ : s₁.mem.window = s.mem.window := henter.rest
  have hroom := henter.room 20 h.room
  obtain ⟨s₂, hlead₂, hcalled₂, hkeeps₂, hregs₂, hmem₂⟩ := calls hpc₁ [.mov r4 (.reg r0), .add r8 r8 (.imm 1),
    .mov r0 (.imm wExec), .mov r1 (.reg r4), .mov r2 (.reg r8)] .wire (by decide +kernel) (by decide) hpage₁
    (hroom.mono (show 12 ≤ 20 by decide)) (by decide +kernel)
  have hargs : s₂.regs r0 = wExec ∧ s₂.regs r1 = s.regs r0 ∧ s₂.regs r2 = s.regs r8 + 1 ∧ s₂.regs r8 = s.regs r8 + 1 := by
    rw [hregs₂ r0 (by decide), hregs₂ r1 (by decide), hregs₂ r2 (by decide), hregs₂ r8 (by decide),
      ← henter.regs r0 (by decide), ← henter.regs r8 (by decide)]
    exact ⟨rfl, rfl, rfl, rfl⟩
  have hmem : s₂.mem = s₁.mem := hmem₂
  have hact := activate_immediate hserves.idle wExec.toUInt8 (s.regs r0).toUInt8 (s.regs r8 + 1) rfl
  rw [hserves.device] at hact
  obtain ⟨s₃, hreturns₃, hwindow₃⟩ := wire_leads hcalled₂
    (by rw [hargs.1, hargs.2.1, hargs.2.2.1, hmem, hwindow₁]) (activate_tells hserves.idle _ _) hact.idle
  have hserves₃ : Serves (d.countTransfer.exec (s.regs r0).toUInt8 (s.regs r8 + 1)) s₃.mem.window := hwindow₃ ▸ hact
  have hpage₃ : s₃.regs r10 = ntr := (hreturns₃.keeps r10 (by decide)).trans hcalled₂.page
  have hsp₃ : s₃.regs sp = s₁.regs sp := (hreturns₃.keeps sp (by decide)).trans (hkeeps₂ sp (by decide))
  obtain ⟨s₄, hlead₄, hcalled₄, hkeeps₄, hregs₄, hmem₄⟩ := calls hreturns₃.pc [.mov r0 (.imm rResult)] .rdreg
    (by decide +kernel) (by decide) hpage₃ (hroom.congr hsp₃) (by decide +kernel)
  have hindex : s₄.regs r0 = rResult := by rw [hregs₄ r0 (by decide)]; rfl
  have hmem₄' : s₄.mem = s₃.mem := hmem₄
  obtain ⟨s₅, hreturns₅, hresult, hserves₅⟩ := rdreg_leads hcalled₄ (hmem₄' ▸ hserves₃)
  rw [hindex] at hresult
  obtain ⟨s₆, hlead₆, hpc₆, hkeeps₆, hregs₆, hmem₆⟩ := branched hreturns₅.pc [.cmp r0 (.imm 0)] .ne .failed (by decide +kernel)
  have hmem₆' : s₆.mem = s₅.mem := hmem₆
  simp only [effects_cons, effects_nil, Arm.effect, State.holds, State.setSubFlags_z, State.eval, hresult, UInt32.sub_zero]
    at hpc₆
  have hcalls := ((hreturns₃.after hlead₂ hkeeps₂ (by decide) (congrArg Board.ram hmem)).trans
    (hreturns₅.after hlead₄ hkeeps₄ (by decide) (congrArg Board.ram hmem₄')) (by decide)).before hlead₆ rfl hkeeps₆
    (congrArg Board.ram hmem₆')
  have hbody : Returns 0 [] 20 [r0, r1, r2, r3, r4, r8, lr] s₁ s₆ s₆.pc :=
    hcalls.mono (by decide) (by decide)
  have hserves₆ : Serves (Core.execResult d (s.regs r0).toUInt8 (s.regs r8 + 1)).1 s₆.mem.window := hmem₆' ▸ hserves₅
  by_cases hok : (Core.execResult d (s.regs r0).toUInt8 (s.regs r8 + 1)).2 = 0
  · have hpop : program.code[s₆.pc]? = some (.popPc [r4]) := by
      rw [hpc₆, if_neg (by simpa [Core.execResult] using hok)]
      decide +kernel
    obtain ⟨t, hreturns, hmem', hother⟩ := returns_framed [r0, r1, r2, r3, r8, lr] h hlead₁ henter hbody
      hpop (by decide) (by decide) (by decide) (by decide) (Or.inl (Nat.zero_le _))
    simp only [if_pos hok]
    refine ⟨t, hmem' ▸ hserves₆, hreturns, ?_⟩
    rw [hother r8 (by decide) (by decide), hkeeps₆ r8 (by decide), hreturns₅.keeps r8 (by decide), hkeeps₄ r8 (by decide),
      hreturns₃.keeps r8 (by decide), hargs.2.2.2]
  · have hfailed : s₆.pc = program.target .failed := by
      rw [hpc₆]
      exact if_pos (by simpa [Core.execResult] using hok)
    simp only [if_neg hok]
    refine ⟨s₆, hserves₆, hlead₁.trans hbody.leads, hfailed, ?_, ?_⟩
    · intro r hr
      have hbodyRegs : [r0, r1, r2, r3, r4, r8, lr] ⊆ [r0, r1, r2, r3, r4, r8, sp, lr] := by decide
      rw [hbody.keeps r (fun hmem => hr (hbodyRegs hmem)), henter.regs r (by rintro rfl; exact hr (by decide))]
    · have hlow : (s₁.regs sp).toNat + 8 = (s.regs sp).toNat := henter.sp
      have henterRam : s.mem.ram.AgreesBut (s₁.regs sp).toNat (s.regs sp).toNat s₁.mem.ram := henter.mem
      exact ((henterRam.write_both 0 []).mono (by omega) (Nat.le_refl _)).trans (hbody.ram.mono (by omega) (by omega))

/-! ## Blocks -/

theorem submit_leads (h : Called .wireWriteBlock 20 s k) (hserves : Serves d s.mem.window) (h0 : s.regs r0 = wWriteBlock)
    (hcov : board.Covers (s.regs r6) (4 * kBlockWords))
    (hapart : (s.regs r6).toNat + 512 ≤ (s.regs sp).toNat - 20 ∨ (s.regs sp).toNat ≤ (s.regs r6).toNat) :
    ∃ t, Returns 0 [] 20 [r0, r1, r3, lr] s t k ∧
      Serves (d.countTransfer.writeBlock (s.regs r1).toUInt8 (s.regs r2)
        (some (s.mem.ram.read (s.regs r6).toNat kBlockBytes))).1 t.mem.window := by
  have hact := activate_writeBlock (s.regs r1).toUInt8 (s.regs r2) hserves.idle
  rw [hserves.device] at hact
  obtain ⟨t, hreturns, a, hidle, hdone, hlog⟩ := wireWriteBlock_leads h (by rw [h0]; rfl)
    (activate_tells hserves.idle _ _) hact rfl hcov hapart
  refine ⟨t, hreturns, ?_, ((fifoRelation_exactly _).direction_none hdone).mpr hidle⟩
  rw [hdone.device, hlog]
  rfl

theorem collect_leads (h : Called .wireReadBlock 20 s k) (hserves : Serves d s.mem.window) (h0 : s.regs r0 = wReadBlock)
    (hcov : board.Covers (s.regs r6) (4 * kBlockWords))
    (hapart : (s.regs r6).toNat + 512 ≤ (s.regs sp).toNat - 20 ∨ (s.regs sp).toNat ≤ (s.regs r6).toNat) :
    let r := d.countTransfer.readBlock (s.regs r1).toUInt8 (s.regs r2) (some kBlockBytes)
    ∃ t, Returns (s.regs r6).toNat r.2.2 20 [r0, r1, r3, lr] s t k ∧ Serves r.1 t.mem.window := by
  intro r
  have hact := activate_readBlock (s.regs r1).toUInt8 (s.regs r2) hserves.idle
  rw [hserves.device] at hact
  have hlen : r.2.2.length = 4 * kBlockWords := Device.readBlock_out_length _ _ _ _
  have hcount : (wordsOf r.2.2).length = kBlockWords := by
    rw [wordsOf_length, hlen]
    exact Nat.mul_div_cancel_left _ (by decide)
  obtain ⟨t, hreturns, a, hidle, hdone, hlog⟩ := wireReadBlock_leads h (by rw [h0]; rfl)
    (activate_tells hserves.idle _ _) hact rfl hcount hcov hapart
  rw [flatMap_le32_wordsOf hlen] at hreturns
  refine ⟨t, hreturns, ?_, ((fifoRelation_exactly _).direction_none hdone).mpr hidle⟩
  rw [hdone.device, hlog]
  rfl

end Ntr

end GekkoPak
