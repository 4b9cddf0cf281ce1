import GekkoPak.Transport.Correctness.Conformance

/-!
# `Transport.Correctness.Foreign` — traffic that is not ours

A command without the `GK` discriminator belongs to somebody else. All three drivers leave the core alone, release the
bus and return zeros; where they part is the data phase. The direct driver has none to offer. The register page drops
the command at its activation, before any phase is opened, so its driver finds no word to move. The DSpico handlers
are past that point when they look at the discriminator: the reads run their course over zeros, and the block of an F4
is refused.
-/

namespace GekkoPak

open Basis

/-- Bytes 1 and 2 are not `GK`. -/
def Transaction.Foreign (t : Transaction) : Prop := t.command.discriminator ≠ (kMagic0, kMagic1)

instance (t : Transaction) : Decidable t.Foreign := inferInstanceAs (Decidable (_ ≠ _))

variable {t : Transaction}

theorem Transaction.Foreign.invalid (h : t.Foreign) : (decodeCommand t.command).valid = false := by
  cases hvalid : (decodeCommand t.command).valid with
  | false => rfl
  | true => exact absurd (decodeCommand_valid.mp hvalid) h

/-! ## The register page -/

section Page

variable {config : Config} {a : Atomic} {w : RegisterWindow}

/-- A driver with words to move that finds no DATA_READY gives up at the first one. -/
theorem regIssue_dropped {command : CommandBytes} {input : Option (List UInt8)} {outLen : Option Nat} {n : Nat}
    (hout : ¬ ((phaseForOpcode command.opcode).direction = .cartToConsole ∧
      tooShort outLen (phaseForOpcode command.opcode).bytes = true))
    (hin : ¬ ((phaseForOpcode command.opcode).direction = .consoleToCart ∧
      tooShort (input.map List.length) (phaseForOpcode command.opcode).bytes = true))
    (hwords : (phaseForOpcode command.opcode).bytes / 4 = n + 1)
    (hready : load32 (stageAndActivate w command (phaseForOpcode command.opcode).blockField).regs kRegRomCnt &&&
      kCardDataReady = 0) :
    regIssue w command input outLen =
      (stageAndActivate w command (phaseForOpcode command.opcode).blockField, ⟨false, zeroed outLen⟩) := by
  have hmove : moveWords (phaseForOpcode command.opcode).direction (input.getD []) (n + 1) 0
      (stageAndActivate w command (phaseForOpcode command.opcode).blockField) (zeroed outLen) =
      (stageAndActivate w command (phaseForOpcode command.opcode).blockField, false, zeroed outLen) := by
    simp only [moveWords, read32_romcnt]
    exact if_pos hready
  simp only [regIssue]
  rw [if_neg hout, if_neg hin, hwords, hmove]

/-- **The page drops a foreign command at its activation**: nothing is logged, no transfer is open, both handshake bits
    are clear, and the driver carries the transaction iff its opcode calls for no data phase. -/
theorem regIssue_foreign (h : Refines config a w) (hidle : a.phase = .idle)
    (ht : (decodeCommand t.command).valid = false) :
    ∃ a' w', regIssue w t.command t.input t.outLen =
        (w', ⟨decide ((phaseForOpcode t.command.opcode).direction = .none), zeroed t.outLen⟩) ∧
      Refines config a' w' ∧ a'.log = a.log ∧ a'.phase = .idle ∧ RomcntTruth w' := by
  obtain ⟨a', hlog, hidle', hcommand, hstart, htells⟩ := h.stageAndActivate hidle t.command
  have hadmitted : ¬ Atomic.Admitted (decodeCommand t.command)
      (kCardResetHigh ||| kCardActivate ||| (phaseForOpcode t.command.opcode).blockField) := by
    rintro ⟨hvalid, -⟩
    rw [ht] at hvalid
    cases hvalid
  simp only [Atomic.activate, hcommand, if_neg hadmitted] at hstart
  have hclosed := hstart.direction_none.mpr hidle'
  -- both bits are clear after any activation that opens no phase
  have hclear : load32 (stageAndActivate w t.command (phaseForOpcode t.command.opcode).blockField).regs kRegRomCnt &&&
        kCardActivate = 0 ∧
      load32 (stageAndActivate w t.command (phaseForOpcode t.command.opcode).blockField).regs kRegRomCnt &&&
        kCardDataReady = 0 := by
    have heq := stageAndActivate_eq (h.direction_none.mpr hidle) t.command (phaseForOpcode t.command.opcode).blockField
    rw [heq] at hclosed ⊢
    exact (romcntShows_startCommand (P := fun _ => True)
      (Q := fun v => v &&& kCardActivate = 0 ∧ v &&& kCardDataReady = 0) closed_truth trivial).2 hclosed
  refine ⟨a', stageAndActivate w t.command (phaseForOpcode t.command.opcode).blockField, ?_, hstart, hlog, hidle', ?_⟩
  · have hnone : phaseForOpcode t.command.opcode = ⟨.none, 0, kCardBlockNone⟩ → t.outLen = none →
        regIssue w t.command t.input t.outLen =
          (stageAndActivate w t.command (phaseForOpcode t.command.opcode).blockField,
            ⟨decide ((phaseForOpcode t.command.opcode).direction = .none), zeroed t.outLen⟩) := by
      intro hphase hlen
      rw [(fifoRelation_refines config).regIssue_immediate hstart htells hidle' hphase hlen, hphase, hlen]
      rfl
    rcases t.op_cases with ⟨hcode, -, hin, hlen⟩ | ⟨hcode, -, hin, hlen⟩ | ⟨hcode, -, hin, hlen⟩ |
      ⟨hcode, -, hin, hlen⟩ | ⟨hcode, -, hin, hlen⟩ | ⟨hcode, -, hin, hlen⟩ | ⟨hcode, -, hin, hlen⟩
    · exact hnone (by simp only [phaseForOpcode, hcode]) hlen
    · exact hnone (by simp only [phaseForOpcode, hcode]) hlen
    · exact hnone (by simp only [phaseForOpcode, hcode]) hlen
    · exact hnone (by simp only [phaseForOpcode, hcode]) hlen
    · -- F2
      rw [regIssue_dropped (n := 0) (by simp [phaseForOpcode, hcode, hlen, tooShort])
        (by simp [phaseForOpcode, hcode]) (by simp [phaseForOpcode, hcode]) hclear.2]
      simp [phaseForOpcode, hcode]
    · -- F5
      rw [regIssue_dropped (n := 127) (by simp [phaseForOpcode, hcode, hlen, tooShort])
        (by simp [phaseForOpcode, hcode]) (by simp [phaseForOpcode, hcode, kBlockBytes]) hclear.2]
      simp [phaseForOpcode, hcode]
    · -- F4
      rw [regIssue_dropped (n := 127) (by simp [phaseForOpcode, hcode])
        (by simp [phaseForOpcode, hcode, hin, tooShort]) (by simp [phaseForOpcode, hcode, kBlockBytes]) hclear.2]
      simp [phaseForOpcode, hcode]
  · rw [romcntTruth_iff]
    exact ⟨fun hopen => absurd hclosed hopen, fun _ => hclear⟩

/-- Between transactions of any kind no transfer is open on the page. -/
theorem azaharModel_idle (ts : List Transaction) :
    ∃ a : Atomic, Refines conformanceConfig a (azaharModel.run ts) ∧ a.phase = .idle := by
  refine Machine.invariant (M := azaharModel)
    (I := fun w => ∃ a : Atomic, Refines conformanceConfig a w ∧ a.phase = .idle) ?_ ?_ (Machine.reachable_run _ ts)
  · exact ⟨{}, refines_reset conformanceConfig, rfl⟩
  · rintro w t ⟨a, h, hidle⟩
    cases hvalid : (decodeCommand t.command).valid with
    | true =>
      obtain ⟨⟨a', h', hidle', -⟩, -⟩ := regIssue_conforms ⟨a, h, hidle, rfl⟩ hvalid
      exact ⟨a', h', hidle'⟩
    | false =>
      obtain ⟨a', w', heq, h', -, hidle', -⟩ := regIssue_foreign h hidle hvalid
      have hnext : azaharModel.next w t = w' := congrArg Prod.fst heq
      rw [hnext]
      exact ⟨a', h', hidle'⟩

end Page

/-! ## The DSpico handlers -/

section Handlers

variable {d : Dspico}

/-- No handler takes a foreign command for its own. -/
theorem Transaction.Foreign.commandMatches (h : t.Foreign) (opcode : UInt8) :
    (d.atCmd1 t.command).romEmu.commandMatches opcode = false := by
  cases hmatch : (d.atCmd1 t.command).romEmu.commandMatches opcode with
  | false => rfl
  | true =>
    have hcmd0 : (d.atCmd1 t.command).romEmu.cmd0 =
        beWord t.command[0] t.command[1] t.command[2] t.command[3] := rfl
    obtain ⟨-, hG, hK⟩ := (commandMatches_iff hcmd0 opcode).mp hmatch
    exact absurd (Prod.ext hG hK) h

/-- **The handlers run the reads of a foreign command over zeros and take no block from it.** -/
theorem issueCommand_foreign (h : t.Foreign) (d : Dspico) :
    ∃ d', d.issueCommand t.command t.input (t.outLen.map (fun n => List.replicate n 0)) =
        (d', { declaredBytes := t.outLen.getD 0, suppliedBytes := t.outLen.getD 0, responseBytes := t.outLen.getD 0 },
          t.outLen.map (fun n => List.replicate n 0)) ∧ d'.device = d.device := by
  have hno : ∀ opcode, (d.atCmd1 t.command).romEmu.commandMatches opcode = false := h.commandMatches
  -- F0, F1 and F3 share their handler
  have himmediate : ∀ (opcode : WireOpcode) (run : Device → UInt8 → UInt32 → Device), t.outLen = none →
      Dspico.handlersFor t.command.opcode = some (Dspico.cmd0Handler, Dspico.cmd1NoPayload opcode run) →
      ∃ d', d.issueCommand t.command t.input (t.outLen.map (fun n => List.replicate n 0)) =
        (d', { declaredBytes := t.outLen.getD 0, suppliedBytes := t.outLen.getD 0, responseBytes := t.outLen.getD 0 },
          t.outLen.map (fun n => List.replicate n 0)) ∧ d'.device = d.device := by
    intro opcode run hlen hhandlers
    have hno' : ¬ (d.atCmd1 t.command).noPayload.romEmu.commandMatches opcode.code = true := by
      rw [show (d.atCmd1 t.command).noPayload.romEmu = (d.atCmd1 t.command).romEmu from rfl, hno]
      simp
    rw [Dspico.issueCommand_handled _ _ hhandlers, hlen]
    simp only [Dspico.cmd1NoPayload, if_neg hno']
    exact ⟨_, rfl, rfl⟩
  rcases t.op_cases with ⟨hcode, -, hin, hlen⟩ | ⟨hcode, -, hin, hlen⟩ | ⟨hcode, -, hin, hlen⟩ |
    ⟨hcode, -, hin, hlen⟩ | ⟨hcode, -, hin, hlen⟩ | ⟨hcode, -, hin, hlen⟩ | ⟨hcode, -, hin, hlen⟩
  · refine ⟨d.latchCommand t.command, ?_, rfl⟩
    rw [hlen]
    simp only [Dspico.issueCommand, Dspico.handlersFor, hcode]
    rfl
  · exact himmediate .writeReg Device.writeReg hlen (by simp only [Dspico.handlersFor, hcode]; rfl)
  · exact himmediate .exec Device.exec hlen (by simp only [Dspico.handlersFor, hcode]; rfl)
  · exact himmediate .writePayloadWord Device.writePayloadWord hlen (by simp only [Dspico.handlersFor, hcode]; rfl)
  · -- F2
    have hhandlers : Dspico.handlersFor t.command.opcode = some (Dspico.cmd0Handler, Dspico.readRegCmd1) := by
      simp only [Dspico.handlersFor, hcode]
    have hvalue : (d.atCmd1 t.command).readRegValue = 0 := by
      simp only [Dspico.readRegValue, hno, Bool.false_eq_true, if_false]
    rw [Dspico.issueCommand_handled _ _ hhandlers, hlen]
    simp only [Dspico.readRegCmd1, hvalue]
    have hfifo : (((d.atCmd1 t.command).beginWrite 4).writeWord 0).finishCmd1.fifo = [3, 0] := by
      simp [Dspico.beginWrite, Dspico.writeWord]
    refine ⟨_, Dspico.dataPhase_word hfifo ?_ ?_ t.input, ?_⟩
    · simp [Dspico.beginWrite, Dspico.writeWord]
    · simp [Dspico.beginWrite, Dspico.writeWord]
    · simp [Dspico.beginWrite, Dspico.writeWord]
  · -- F5
    have hhandlers : Dspico.handlersFor t.command.opcode = some (Dspico.cmd0Handler, Dspico.readBlockCmd1) := by
      simp only [Dspico.handlersFor, hcode]
    have hRx : ((((({ d.atCmd1 t.command with blockRx := List.replicate kBlockBytes 0 } : Dspico).beginWrite
        (UInt32.ofNat kBlockBytes)).dmaToBus .blockRx (UInt32.ofNat kBlockBytes)).finishCmd1).blockRx) =
        List.replicate kBlockBytes 0 := by
      simp [Dspico.beginWrite]
    rw [Dspico.issueCommand_handled _ _ hhandlers, hlen]
    simp only [Dspico.readBlockCmd1, hno, Bool.false_eq_true, if_false]
    rw [Option.map_some, Dspico.dataPhase_dma (by simp [Dspico.beginWrite, Dspico.writeDirective])
      (by simp [Dspico.beginWrite]) (by simp) rfl (by rw [hRx, List.length_replicate]), hRx]
    exact ⟨_, rfl, rfl⟩
  · -- F4
    have hhandlers : Dspico.handlersFor t.command.opcode = some (Dspico.cmd0Handler, Dspico.writeBlockCmd1) := by
      simp only [Dspico.handlersFor, hcode]
    rw [Dspico.issueCommand_handled _ _ hhandlers, hlen]
    simp only [Dspico.writeBlockCmd1, hno, Bool.not_false, true_or, if_true, Bool.false_eq_true, if_false]
    rw [Option.map_none, Dspico.dataPhase_noPayload (by simp [Dspico.noPayload]) (by simp [Dspico.noPayload])]
    exact ⟨_, rfl, rfl⟩

end Handlers

/-! ## The three drivers -/

/-- The direct driver counts the transaction and does nothing else. -/
theorem coreIssue_foreign (h : t.Foreign) (s : Device) :
    hostCore.step s t = (s.countTransfer, ⟨true, zeroed t.outLen⟩) := by
  show coreIssue s t.command t.input t.outLen = _
  simp only [coreIssue, h.invalid, Bool.not_false, if_true]

/-- **Foreign traffic, in every reachable state of every driver.** The direct driver carries it. The register page
    releases the bus with both handshake bits clear and carries it iff its opcode calls for no data phase. The DSpico
    handlers carry it, with the data phase of a read declared and supplied in full and none for anything else. All
    three return zeros and leave the core as it was, but for the transfer counter. -/
theorem foreign_traffic (ts : List Transaction) {t : Transaction} (h : t.Foreign) :
    let c := hostCore.run ts
    let w := azaharModel.run ts
    let d := dspicoShim.run ts
    (hostCore.out c t = ⟨true, zeroed t.outLen⟩ ∧ hostCore.next c t = c.countTransfer) ∧
    (azaharModel.out w t = ⟨decide ((phaseForOpcode t.command.opcode).direction = .none), zeroed t.outLen⟩ ∧
      Device.SameCore w.device (azaharModel.next w t).device ∧
      (azaharModel.next w t).transport.transferActive = false ∧ RomcntTruth (azaharModel.next w t)) ∧
    (dspicoShim.out d t = ⟨true, zeroed t.outLen⟩ ∧ (dspicoShim.next d t).device = d.device ∧
      (d.issueCommand t.command t.input (t.outLen.map (fun n => List.replicate n 0))).2.1 =
        { declaredBytes := t.outLen.getD 0, suppliedBytes := t.outLen.getD 0, responseBytes := t.outLen.getD 0 }) := by
  intro c w d
  refine ⟨?_, ?_, ?_⟩
  · have hstep := coreIssue_foreign h c
    exact ⟨congrArg Prod.snd hstep, congrArg Prod.fst hstep⟩
  · obtain ⟨a, hrefines, hidle⟩ := azaharModel_idle ts
    obtain ⟨a', w', hissue, hrefines', hlog, hidle', htruth⟩ := regIssue_foreign hrefines hidle h.invalid
    have hnext : azaharModel.next w t = w' := congrArg Prod.fst hissue
    rw [hnext]
    refine ⟨congrArg Prod.snd hissue, ?_, ?_, htruth⟩
    · -- both are the device of the same log, up to the counter
      obtain ⟨n, hn⟩ := hrefines.core
      obtain ⟨m, hm⟩ := hrefines'.core
      rw [hlog] at hm
      exact ⟨m, by rw [hm, hn]; rfl⟩
    · rw [RegisterTransport.transferActive, hrefines'.direction_none.mpr hidle']
      rfl
  · obtain ⟨d', hissue, hdevice⟩ := issueCommand_foreign h d
    have hnext : dspicoShim.next d t = d' := congrArg Prod.fst hissue
    refine ⟨?_, hnext ▸ hdevice, by rw [hissue]⟩
    rw [dspicoShim_out, hissue]
    cases t.outLen <;> rfl

/-- Another cartridge's read of four bytes. -/
def foreignRead : Transaction := ⟨#v[0xF2, 0, 0, 5, 0, 0, 0, 0], Vector.replicate _ 0⟩

theorem foreign_traffic_read :
    foreignRead.Foreign ∧ hostCore.out (hostCore.run []) foreignRead = ⟨true, [0, 0, 0, 0]⟩ ∧
      azaharModel.out (azaharModel.run []) foreignRead = ⟨false, [0, 0, 0, 0]⟩ ∧
      dspicoShim.out (dspicoShim.run []) foreignRead = ⟨true, [0, 0, 0, 0]⟩ := by
  have hforeign : foreignRead.Foreign := by decide
  obtain ⟨⟨hcore, -⟩, ⟨hpage, -⟩, ⟨hdspico, -⟩⟩ := foreign_traffic [] hforeign
  exact ⟨hforeign, hcore, hpage, hdspico⟩

/-- The register page's driver does not see that read to its end: the word it waits for is never offered. -/
theorem foreign_read_not_carried :
    ¬ ∀ (ts : List Transaction) (t : Transaction), t.Foreign →
      (azaharModel.out (azaharModel.run ts) t).carried = true := by
  intro h
  have hcarried := h [] foreignRead (by decide)
  revert hcarried
  decide +kernel

end GekkoPak
