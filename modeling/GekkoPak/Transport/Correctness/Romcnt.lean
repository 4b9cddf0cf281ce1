import GekkoPak.Transport.Register

/-!
# `Transport.Correctness.Romcnt` — what ROMCNT tells the guest

The transport writes two bits of ROMCNT: it raises DATA_READY when it opens a data phase, and clears DATA_READY and
ACTIVATE when it closes one. `RomcntShows P Q` says that ROMCNT satisfies `P` while a phase is open and `Q` while none
is; everything but a guest write to ROMCNT keeps that, for any `P` and `Q` of use.

The guest's own writes go through unmasked, to the same register. A write in the middle of a transfer, or one that
sets DATA_READY with no transfer open, is read back as it was written, so ROMCNT tells the truth exactly along runs
without such writes (`romcnt_truth_iff`). The drivers make none (`RomcntTells`).
-/

namespace GekkoPak

open Basis

/-! ## Bits -/

/-- A bit just set is set. -/
theorem or_and_same (x b : UInt32) : (x ||| b) &&& b = b := by
  apply UInt32.toBitVec_inj.mp
  simp only [UInt32.toBitVec_and, UInt32.toBitVec_or]
  ext i hi
  simp only [BitVec.getElem_and, BitVec.getElem_or]
  cases b.toBitVec[i] <;> simp

theorem or_and_distrib (x a b : UInt32) : (x ||| a) &&& b = x &&& b ||| a &&& b := by
  apply UInt32.toBitVec_inj.mp
  simp only [UInt32.toBitVec_and, UInt32.toBitVec_or]
  ext i hi
  simp only [BitVec.getElem_and, BitVec.getElem_or]
  cases b.toBitVec[i] <;> simp

/-! ## What the transport keeps -/

/-- ROMCNT satisfies `P` while a phase is open and `Q` while none is. -/
def RomcntShows (P Q : UInt32 → Prop) (w : RegisterWindow) : Prop :=
  (w.transport.direction ≠ .none → P (load32 w.regs kRegRomCnt)) ∧
  (w.transport.direction = .none → Q (load32 w.regs kRegRomCnt))

/-- Opening a phase raises DATA_READY and touches nothing else of ROMCNT. -/
theorem romcntShows_openPhase {P Q : UInt32 → Prop} (w : RegisterWindow) (cmd : WireCommand) (phase : ExpectedPhase)
    (h : phase.direction ≠ .none) (hopen : P (load32 w.regs kRegRomCnt ||| kCardDataReady)) :
    RomcntShows P Q (w.openPhase cmd phase) := by
  have hkeep : (w.openPhase cmd phase).transport.direction = phase.direction ∧
      load32 (w.openPhase cmd phase).regs kRegRomCnt = load32 w.regs kRegRomCnt ||| kCardDataReady := by
    simp only [RegisterWindow.openPhase, load32_store32_same]
    split
    · simp only [RegisterWindow.fetchResponse]
      split <;> exact ⟨rfl, rfl⟩
    · exact ⟨rfl, rfl⟩
  refine ⟨fun _ => ?_, fun hnone => absurd (hkeep.1 ▸ hnone) h⟩
  rw [hkeep.2]
  exact hopen

/-- Stores elsewhere keep what ROMCNT shows. -/
theorem RomcntShows.store {P Q : UInt32 → Prop} {w : RegisterWindow} (h : RomcntShows P Q w) {offset : Nat}
    {value : UInt32} (hmiss : offset + 4 ≤ kRegRomCnt ∨ kRegRomCnt + 4 ≤ offset) :
    RomcntShows P Q { w with regs := store32 w.regs offset value } := by
  have hload : load32 (store32 w.regs offset value) kRegRomCnt = load32 w.regs kRegRomCnt := by
    rw [load32, read_store32_of_disjoint hmiss, load32]
  unfold RomcntShows
  simp only [hload]
  exact h

section Shows

variable {P Q : UInt32 → Prop} (hclosed : ∀ v, Q (v &&& ~~~(kCardActivate ||| kCardDataReady)))

include hclosed

/-- `EndTransfer` clears both bits. -/
theorem romcntShows_endTransfer (w : RegisterWindow) : RomcntShows P Q w.endTransfer := by
  refine ⟨fun h => absurd rfl h, fun _ => ?_⟩
  show Q (load32 (store32 w.regs kRegRomCnt _) kRegRomCnt)
  rw [load32_store32_same]
  exact hclosed _

/-- FIFO reads keep it. -/
theorem RomcntShows.readFifo {w : RegisterWindow} (h : RomcntShows P Q w) : RomcntShows P Q w.readFifo.1 := by
  simp only [RegisterWindow.readFifo]
  split
  · exact h
  · simp only
    split
    · exact romcntShows_endTransfer hclosed _
    · exact h

/-- FIFO writes keep it. -/
theorem RomcntShows.writeFifo {w : RegisterWindow} (h : RomcntShows P Q w) (value : UInt32) :
    RomcntShows P Q (w.writeFifo value) := by
  simp only [RegisterWindow.writeFifo]
  split
  · exact h
  · split
    · exact romcntShows_endTransfer hclosed _
    · exact h

/-- After an activation the command is over, or its phase is open with DATA_READY raised. -/
theorem romcntShows_startCommand {w : RegisterWindow} (hopen : P (load32 w.regs kRegRomCnt ||| kCardDataReady)) :
    RomcntShows P Q w.startCommand := by
  simp only [RegisterWindow.startCommand]
  split
  · exact romcntShows_endTransfer hclosed _
  split
  · exact romcntShows_endTransfer hclosed _
  split
  · exact romcntShows_endTransfer hclosed _
  · exact romcntShows_openPhase _ _ _ (by assumption) hopen

end Shows

/-! ## What a driver can rely on -/

/-- DATA_READY is set while a phase is open; once none is, ACTIVATE is clear. -/
def RomcntTells (w : RegisterWindow) : Prop :=
  (w.transport.direction ≠ .none → load32 w.regs kRegRomCnt &&& kCardDataReady ≠ 0) ∧
  (w.transport.direction = .none → load32 w.regs kRegRomCnt &&& kCardActivate = 0)

theorem activate_closed (v : UInt32) : v &&& ~~~(kCardActivate ||| kCardDataReady) &&& kCardActivate = 0 := by
  have hmask : ~~~(kCardActivate ||| kCardDataReady) &&& kCardActivate = 0 := by decide
  rw [UInt32.and_assoc, hmask, UInt32.and_zero]

theorem romcntTells_iff (w : RegisterWindow) :
    RomcntTells w ↔ RomcntShows (fun v => v &&& kCardDataReady ≠ 0) (fun v => v &&& kCardActivate = 0) w := Iff.rfl

/-- An activation leaves ROMCNT true, whatever it was before. -/
theorem romcntTells_startCommand (w : RegisterWindow) : RomcntTells w.startCommand := by
  rw [romcntTells_iff]
  refine romcntShows_startCommand activate_closed ?_
  rw [or_and_same]
  decide

theorem RomcntTells.readFifo {w : RegisterWindow} (h : RomcntTells w) : RomcntTells w.readFifo.1 := by
  rw [romcntTells_iff] at h ⊢
  exact h.readFifo activate_closed

theorem RomcntTells.writeFifo {w : RegisterWindow} (h : RomcntTells w) (value : UInt32) :
    RomcntTells (w.writeFifo value) := by
  rw [romcntTells_iff] at h ⊢
  exact h.writeFifo activate_closed value

/-! ## The truth, and which accesses keep it -/

/-- Both handshake bits of ROMCNT, as the guest reads it, are set while a transfer is active and clear while none is. -/
def RomcntTruth (w : RegisterWindow) : Prop :=
  (w.transport.transferActive = true →
    (w.read32 4).2 &&& kCardActivate ≠ 0 ∧ (w.read32 4).2 &&& kCardDataReady ≠ 0) ∧
  (w.transport.transferActive = false →
    (w.read32 4).2 &&& kCardActivate = 0 ∧ (w.read32 4).2 &&& kCardDataReady = 0)

/-- A write to ROMCNT says nothing the transport does not: in the middle of a transfer it repeats both bits, and with
    no transfer open it starts one or leaves DATA_READY clear. -/
def Candid (w : RegisterWindow) : Access → Prop
  | .read _ => True
  | .write offset value => offset.toNat = kRegRomCnt →
    (w.transport.transferActive = true → value &&& kCardActivate ≠ 0 ∧ value &&& kCardDataReady ≠ 0) ∧
    (w.transport.transferActive = false → value &&& kCardActivate = 0 → value &&& kCardDataReady = 0)

instance (w : RegisterWindow) : (a : Access) → Decidable (Candid w a)
  | .read _ => inferInstanceAs (Decidable True)
  | .write _ _ => inferInstanceAs (Decidable (_ → _))

theorem transferActive_iff (t : RegisterTransport) : t.transferActive = true ↔ t.direction ≠ .none := by
  simp [RegisterTransport.transferActive]

theorem transferActive_iff_not (t : RegisterTransport) : t.transferActive = false ↔ t.direction = .none := by
  simp [RegisterTransport.transferActive]

theorem romcntTruth_iff (w : RegisterWindow) :
    RomcntTruth w ↔ RomcntShows (fun v => v &&& kCardActivate ≠ 0 ∧ v &&& kCardDataReady ≠ 0)
      (fun v => v &&& kCardActivate = 0 ∧ v &&& kCardDataReady = 0) w := by
  unfold RomcntTruth RomcntShows
  rw [transferActive_iff, transferActive_iff_not]
  exact Iff.rfl

theorem closed_truth (v : UInt32) :
    v &&& ~~~(kCardActivate ||| kCardDataReady) &&& kCardActivate = 0 ∧
      v &&& ~~~(kCardActivate ||| kCardDataReady) &&& kCardDataReady = 0 := by
  have hmask : ~~~(kCardActivate ||| kCardDataReady) &&& kCardDataReady = 0 := by decide
  refine ⟨activate_closed v, ?_⟩
  rw [UInt32.and_assoc, hmask, UInt32.and_zero]

/-- Raising DATA_READY leaves ACTIVATE as it was. -/
theorem activate_or_ready (v : UInt32) : (v ||| kCardDataReady) &&& kCardActivate = v &&& kCardActivate := by
  have hdisj : kCardDataReady &&& kCardActivate = 0 := by decide
  rw [or_and_distrib, hdisj, UInt32.or_zero]

/-- A write to ROMCNT starts a command, or is read back as it was written. -/
theorem write32_romcnt_cases (w : RegisterWindow) {offset : UInt32} (value : UInt32) (hat : offset.toNat = kRegRomCnt)
    (hwin : ¬ (offset + 4).toNat > kRegisterPageSize) :
    w.write32 offset value =
      if value &&& kCardActivate ≠ 0 ∧ w.transport.direction = .none then
        { w with regs := store32 w.regs kRegRomCnt value }.startCommand
      else { w with regs := store32 w.regs kRegRomCnt value } := by
  have hfifo : ¬ kRegRomCnt = kRegFifo := by decide
  simp only [RegisterWindow.write32, if_neg hwin, hat, if_neg hfifo, true_and]

/-- **A true ROMCNT stays true exactly through candid accesses.** -/
theorem romcntTruth_step_iff {w : RegisterWindow} (hw : RomcntTruth w) {a : Access} (ha : a.Aligned) :
    RomcntTruth (w.step a).1 ↔ Candid w a := by
  have hshows := (romcntTruth_iff w).mp hw
  have hwin := ha.inWindow
  have halign : a.offset.toNat % 4 = 0 := ha.1
  cases a with
  | read offset =>
    refine ⟨fun _ => trivial, fun _ => ?_⟩
    change ¬ (offset + 4).toNat > kRegisterPageSize at hwin
    show RomcntTruth (w.read32 offset).1
    simp only [RegisterWindow.read32, if_neg hwin]
    split
    · rw [romcntTruth_iff]
      exact hshows.readFifo closed_truth
    · exact hw
  | write offset value =>
    change ¬ (offset + 4).toNat > kRegisterPageSize at hwin
    change offset.toNat % 4 = 0 at halign
    show RomcntTruth (w.write32 offset value) ↔ _
    by_cases hat : offset.toNat = kRegRomCnt
    · rw [write32_romcnt_cases w value hat hwin]
      unfold Candid
      simp only [hat, true_imp_iff, transferActive_iff, transferActive_iff_not]
      by_cases hstart : value &&& kCardActivate ≠ 0 ∧ w.transport.direction = .none
      · rw [if_pos hstart]
        refine ⟨fun _ => ⟨fun h => absurd hstart.2 h, fun _ h => absurd h hstart.1⟩, fun _ => ?_⟩
        rw [romcntTruth_iff]
        refine romcntShows_startCommand closed_truth ?_
        simp only [load32_store32_same, activate_or_ready, or_and_same]
        exact ⟨hstart.1, by decide⟩
      · -- the value is stored and nothing else happens
        rw [if_neg hstart, romcntTruth_iff]
        unfold RomcntShows
        simp only [load32_store32_same]
        refine and_congr_right (fun _ => ?_)
        constructor
        · intro h hdir _
          exact (h hdir).2
        · intro h hdir
          have hact : value &&& kCardActivate = 0 := by
            by_contra hne
            exact hstart ⟨hne, hdir⟩
          exact ⟨hact, h hdir hact⟩
    · refine ⟨fun _ h => absurd h hat, fun _ => ?_⟩
      have hno : ∀ p : Prop, ¬ (offset.toNat = kRegRomCnt ∧ p) := fun p hp => hat hp.1
      rw [romcntTruth_iff]
      simp only [RegisterWindow.write32, if_neg hwin, if_neg (hno _)]
      split
      · exact hshows.writeFifo closed_truth value
      · refine hshows.store ?_
        change offset.toNat ≠ 4 at hat
        show offset.toNat + 4 ≤ 4 ∨ 8 ≤ offset.toNat
        omega

/-- **When ROMCNT tells the truth.** For every run of aligned accesses from `Reset`: ROMCNT is true after every access
    iff every write the guest makes to it is candid at that point. -/
theorem romcnt_truth_iff (config : Config) {accesses : List Access} (halign : ∀ a ∈ accesses, a.Aligned) :
    (∀ done, done <+: accesses → RomcntTruth ((RegisterWindow.machine config).run done)) ↔
      ∀ done a, done ++ [a] <+: accesses → Candid ((RegisterWindow.machine config).run done) a := by
  constructor
  · intro htruth done a hpre
    have hmem : a ∈ accesses := hpre.subset (by simp)
    have hbefore := htruth done ((List.prefix_append done [a]).trans hpre)
    have hafter := htruth (done ++ [a]) hpre
    rw [Machine.run_concat] at hafter
    exact (romcntTruth_step_iff hbefore (halign a hmem)).mp hafter
  · intro hcandid
    refine Machine.invariant_along (M := RegisterWindow.machine config) (I := RomcntTruth)
      (C := fun w a => a.Aligned ∧ Candid w a) ?_ (fun w a hw hok => (romcntTruth_step_iff hw hok.1).mpr hok.2)
      (fun done a hpre => ⟨halign a (hpre.subset (by simp)), hcandid done a hpre⟩)
    refine ⟨fun h => ?_, fun _ => ?_⟩
    · cases h
    · have hload : (((RegisterWindow.machine config).run []).read32 4).2 = kCardResetHigh :=
        load32_store32_same Mem.zero kRegRomCnt kCardResetHigh
      show (((RegisterWindow.machine config).run []).read32 4).2 &&& kCardActivate = 0 ∧
        (((RegisterWindow.machine config).run []).read32 4).2 &&& kCardDataReady = 0
      rw [hload]
      decide

/-- An F2 of the event register, up to its activation. -/
def eventActivation : List Access := [.write 8 0xFE4B47F2, .write 12 0, .write 4 0xA7000000]

/-- The activation is candid, so ROMCNT is true with the data phase open. -/
theorem romcnt_truth_activation :
    ((RegisterWindow.machine {}).run eventActivation).transport.transferActive = true ∧
      RomcntTruth ((RegisterWindow.machine {}).run eventActivation) := by
  refine ⟨by decide +kernel, (romcnt_truth_iff {} (by decide)).mpr ?_ _ (List.prefix_refl _)⟩
  intro done a hpre
  rcases done with _ | ⟨b, _ | ⟨c, _ | ⟨d, done⟩⟩⟩ <;>
    simp only [eventActivation, List.nil_append, List.cons_append, List.cons_prefix_cons, List.prefix_nil,
      List.append_eq_nil_iff, reduceCtorEq, and_false] at hpre
  · rw [hpre.1]; decide
  · rw [hpre.1, hpre.2.1]; decide
  · rw [hpre.1, hpre.2.1, hpre.2.2.1]; decide

/-- A guest that writes ROMCNT without the two bits, one word before the end of an F2, reads it back without them. -/
theorem romcnt_written_over :
    let w := (RegisterWindow.machine {}).run (eventActivation ++ [.write 4 0x20000000])
    (∀ a ∈ eventActivation ++ [.write 4 0x20000000], a.Aligned) ∧
    w.transport.transferActive = true ∧ (w.read32 4).2 = 0x20000000 ∧ ¬ RomcntTruth w := by
  intro w
  have hactive : w.transport.transferActive = true := by decide +kernel
  have hread : (w.read32 4).2 = 0x20000000 := by decide +kernel
  refine ⟨by decide, hactive, hread, fun htruth => ?_⟩
  have hset := (htruth.1 hactive).1
  rw [hread] at hset
  exact absurd hset (by decide)

end GekkoPak
