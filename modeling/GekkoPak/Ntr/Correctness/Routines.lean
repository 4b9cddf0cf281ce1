import GekkoPak.Basis.Stack
import GekkoPak.Ntr.Program
import GekkoPak.Transport.Correctness.HostModel

/-!
# `Ntr.Correctness.Routines` — the guest's bus routines

Each routine of the guest's cartridge bus is one operation of the core, whatever state device and page are in, as long
as no transfer is open: `wire`, `wire_read4`, `wire_write_block` and `wire_read_block`, and above them `wrreg`, `rdreg`
and `exec_hi`. Besides that a routine leaves alone every register it is to preserve, and every byte of memory but the
few below the stack pointer (and the buffer it is to fill).
-/

namespace GekkoPak

open Basis Arm

namespace Ntr

/-! ## Calls -/

/-- Some number of instructions leads from `s` to `t`. -/
abbrev Leads (s t : State Board) : Prop := Reaches (Arm.step program bus) s t

/-- All registers but these are as they were. -/
def Keeps (rs : List Reg) (s t : State Board) : Prop := ∀ r, r ∉ rs → t.regs r = s.regs r

theorem Keeps.trans {rs rs' : List Reg} {s t u : State Board} (h : Keeps rs s t) (h' : Keeps rs' t u) :
    Keeps (rs ++ rs') s u := by
  intro r hr
  rw [List.mem_append, not_or] at hr
  rw [h' r hr.2, h r hr.1]

theorem Keeps.mono {rs rs' : List Reg} {s t : State Board} (h : Keeps rs s t) (hsub : rs ⊆ rs') : Keeps rs' s t :=
  fun r hr => h r (fun hmem => hr (hsub hmem))

/-- The memory of the board, with the register page beside it. -/
def board : Window bus RegisterWindow where
  mem        := Board.ram
  rest       := Board.window
  covers a   := !onPage a
  load h       := by simp only [Bool.not_eq_true'] at h; simp [bus, h]
  store_mem h  := by simp only [Bool.not_eq_true'] at h; simp [bus, h]
  store_rest h := by simp only [Bool.not_eq_true'] at h; simp [bus, h]

/-- The routine at `l` has been called, to return to instruction `k`, with `n` bytes of stack. -/
structure Called (l : Label) (n : Nat) (s : State Board) (k : Nat) : Prop where
  pc   : s.pc = program.target l
  page : s.regs r10 = ntr
  ret  : s.regs lr = program.addr k
  lt   : k < 2 ^ 30
  room : board.Room s n

/-- A call, after some straight-line code that leaves stack pointer and page alone. -/
theorem calls {s : State Board} {j n : Nat} (hpc : s.pc = j) (os : List Op) (l : Label)
    (hcode : program.Embeds j (os.map .op ++ [.bl l])) (hkeep : sp ∉ os.flatMap Op.dst ∧ r10 ∉ os.flatMap Op.dst)
    (hpage : s.regs r10 = ntr) (hroom : board.Room s n) (hlt : j + os.length + 1 < 2 ^ 30) :
    ∃ t, Leads s t ∧ Called l n t (j + os.length + 1) ∧ Keeps (lr :: os.flatMap Op.dst) s t ∧
      (∀ r, r ≠ lr → t.regs r = (effects bus s os).regs r) ∧ t.mem = (effects bus s os).mem := by
  subst hpc
  have hother : ∀ {r}, r ≠ lr → ((effects bus s os).set lr (program.addr (s.pc + os.length + 1))).regs r
      = (effects bus s os).regs r := fun hr => State.set_regs_ne _ _ hr
  have hstack : ((effects bus s os).set lr (program.addr (s.pc + os.length + 1))).regs sp = s.regs sp :=
    (hother (by decide)).trans (effects_regs_ne os s hkeep.1)
  refine ⟨_, reaches_bl os s hcode, ⟨rfl, ?_, ?_, hlt, ?_, ?_⟩, ?_, fun r hr => hother hr, rfl⟩
  · exact (hother (by decide)).trans ((effects_regs_ne os s hkeep.2).trans hpage)
  · exact State.set_regs_same (effects bus s os) lr (program.addr (s.pc + os.length + 1))
  · exact hstack ▸ hroom.le
  · exact hstack ▸ hroom.covers
  · intro r hr
    obtain ⟨hlr, hdst⟩ := not_or.mp (fun h => hr (List.mem_cons.mpr h))
    exact (hother hlr).trans (effects_regs_ne os s hdst)

/-- Straight-line code. -/
theorem straight {s : State Board} {j : Nat} (hpc : s.pc = j) (os : List Op) (hcode : program.Embeds j (os.map .op)) :
    ∃ t, Leads s t ∧ t.pc = j + os.length ∧ Keeps (os.flatMap Op.dst) s t ∧
      (∀ r, t.regs r = (effects bus s os).regs r) ∧ t.mem = (effects bus s os).mem := by
  subst hpc
  exact ⟨_, reaches_block os s hcode, rfl, fun r hr => effects_regs_ne os s hr, fun _ => rfl, rfl⟩

/-- Straight-line code up to a branch. -/
theorem branched {s : State Board} {j : Nat} (hpc : s.pc = j) (os : List Op) (c : Cond) (l : Label)
    (hcode : program.Embeds j (os.map .op ++ [.b c l])) :
    ∃ t, Leads s t ∧ t.pc = (if (effects bus s os).holds c then program.target l else j + os.length + 1) ∧
      Keeps (os.flatMap Op.dst) s t ∧ (∀ r, t.regs r = (effects bus s os).regs r) ∧ t.mem = (effects bus s os).mem := by
  subst hpc
  exact ⟨_, reaches_b os s hcode, rfl, fun r hr => effects_regs_ne os s hr, fun _ => rfl, rfl⟩

/-- On entry a called routine saves its registers. -/
theorem entered {s : State Board} {l : Label} {n k : Nat} (h : Called l n s k) (rs : List Reg)
    (hpush : program.code[program.target l]? = some (.op (.push (rs ++ [lr])))) (hn : 4 * (rs.length + 1) ≤ n) :
    ∃ t, Leads s t ∧ Entered board rs s t ∧ t.pc = program.target l + 1 ∧ t.regs r10 = ntr := by
  obtain ⟨t, hlead, henter⟩ := enter (h.pc ▸ hpush) (h.room.mono hn)
  exact ⟨t, hlead, henter, by rw [henter.pc, h.pc], (henter.regs r10 (by decide)).trans h.page⟩

/-- The call made in `s` has returned: registers but `rs` are as they were, and so is memory but for `n` bytes of
    stack and the bytes `out` stored at `dst`. -/
structure Returns (dst : Nat) (out : List UInt8) (n : Nat) (rs : List Reg) (s t : State Board) (k : Nat) : Prop where
  leads : Leads s t
  pc    : t.pc = k
  keeps : Keeps rs s t
  ram   : (s.mem.ram.write dst out).AgreesBut ((s.regs sp).toNat - n) (s.regs sp).toNat t.mem.ram

namespace Returns

variable {s s' t u : State Board} {dst n n' j k : Nat} {out : List UInt8} {rs rs' : List Reg}

theorem mono (h : Returns dst out n rs s t k) (hn : n ≤ n') (hsub : rs ⊆ rs') : Returns dst out n' rs' s t k where
  leads := h.leads
  pc    := h.pc
  keeps := h.keeps.mono hsub
  ram   := h.ram.mono (by omega) (Nat.le_refl _)

/-- What was executed before the call did nothing to memory. -/
theorem after (h : Returns dst out n rs s' t k) (hlead : Leads s s') (hkeeps : Keeps rs' s s') (hsp : sp ∉ rs')
    (hmem : s'.mem.ram = s.mem.ram) : Returns dst out n (rs' ++ rs) s t k where
  leads := hlead.trans h.leads
  pc    := h.pc
  keeps := hkeeps.trans h.keeps
  ram   := by
    rw [← hmem, ← hkeeps sp hsp]
    exact h.ram

/-- What is executed after it does nothing to memory either. -/
theorem before (h : Returns dst out n rs s t j) (hlead : Leads t u) (hpc : u.pc = k) (hkeeps : Keeps rs' t u)
    (hmem : u.mem.ram = t.mem.ram) : Returns dst out n (rs ++ rs') s u k where
  leads := h.leads.trans hlead
  pc    := hpc
  keeps := h.keeps.trans hkeeps
  ram   := by
    rw [hmem]
    exact h.ram

/-- Two calls, of which the first fills no buffer. -/
theorem trans (h : Returns 0 [] n rs s t j) (h' : Returns dst out n' rs' t u k) (hsp : sp ∉ rs) :
    Returns dst out (max n n') (rs ++ rs') s u k where
  leads := h.leads.trans h'.leads
  pc    := h'.pc
  keeps := h.keeps.trans h'.keeps
  ram   := by
    have hfirst := h.ram
    have hsecond := h'.ram
    rw [Mem.write_nil] at hfirst
    rw [h.keeps sp hsp] at hsecond
    exact ((hfirst.write_both dst out).mono (by omega) (Nat.le_refl _)).trans (hsecond.mono (by omega) (Nat.le_refl _))

end Returns

/-- A routine that saves `rs`: what its body returns, the whole of it returns. -/
theorem returns_framed {s s₁ u : State Board} {rs clob : List Reg} (clob' : List Reg) {dst n j k : Nat} {out : List UInt8} {l : Label}
    (hcall : Called l (4 * (rs.length + 1) + n) s k) (hlead : Leads s s₁) (henter : Entered board rs s s₁)
    (hbody : Returns dst out n clob s₁ u j) (hpop : program.code[j]? = some (.popPc rs))
    (hnodup : rs.Nodup) (hnot : sp ∉ rs) (hsp : sp ∉ clob) (hclob : ∀ r ∈ clob, r ∉ rs → r ∈ clob')
    (hapart : dst + out.length ≤ (s.regs sp).toNat - (4 * (rs.length + 1) + n) ∨ (s.regs sp).toNat ≤ dst) :
    ∃ t, Returns dst out (4 * (rs.length + 1) + n) clob' s t k ∧ t.mem = u.mem ∧
      ∀ r, r ≠ sp → r ∉ rs → t.regs r = u.regs r := by
  have hlow := henter.sp
  have hroom : board.Room s (4 * (rs.length + 1)) := hcall.room.mono (Nat.le_add_right _ _)
  have hwritten : (s₁.mem.ram.write dst out).read (s₁.regs sp).toNat (4 * (saved rs s).length) = wordBytes (saved rs s) :=
    (Mem.read_write_disjoint (by rw [saved_length]; omega)).trans henter.frame
  have hframe : Frame u.mem.ram (s₁.regs sp) (saved rs s) := Frame.agrees hwritten hbody.ram (Or.inr (Nat.le_refl _))
  obtain ⟨t, hleave, hrest⟩ := leave henter (hbody.pc ▸ hpop) (hbody.keeps sp hsp) hframe hroom hnodup hnot hcall.ret hcall.lt
  refine ⟨t, ⟨hlead.trans (hbody.leads.trans hleave), hrest.pc, ?_, ?_⟩, hrest.mem, hrest.other⟩
  · intro r hr
    by_cases hrsp : r = sp
    · rw [hrsp, hrest.sp]
    by_cases hrs : r ∈ rs
    · exact hrest.saved r hrs
    · rw [hrest.other r hrsp hrs, hbody.keeps r (fun hmem => hr (hclob r hmem hrs)), henter.regs r hrsp]
  · rw [hrest.mem]
    have henterRam : s.mem.ram.AgreesBut (s₁.regs sp).toNat (s.regs sp).toNat s₁.mem.ram := henter.mem
    exact ((henterRam.write_both dst out).mono (by omega) (Nat.le_refl _)).trans (hbody.ram.mono (by omega) (by omega))

/-! ## The page -/

theorem onPage_ntr {off : UInt32} (h : off.toNat < 0x1000) : onPage (ntr + off) = true ∧ ntr + off - ntr = off := by
  have hntr : ntr.toNat = 0x1EC64000 := rfl
  have hsum : (ntr + off).toNat = 0x1EC64000 + off.toNat := by
    rw [UInt32.toNat_add, hntr]
    omega
  refine ⟨?_, by rw [UInt32.add_comm, UInt32.add_sub_cancel]⟩
  simp only [onPage, hsum, decide_eq_true_eq]
  exact ⟨Nat.le_add_right _ _, Nat.add_lt_add_left h _⟩

theorem store_page (b : Board) {off : UInt32} (v : UInt32) (h : off.toNat < 0x1000) :
    bus.store b (ntr + off) v = { b with window := b.window.write32 off v } := by
  obtain ⟨hon, hoff⟩ := onPage_ntr h
  simp only [bus, hon, if_true, hoff]

theorem load_page (b : Board) {off : UInt32} (h : off.toNat < 0x1000) :
    bus.load b (ntr + off) = ({ b with window := (b.window.read32 off).1 }, (b.window.read32 off).2) := by
  obtain ⟨hon, hoff⟩ := onPage_ntr h
  simp only [bus, hon, if_true, hoff]

/-! ## `stage_cmd` and the two waits -/

variable {s : State Board} {k n : Nat}

theorem stageCmd_leads (h : Called .stageCmd n s k) :
    ∃ t, Leads s t ∧ t.pc = k ∧ Keeps [r0, r1, r4, r5] s t ∧
      t.mem = { s.mem with
        window := Guest.stageCmd s.mem.window (s.regs r0) (s.regs r1) (s.regs r2) (s.regs r3) } := by
  have hcode : program.Embeds (program.target .stageCmd)
      (([.and r0 r0 (.imm 0xFF), .and r1 r1 (.imm 0xFF), .orr r4 r0 (.imm (Guest.gkG <<< 8)),
        .orr r4 r4 (.imm (Guest.gkK <<< 16)), .orr r4 r4 (.lsl r1 24), .str r4 r10 Guest.regCmd0, .rev r5 r2,
        .str r5 r10 Guest.regCmd1, .lit r4 (Guest.cardStart ||| Guest.cardReset), .orr r4 r4 (.reg r3),
        .str r4 r10 Guest.regRomcnt] : List Op).map .op ++ [.bx lr]) := by decide +kernel
  rw [← h.pc] at hcode
  refine ⟨_, reaches_bx _ s hcode ?_ h.lt, rfl, ?_, ?_⟩
  · simp (disch := decide) only [effects_cons, effects_nil, Arm.effect, State.set_regs_ne]
    exact h.ret
  · intro r hr
    simp only [List.mem_cons, List.not_mem_nil, or_false, not_or] at hr
    obtain ⟨h0, h1, h4, h5⟩ := hr
    simp only [effects_cons, effects_nil, Arm.effect, State.set_regs_ne _ _ h0, State.set_regs_ne _ _ h1,
      State.set_regs_ne _ _ h4, State.set_regs_ne _ _ h5]
  · simp (disch := decide) only [effects_cons, effects_nil, Arm.effect, State.eval, State.set_regs_ne,
      State.set_regs_same, State.set_mem, h.page, store_page]
    rfl

theorem load_romcnt (b : Board) : bus.load b (ntr + Guest.regRomcnt) = (b, load32 b.window.regs kRegRomCnt) :=
  load_page b (by decide)

theorem waitIdle_leads (h : Called .waitIdle n s k) (hidle : load32 s.mem.window.regs kRegRomCnt &&& kCardActivate = 0) :
    ∃ t, Leads s t ∧ t.pc = k ∧ Keeps [r5] s t ∧ t.mem = s.mem := by
  have hcode : program.Embeds (program.target .waitIdle)
      (([.ldr r5 r10 Guest.regRomcnt, .tst r5 (.imm Guest.cardStart)] : List Op).map .op ++ [.b .ne .waitIdle]
        ++ (([] : List Op).map .op ++ [.bx lr])) := by decide +kernel
  rw [← h.pc] at hcode
  obtain ⟨hloop, hreturn⟩ := hcode.split
  have hbranch : Leads s _ := reaches_b _ s hloop
  have hstart : Guest.cardStart = kCardActivate := rfl
  -- the activate bit is clear, so the loop is left at once
  simp (disch := decide) only [effects_cons, effects_nil, Arm.effect, State.eval, State.set_regs_same, h.page, load_romcnt,
    hstart, hidle, State.holds, decide_true, Bool.not_true, Bool.false_eq_true, if_false] at hbranch
  refine ⟨_, hbranch.trans (reaches_bx [] _ hreturn ?_ h.lt), rfl, ?_, rfl⟩
  · simp (disch := decide) only [effects_nil, State.set_regs_ne]
    exact h.ret
  · intro r hr
    exact State.set_regs_ne _ _ (by simpa using hr)

theorem waitReady_leads (h : Called .waitReady n s k)
    (hready : load32 s.mem.window.regs kRegRomCnt &&& kCardDataReady ≠ 0) :
    ∃ t, Leads s t ∧ t.pc = k ∧ Keeps [r5] s t ∧ t.mem = s.mem := by
  have hcode : program.Embeds (program.target .waitReady)
      (([.ldr r5 r10 Guest.regRomcnt, .tst r5 (.imm cardReady)] : List Op).map .op ++ [.b .eq .waitReady]
        ++ (([] : List Op).map .op ++ [.bx lr])) := by decide +kernel
  rw [← h.pc] at hcode
  obtain ⟨hloop, hreturn⟩ := hcode.split
  have hbranch : Leads s _ := reaches_b _ s hloop
  have hbit : cardReady = kCardDataReady := rfl
  -- the cartridge is ready before it is asked
  simp (disch := decide) only [effects_cons, effects_nil, Arm.effect, State.eval, State.set_regs_same, h.page, load_romcnt,
    hbit, hready, State.holds, decide_false, Bool.false_eq_true, if_false] at hbranch
  refine ⟨_, hbranch.trans (reaches_bx [] _ hreturn ?_ h.lt), rfl, ?_, rfl⟩
  · simp (disch := decide) only [effects_nil, State.set_regs_ne]
    exact h.ret
  · intro r hr
    exact State.set_regs_ne _ _ (by simpa using hr)

/-! ## `wire` and `wire_read4` -/

/-- How every transaction begins: registers are saved, and `stage_cmd` activates the command with block field `v`. -/
theorem staged {l : Label} (h : Called l n s k) (rs : List Reg) (o : Op) (v : UInt32)
    (hpush : program.code[program.target l]? = some (.op (.push (rs ++ [lr])))) (hn : 4 * (rs.length + 1) ≤ n)
    (hcode : program.Embeds (program.target l + 1) [.op o, .bl .stageCmd]) (hlt : program.target l + 3 < 2 ^ 30)
    (ho : ∀ s, Arm.effect bus s o = s.set r3 v) (hdst : o.dst = [r3]) :
    ∃ s₁ t, Leads s s₁ ∧ Entered board rs s s₁ ∧ Leads s₁ t ∧ t.pc = program.target l + 3 ∧ t.regs r10 = ntr ∧
      Keeps [r0, r1, r3, r4, r5, lr] s₁ t ∧ t.mem.ram = s₁.mem.ram ∧
      t.mem.window = stageAndActivate s.mem.window (encodeCommand (s.regs r0).toUInt8 (s.regs r1).toUInt8 (s.regs r2)) v := by
  obtain ⟨s₁, hlead₁, henter, hpc₁, hpage₁⟩ := entered h rs hpush hn
  have hwindow₁ : s₁.mem.window = s.mem.window := henter.rest
  have hkept : sp ∉ [o].flatMap Op.dst ∧ r10 ∉ [o].flatMap Op.dst := by
    rw [List.flatMap_singleton, hdst]
    decide
  obtain ⟨s₂, hlead₂, hcalled₂, hkeeps₂, hregs₂, hmem₂⟩ := calls hpc₁ [o] .stageCmd hcode hkept hpage₁ (.zero board s₁) hlt
  rw [List.flatMap_singleton, hdst] at hkeeps₂
  rw [effects_cons, effects_nil, ho, State.set_mem] at hmem₂
  have hfield : s₂.regs r3 = v := by
    rw [hregs₂ r3 (by decide), effects_cons, effects_nil, ho, State.set_regs_same]
  obtain ⟨t, hlead, hpc, hkeeps, hmem⟩ := stageCmd_leads hcalled₂
  refine ⟨s₁, t, hlead₁, henter, hlead₂.trans hlead, hpc, (hkeeps r10 (by decide)).trans hcalled₂.page,
    (hkeeps₂.trans hkeeps).mono (by decide), ?_, ?_⟩
  · rw [hmem, hmem₂]
  · rw [hmem, hfield, hkeeps₂ r0 (by decide), hkeeps₂ r1 (by decide), hkeeps₂ r2 (by decide), henter.regs r0 (by decide),
      henter.regs r1 (by decide), henter.regs r2 (by decide), hmem₂, hwindow₁, Guest.stageCmd_eq]

/-- A word of an open data phase: `wait_ready` comes back. -/
theorem readied {j : Nat} (hpc : s.pc = j) (hcode : program.Embeds j [.bl .waitReady]) (hpage : s.regs r10 = ntr)
    (hlt : j + 1 < 2 ^ 30) (htells : RomcntTells s.mem.window) (hopen : s.mem.window.transport.direction ≠ .none) :
    ∃ t, Leads s t ∧ t.pc = j + 1 ∧ Keeps [lr, r5] s t ∧ t.mem = s.mem := by
  obtain ⟨u, hlead, hcalled, hkeeps, -, hmem⟩ := calls hpc [] .waitReady hcode (by decide) hpage (.zero board s) hlt
  obtain ⟨t, hlead', hpc', hkeeps', hmem'⟩ := waitReady_leads hcalled (by rw [hmem]; exact htells.1 hopen)
  exact ⟨t, hlead.trans hlead', hpc', hkeeps.trans hkeeps', hmem'.trans hmem⟩

/-- The end of every transaction: the transfer is closed, so `wait_idle` comes back. -/
theorem idled {j : Nat} (hpc : s.pc = j) (os : List Op) (hcode : program.Embeds j (os.map .op ++ [.bl .waitIdle]))
    (hkeep : sp ∉ os.flatMap Op.dst ∧ r10 ∉ os.flatMap Op.dst) (hpage : s.regs r10 = ntr) (hlt : j + os.length + 1 < 2 ^ 30)
    (htells : RomcntTells (effects bus s os).mem.window)
    (hclosed : (effects bus s os).mem.window.transport.direction = .none) :
    ∃ t, Leads s t ∧ t.pc = j + os.length + 1 ∧ Keeps (lr :: os.flatMap Op.dst ++ [r5]) s t ∧
      (∀ r, r ≠ lr → r ≠ r5 → t.regs r = (effects bus s os).regs r) ∧ t.mem = (effects bus s os).mem := by
  obtain ⟨u, hlead, hcalled, hkeeps, hregs, hmem⟩ := calls hpc os .waitIdle hcode hkeep hpage (.zero board s) hlt
  obtain ⟨t, hlead', hpc', hkeeps', hmem'⟩ := waitIdle_leads hcalled (by rw [hmem]; exact htells.2 hclosed)
  refine ⟨t, hlead.trans hlead', hpc', hkeeps.trans hkeeps', ?_, hmem'.trans hmem⟩
  intro r hlr h5
  rw [hkeeps' r (by simpa using h5), hregs r hlr]

variable {d : Device}

theorem wire_leads (h : Called .wire 12 s k) {w' : RegisterWindow}
    (hstage : stageAndActivate s.mem.window (encodeCommand (s.regs r0).toUInt8 (s.regs r1).toUInt8 (s.regs r2))
      cardBlkNone = w')
    (htells : RomcntTells w') (hclosed : w'.transport.direction = .none) :
    ∃ t, Returns 0 [] 12 [r0, r1, r3, lr] s t k ∧ t.mem.window = w' := by
  obtain ⟨s₁, s₂, hlead₁, henter, hlead₂, hpc₂, hpage₂, hkeeps₂, hram₂, hwindow₂⟩ := staged h [r4, r5]
    (.mov r3 (.imm cardBlkNone)) cardBlkNone (by decide +kernel) (by decide) (by decide +kernel) (by decide +kernel)
    (fun _ => rfl) rfl
  rw [hstage] at hwindow₂
  obtain ⟨s₃, hlead₃, hpc₃, hkeeps₃, -, hmem₃⟩ := idled hpc₂ [] (by decide +kernel) (by decide) hpage₂ (by decide +kernel)
    (hwindow₂ ▸ htells) (hwindow₂ ▸ hclosed)
  have hbody : Returns 0 [] 0 [r0, r1, r3, r4, r5, lr] s₁ s₃ s₃.pc := {
    leads := hlead₂.trans hlead₃
    pc    := rfl
    keeps := (hkeeps₂.trans hkeeps₃).mono (by decide)
    ram   := by
      rw [hmem₃, effects_nil, hram₂, Mem.write_nil]
      exact .refl _ _ _ }
  obtain ⟨t, hreturns, hmem, -⟩ := returns_framed [r0, r1, r3, lr] h hlead₁ henter hbody (by rw [hpc₃]; decide +kernel)
    (by decide) (by decide) (by decide) (by decide) (Or.inl (Nat.zero_le _))
  exact ⟨t, hreturns, by rw [hmem, hmem₃, effects_nil, hwindow₂]⟩

theorem load_fifo (b : Board) :
    bus.load b (ntr + regFifo) = ({ b with window := b.window.readFifo.1 }, b.window.readFifo.2) :=
  load_page b (by decide)

theorem wireRead4_leads (h : Called .wireRead4 16 s k) {a : Atomic} {v : UInt32} {w' : RegisterWindow}
    (hstage : stageAndActivate s.mem.window (encodeCommand (s.regs r0).toUInt8 (s.regs r1).toUInt8 (s.regs r2))
      cardBlk4 = w')
    (htells : RomcntTells w') (hexact : Exactly d a w') (hphase : a.phase = .reading [v] 0) :
    ∃ t, Returns 0 [] 16 [r0, r1, r3, lr] s t k ∧ t.regs r0 = v ∧ Exactly d { a with phase := .idle } t.mem.window := by
  obtain ⟨s₁, s₂, hlead₁, henter, hlead₂, hpc₂, hpage₂, hkeeps₂, hram₂, hwindow₂⟩ := staged h [r4, r5, r6]
    (.lit r3 cardBlk4) cardBlk4 (by decide +kernel) (by decide) (by decide +kernel) (by decide +kernel)
    (fun _ => rfl) rfl
  rw [hstage] at hwindow₂
  have hopen : w'.transport.direction ≠ .none := by
    rw [ne_eq, (fifoRelation_exactly d).direction_none hexact, hphase]
    exact Phase.noConfusion
  obtain ⟨s₃, hlead₃, hpc₃, hkeeps₃, hmem₃⟩ := readied hpc₂ (by decide +kernel) hpage₂ (by decide +kernel)
    (hwindow₂ ▸ htells) (hwindow₂ ▸ hopen)
  have hpage₃ : s₃.regs r10 = ntr := (hkeeps₃ r10 (by decide)).trans hpage₂
  obtain ⟨hread, hvalue⟩ := (fifoRelation_exactly d).readFifo hexact
  have htake : a.takeWord = ({ a with phase := .idle }, v) := by
    simp only [Atomic.takeWord, hphase]
    rfl
  rw [htake] at hread hvalue
  have heffects : effects bus s₃ [.ldr r6 r10 regFifo]
      = { s₃ with mem := { s₃.mem with window := w'.readFifo.1 } }.set r6 v := by
    simp only [effects_cons, effects_nil, Arm.effect, hpage₃, load_fifo, hmem₃, hwindow₂, hvalue]
  have hreads : (effects bus s₃ [.ldr r6 r10 regFifo]).mem.window = w'.readFifo.1 := by rw [heffects]; rfl
  obtain ⟨s₄, hlead₄, hpc₄, hkeeps₄, hregs₄, hmem₄⟩ := idled hpc₃ [.ldr r6 r10 regFifo] (by decide +kernel) (by decide)
    hpage₃ (by decide +kernel) (hreads ▸ htells.readFifo)
    (hreads ▸ ((fifoRelation_exactly d).direction_none hread).mpr rfl)
  obtain ⟨s₅, hlead₅, hpc₅, hkeeps₅, hregs₅, hmem₅⟩ := straight hpc₄ [.mov r0 (.reg r6)] (by decide +kernel)
  have hresult : s₅.regs r0 = v := by
    rw [hregs₅ r0, effects_cons, effects_nil, Arm.effect, State.set_regs_same, State.eval, hregs₄ r6 (by decide) (by decide),
      heffects, State.set_regs_same]
  have hboard : s₅.mem = { s₃.mem with window := w'.readFifo.1 } := hmem₅.trans (hmem₄.trans (by rw [heffects]; rfl))
  have hbody : Returns 0 [] 0 [r0, r1, r3, r4, r5, r6, lr] s₁ s₅ s₅.pc := {
    leads := hlead₂.trans (hlead₃.trans (hlead₄.trans hlead₅))
    pc    := rfl
    keeps := (hkeeps₂.trans (hkeeps₃.trans (hkeeps₄.trans hkeeps₅))).mono (by decide)
    ram   := by
      rw [hboard, hmem₃, hram₂, Mem.write_nil]
      exact .refl _ _ _ }
  obtain ⟨t, hreturns, hmem, hother⟩ := returns_framed [r0, r1, r3, lr] h hlead₁ henter hbody
    (by rw [hpc₅]; decide +kernel) (by decide) (by decide) (by decide) (by decide) (Or.inl (Nat.zero_le _))
  refine ⟨t, hreturns, (hother r0 (by decide) (by decide)).trans hresult, ?_⟩
  rw [hmem, hboard]
  exact hread

/-! ## The block loops -/

/-- The word at offset `4 * word` of a buffer. -/
theorem word_of_read {m : Mem} {a : UInt32} {input : List UInt8} {len word : Nat} (hread : m.read a.toNat len = input)
    (hword : word * 4 + 4 ≤ len) (hfit : a.toNat + len < 2 ^ 32) :
    m.word (a + 4 * UInt32.ofNat word) = ofLe32 (slice input (word * 4) 4) := by
  rw [Mem.word, toNat_up (by omega), ← hread, Mem.slice_read hword, Nat.mul_comm word 4]
  rfl

/-- The count of words left, after one more. -/
theorem left_sub (n : Nat) : UInt32.ofNat (n + 1) - 1 = UInt32.ofNat n := by
  rw [UInt32.ofNat_add]
  exact UInt32.add_sub_cancel _ _

theorem left_eq_zero {n : Nat} (h : n < 2 ^ 32) : decide (UInt32.ofNat n = 0) = decide (n = 0) := by
  have hiff : UInt32.ofNat n = 0 ↔ n = 0 := by
    rw [← UInt32.toNat_inj, UInt32.toNat_ofNat_of_lt' h]
    rfl
  exact decide_eq_decide.mpr hiff

theorem next_word (a : UInt32) (word : Nat) : a + 4 * UInt32.ofNat word + 4 = a + 4 * UInt32.ofNat (word + 1) := by
  rw [UInt32.ofNat_add, UInt32.mul_add, UInt32.add_assoc]
  rfl

theorem store_fifo (b : Board) (v : UInt32) :
    bus.store b (ntr + regFifo) v = { b with window := b.window.writeFifo v } :=
  store_page b v (by decide)

/-- One turn of the loop of `wire_write_block`. -/
theorem writeTurn_leads {n : Nat} {a : UInt32} (hpc : s.pc = program.target .wireWriteBlock1) (hpage : s.regs r10 = ntr)
    (hleft : s.regs r7 = UInt32.ofNat (n + 1)) (hn : n < 2 ^ 32) (haddr : s.regs r6 = a) (hcov : board.covers a = true)
    (htells : RomcntTells s.mem.window) (hopen : s.mem.window.transport.direction ≠ .none) :
    ∃ t, Leads s t ∧ t.pc = (if n = 0 then program.target .wireWriteBlock1 + 5 else program.target .wireWriteBlock1) ∧
      Keeps [r4, r5, r6, r7, lr] s t ∧ t.regs r7 = UInt32.ofNat n ∧ t.regs r6 = a + 4 ∧
      t.mem = { s.mem with window := s.mem.window.writeFifo (s.mem.ram.word a) } := by
  obtain ⟨s₁, hlead₁, hpc₁, hkeeps₁, hmem₁⟩ := readied hpc (by decide +kernel) hpage (by decide +kernel) htells hopen
  obtain ⟨t, hlead, hpc, hkeeps, hregs, hmem⟩ := branched hpc₁ [.ldrPost r4 r6 4, .str r4 r10 regFifo, .subs r7 r7 (.imm 1)]
    .ne .wireWriteBlock1 (by decide +kernel)
  have haddr₁ : s₁.regs r6 = a := (hkeeps₁ r6 (by decide)).trans haddr
  have hpage₁ : s₁.regs r10 = ntr := (hkeeps₁ r10 (by decide)).trans hpage
  have hleft₁ : s₁.regs r7 = UInt32.ofNat (n + 1) := (hkeeps₁ r7 (by decide)).trans hleft
  have hload : bus.load s₁.mem a = (s₁.mem, s₁.mem.ram.word a) := board.load hcov
  simp (disch := decide) only [effects_cons, effects_nil, Arm.effect, State.eval, State.set_regs_ne, State.set_regs_same,
    State.set_mem, State.set_z, State.setSubFlags_mem, State.setSubFlags_z, State.holds, haddr₁, hpage₁, hleft₁, hload,
    left_sub, left_eq_zero hn, store_fifo] at hpc hregs hmem
  refine ⟨t, hlead₁.trans hlead, ?_, (hkeeps₁.trans hkeeps).mono (by decide), ?_, ?_, ?_⟩
  · rw [hpc]
    by_cases hlast : n = 0
    · simp [hlast]
    · simp [hlast]
  · rw [hregs, State.set_regs_same]
  · simp (disch := decide) only [hregs, State.set_regs_ne, State.setSubFlags_regs, State.set_regs_same]
  · rw [hmem, hmem₁]

/-- The loop of `wire_write_block`, with `word` words of the buffer at `src` handed over and `n` to go. -/
structure Writing (d : Device) (selector : UInt8) (cmdWord src : UInt32) (input : List UInt8) (word n : Nat) (a : Atomic)
    (s : State Board) : Prop where
  page   : s.regs r10 = ntr
  left   : s.regs r7 = UInt32.ofNat n
  addr   : s.regs r6 = src + 4 * UInt32.ofNat word
  read   : s.mem.ram.read src.toNat (4 * kBlockWords) = input
  device : Exactly d a s.mem.window
  tells  : RomcntTells s.mem.window
  phase  : a.phase = .writing selector cmdWord ((wordsOf input).take word)
  count  : word + n = 128

theorem Writing.turn {selector : UInt8} {cmdWord src : UInt32} {input : List UInt8} {word n : Nat} {a : Atomic}
    (h : Writing d selector cmdWord src input word (n + 1) a s) (hpc : s.pc = program.target .wireWriteBlock1)
    (hinput : input.length = 4 * kBlockWords) (hcov : board.Covers src (4 * kBlockWords)) :
    ∃ t, Leads s t ∧ t.pc = (if n = 0 then program.target .wireWriteBlock1 + 5 else program.target .wireWriteBlock1) ∧
      Keeps [r4, r5, r6, r7, lr] s t ∧ t.mem.ram = s.mem.ram ∧ RomcntTells t.mem.window ∧
      if n = 0 then Exactly d { a.apply (.writeBlock selector cmdWord (some input)) with phase := .idle } t.mem.window
      else ∃ a', a'.log = a.log ∧ Writing d selector cmdWord src input (word + 1) n a' t := by
  have hcount : word + (n + 1) = 128 := h.count
  have hfit : src.toNat + 512 < 2 ^ 32 := hcov.1
  have hhere : (src + 4 * UInt32.ofNat word).toNat = src.toNat + 4 * word := toNat_up (by omega)
  have hopen : s.mem.window.transport.direction ≠ .none := by
    rw [ne_eq, (fifoRelation_exactly d).direction_none h.device, h.phase]
    exact Phase.noConfusion
  obtain ⟨t, hlead, hpc, hkeeps, hleft, haddr, hmem⟩ := writeTurn_leads hpc h.page h.left (by omega) h.addr
    (hcov.2 _ (by omega) (by show _ < _ + 512; omega)) h.tells hopen
  rw [word_of_read h.read (by show _ ≤ 512; omega) hfit] at hmem
  have hgive := (fifoRelation_exactly d).writeFifo h.device (ofLe32 (slice input (word * 4) 4))
  rw [giveWord_input hinput (by show _ < 128; omega) h.phase] at hgive
  have htells : RomcntTells t.mem.window := by
    rw [hmem]
    exact h.tells.writeFifo _
  refine ⟨t, hlead, hpc, hkeeps, by rw [hmem], htells, ?_⟩
  by_cases hlast : n = 0
  · rw [if_pos (by show _ = 128; omega)] at hgive
    rw [if_pos hlast, hmem]
    exact hgive
  · rw [if_neg (by show ¬ _ = 128; omega)] at hgive
    rw [if_neg hlast]
    exact ⟨{ a with phase := .writing selector cmdWord ((wordsOf input).take (word + 1)) }, rfl, {
      page  := (hkeeps r10 (by decide)).trans h.page
      left  := hleft
      addr  := by rw [haddr, next_word]
      read  := by rw [hmem]; exact h.read
      device := by rw [hmem]; exact hgive
      tells := htells
      phase := rfl
      count := by omega }⟩

/-- **The loop of `wire_write_block`** hands over the rest of the buffer; the device sees one F4 with exactly that. -/
theorem Writing.loop {selector : UInt8} {cmdWord src : UInt32} {input : List UInt8}
    (hinput : input.length = 4 * kBlockWords) (hcov : board.Covers src (4 * kBlockWords)) :
    ∀ {n word : Nat} {a : Atomic} {s : State Board}, Writing d selector cmdWord src input word (n + 1) a s →
      s.pc = program.target .wireWriteBlock1 →
      ∃ t, Leads s t ∧ t.pc = program.target .wireWriteBlock1 + 5 ∧ Keeps [r4, r5, r6, r7, lr] s t ∧
        t.mem.ram = s.mem.ram ∧ RomcntTells t.mem.window ∧
        ∃ a', a'.log = a.log ++ [.writeBlock selector cmdWord (some input)] ∧ a'.phase = .idle ∧
          Exactly d a' t.mem.window := by
  intro n
  -- on the words left; the last one closes the transfer, so the base case is one word and not none
  induction n with
  | zero =>
    intro word a s h hpc
    obtain ⟨t, hlead, hpc', hkeeps, hram, htells, hexact⟩ := h.turn hpc hinput hcov
    exact ⟨t, hlead, hpc', hkeeps, hram, htells, _, rfl, rfl, hexact⟩
  | succ n ih =>
    intro word a s h hpc
    obtain ⟨t, hlead, hpc', hkeeps, hram, _, a', hlog, hnext⟩ := h.turn hpc hinput hcov
    obtain ⟨u, hlead', hpc'', hkeeps', hram', htells', hdone⟩ := ih hnext hpc'
    rw [hlog] at hdone
    exact ⟨u, hlead.trans hlead', hpc'', (hkeeps.trans hkeeps').mono (by decide), hram'.trans hram, htells', hdone⟩

/-- One turn of the loop of `wire_read_block`. -/
theorem readTurn_leads {n : Nat} {a : UInt32} (hpc : s.pc = program.target .wireReadBlock1) (hpage : s.regs r10 = ntr)
    (hleft : s.regs r7 = UInt32.ofNat (n + 1)) (hn : n < 2 ^ 32) (haddr : s.regs r6 = a) (hcov : board.covers a = true)
    (htells : RomcntTells s.mem.window) (hopen : s.mem.window.transport.direction ≠ .none) :
    ∃ t, Leads s t ∧ t.pc = (if n = 0 then program.target .wireReadBlock1 + 5 else program.target .wireReadBlock1) ∧
      Keeps [r4, r5, r6, r7, lr] s t ∧ t.regs r7 = UInt32.ofNat n ∧ t.regs r6 = a + 4 ∧
      t.mem = { ram := s.mem.ram.setWord a s.mem.window.readFifo.2, window := s.mem.window.readFifo.1 } := by
  obtain ⟨s₁, hlead₁, hpc₁, hkeeps₁, hmem₁⟩ := readied hpc (by decide +kernel) hpage (by decide +kernel) htells hopen
  obtain ⟨t, hlead, hpc, hkeeps, hregs, hmem⟩ := branched hpc₁ [.ldr r4 r10 regFifo, .strPost r4 r6 4, .subs r7 r7 (.imm 1)]
    .ne .wireReadBlock1 (by decide +kernel)
  have haddr₁ : s₁.regs r6 = a := (hkeeps₁ r6 (by decide)).trans haddr
  have hpage₁ : s₁.regs r10 = ntr := (hkeeps₁ r10 (by decide)).trans hpage
  have hleft₁ : s₁.regs r7 = UInt32.ofNat (n + 1) := (hkeeps₁ r7 (by decide)).trans hleft
  have hstore : ∀ (b : Board) (v : UInt32), bus.store b a v = { b with ram := b.ram.setWord a v } := by
    intro b v
    have hoff : onPage a = false := by simpa [board] using hcov
    simp only [bus, hoff, Bool.false_eq_true, if_false]
  simp (disch := decide) only [effects_cons, effects_nil, Arm.effect, State.eval, State.set_regs_ne, State.set_regs_same,
    State.set_mem, State.set_z, State.setSubFlags_mem, State.setSubFlags_z, State.holds, haddr₁, hpage₁, hleft₁, hstore,
    left_sub, left_eq_zero hn, load_fifo] at hpc hregs hmem
  refine ⟨t, hlead₁.trans hlead, ?_, (hkeeps₁.trans hkeeps).mono (by decide), ?_, ?_, ?_⟩
  · rw [hpc]
    by_cases hlast : n = 0
    · simp [hlast]
    · simp [hlast]
  · rw [hregs, State.set_regs_same]
  · simp (disch := decide) only [hregs, State.set_regs_ne, State.setSubFlags_regs, State.set_regs_same]
  · rw [hmem, hmem₁]

/-- The loop of `wire_read_block`, with `word` words of the response stored at `dst` and `n` to go. -/
structure Reading (d : Device) (response : List UInt32) (dst : UInt32) (base : Mem) (word n : Nat) (a : Atomic)
    (s : State Board) : Prop where
  page   : s.regs r10 = ntr
  left   : s.regs r7 = UInt32.ofNat n
  addr   : s.regs r6 = dst + 4 * UInt32.ofNat word
  ram    : s.mem.ram = base.write dst.toNat ((response.take word).flatMap le32)
  device : Exactly d a s.mem.window
  tells  : RomcntTells s.mem.window
  phase  : a.phase = .reading response word
  count  : word + n = response.length

theorem Reading.turn {response : List UInt32} {dst : UInt32} {base : Mem} {word n : Nat} {a : Atomic}
    (h : Reading d response dst base word (n + 1) a s) (hpc : s.pc = program.target .wireReadBlock1)
    (hcov : board.Covers dst (4 * response.length)) :
    ∃ t, Leads s t ∧ t.pc = (if n = 0 then program.target .wireReadBlock1 + 5 else program.target .wireReadBlock1) ∧
      Keeps [r4, r5, r6, r7, lr] s t ∧ t.mem.ram = base.write dst.toNat ((response.take (word + 1)).flatMap le32) ∧
      RomcntTells t.mem.window ∧
      if n = 0 then Exactly d { a with phase := .idle } t.mem.window
      else ∃ a', a'.log = a.log ∧ Reading d response dst base (word + 1) n a' t := by
  have hcount := h.count
  have hfit := hcov.1
  have hword : word < response.length := by omega
  have hhere : (dst + 4 * UInt32.ofNat word).toNat = dst.toNat + 4 * word := toNat_up (by omega)
  have hopen : s.mem.window.transport.direction ≠ .none := by
    rw [ne_eq, (fifoRelation_exactly d).direction_none h.device, h.phase]
    exact Phase.noConfusion
  obtain ⟨t, hlead, hpc, hkeeps, hleft, haddr, hmem⟩ := readTurn_leads hpc h.page h.left (by omega) h.addr
    (hcov.2 _ (by omega) (by omega)) h.tells hopen
  obtain ⟨hread, hvalue⟩ := (fifoRelation_exactly d).readFifo h.device
  have htake : a.takeWord = ({ a with phase :=
      if word + 1 = response.length then .idle else .reading response (word + 1) }, response[word]) := by
    simp [Atomic.takeWord, h.phase, List.getD, hword]
  rw [htake] at hread hvalue
  have hram : t.mem.ram = base.write dst.toNat ((response.take (word + 1)).flatMap le32) := by
    have hlen : ((response.take word).flatMap le32).length = 4 * word := by
      rw [flatMap_le32_length, List.length_take, Nat.min_eq_left (by omega)]
    have happend := Mem.write_write_append base dst.toNat ((response.take word).flatMap le32) (le32 response[word])
    rw [hmem, hvalue, h.ram, List.take_succ_eq_append_getElem hword, List.flatMap_append, List.flatMap_singleton, ← happend,
      Mem.setWord, hhere, hlen]
    rfl
  have htells : RomcntTells t.mem.window := by
    rw [hmem]
    exact h.tells.readFifo
  refine ⟨t, hlead, hpc, hkeeps, hram, htells, ?_⟩
  by_cases hlast : n = 0
  · rw [if_pos (by omega)] at hread
    rw [if_pos hlast, hmem]
    exact hread
  · rw [if_neg (by omega)] at hread
    rw [if_neg hlast]
    exact ⟨{ a with phase := .reading response (word + 1) }, rfl, {
      page   := (hkeeps r10 (by decide)).trans h.page
      left   := hleft
      addr   := by rw [haddr, next_word]
      ram    := hram
      device := by rw [hmem]; exact hread
      tells  := htells
      phase  := rfl
      count  := by omega }⟩

/-- **The loop of `wire_read_block`** stores the rest of the response. -/
theorem Reading.loop {response : List UInt32} {dst : UInt32} {base : Mem} (hcov : board.Covers dst (4 * response.length)) :
    ∀ {n word : Nat} {a : Atomic} {s : State Board}, Reading d response dst base word (n + 1) a s →
      s.pc = program.target .wireReadBlock1 →
      ∃ t, Leads s t ∧ t.pc = program.target .wireReadBlock1 + 5 ∧ Keeps [r4, r5, r6, r7, lr] s t ∧
        t.mem.ram = base.write dst.toNat (response.flatMap le32) ∧ RomcntTells t.mem.window ∧
        ∃ a', a'.log = a.log ∧ a'.phase = .idle ∧ Exactly d a' t.mem.window := by
  intro n
  induction n with
  | zero =>
    intro word a s h hpc
    have hcount := h.count
    obtain ⟨t, hlead, hpc', hkeeps, hram, htells, hdevice⟩ := h.turn hpc hcov
    rw [List.take_of_length_le (by omega)] at hram
    exact ⟨t, hlead, hpc', hkeeps, hram, htells, { a with phase := .idle }, rfl, rfl, hdevice⟩
  | succ n ih =>
    intro word a s h hpc
    obtain ⟨t, hlead, hpc', hkeeps, _, _, a', hlog, hnext⟩ := h.turn hpc hcov
    obtain ⟨u, hlead', hpc'', hkeeps', hram', htells', hdone⟩ := ih hnext hpc'
    rw [hlog] at hdone
    exact ⟨u, hlead.trans hlead', hpc'', (hkeeps.trans hkeeps').mono (by decide), hram', htells', hdone⟩

/-! ## `wire_write_block` and `wire_read_block` -/

theorem wireWriteBlock_leads (h : Called .wireWriteBlock 20 s k) {a : Atomic} {selector : UInt8} {cmdWord : UInt32}
    {w' : RegisterWindow}
    (hstage : stageAndActivate s.mem.window (encodeCommand (s.regs r0).toUInt8 (s.regs r1).toUInt8 (s.regs r2))
      cardBlk512 = w')
    (htells : RomcntTells w') (hdevice : Exactly d a w') (hphase : a.phase = .writing selector cmdWord [])
    (hcov : board.Covers (s.regs r6) (4 * kBlockWords))
    (hapart : (s.regs r6).toNat + 512 ≤ (s.regs sp).toNat - 20 ∨ (s.regs sp).toNat ≤ (s.regs r6).toNat) :
    ∃ t, Returns 0 [] 20 [r0, r1, r3, lr] s t k ∧ ∃ a', a'.phase = .idle ∧ Exactly d a' t.mem.window ∧
      a'.log = a.log ++ [.writeBlock selector cmdWord (some (s.mem.ram.read (s.regs r6).toNat kBlockBytes))] := by
  obtain ⟨s₁, s₂, hlead₁, henter, hlead₂, hpc₂, hpage₂, hkeeps₂, hram₂, hwindow₂⟩ := staged h [r4, r5, r6, r7]
    (.lit r3 cardBlk512) cardBlk512 (by decide +kernel) (by decide) (by decide +kernel) (by decide +kernel)
    (fun _ => rfl) rfl
  rw [hstage] at hwindow₂
  obtain ⟨s₃, hlead₃, hpc₃, hkeeps₃, hregs₃, hmem₃⟩ := straight hpc₂ [.mov r7 (.imm blockWords)] (by decide +kernel)
  have hram₃ : s₃.mem.ram = s₁.mem.ram := by
    rw [hmem₃, effects_cons, effects_nil, Arm.effect, State.set_mem, hram₂]
  -- the registers saved lie apart from the buffer
  have hinput : s₃.mem.ram.read (s.regs r6).toNat (4 * kBlockWords) = s.mem.ram.read (s.regs r6).toNat kBlockBytes := by
    have hlow : (s₁.regs sp).toNat + 20 = (s.regs sp).toNat := henter.sp
    rw [hram₃]
    refine Mem.AgreesBut.read henter.mem ?_
    show _ + 512 ≤ _ ∨ _
    omega
  have hwriting : Writing d selector cmdWord (s.regs r6) (s.mem.ram.read (s.regs r6).toNat kBlockBytes) 0 (127 + 1) a s₃ := {
    page   := (hkeeps₃ r10 (by decide)).trans hpage₂
    left   := by rw [hregs₃]; rfl
    addr   := by
      rw [hkeeps₃ r6 (by decide), hkeeps₂ r6 (by decide), henter.regs r6 (by decide)]
      exact (UInt32.add_zero _).symm
    read   := hinput
    device := by rw [hmem₃, effects_cons, effects_nil, Arm.effect, State.set_mem, hwindow₂]; exact hdevice
    tells  := by rw [hmem₃, effects_cons, effects_nil, Arm.effect, State.set_mem, hwindow₂]; exact htells
    phase  := hphase
    count  := rfl }
  obtain ⟨s₄, hlead₄, hpc₄, hkeeps₄, hram₄, htells₄, a', hlog, hidle, hdevice₄⟩ := hwriting.loop (Mem.read_length _ _ _) hcov
    (by rw [hpc₃]; decide +kernel)
  obtain ⟨s₅, hlead₅, hpc₅, hkeeps₅, -, hmem₅⟩ := idled hpc₄ [] (by decide +kernel) (by decide)
    ((hkeeps₄ r10 (by decide)).trans hwriting.page) (by decide +kernel) htells₄
    (((fifoRelation_exactly d).direction_none hdevice₄).mpr hidle)
  have hbody : Returns 0 [] 0 [r0, r1, r3, r4, r5, r6, r7, lr] s₁ s₅ s₅.pc := {
    leads := hlead₂.trans (hlead₃.trans (hlead₄.trans hlead₅))
    pc    := rfl
    keeps := (hkeeps₂.trans (hkeeps₃.trans (hkeeps₄.trans hkeeps₅))).mono (by decide)
    ram   := by
      rw [hmem₅, effects_nil, hram₄, hram₃, Mem.write_nil]
      exact .refl _ _ _ }
  obtain ⟨t, hreturns, hmem, -⟩ := returns_framed [r0, r1, r3, lr] h hlead₁ henter hbody (by rw [hpc₅]; decide +kernel)
    (by decide) (by decide) (by decide) (by decide) (Or.inl (Nat.zero_le _))
  refine ⟨t, hreturns, a', hidle, ?_, hlog⟩
  rw [hmem, hmem₅]
  exact hdevice₄

theorem wireReadBlock_leads (h : Called .wireReadBlock 20 s k) {a : Atomic} {response : List UInt32} {w' : RegisterWindow}
    (hstage : stageAndActivate s.mem.window (encodeCommand (s.regs r0).toUInt8 (s.regs r1).toUInt8 (s.regs r2))
      cardBlk512 = w')
    (htells : RomcntTells w') (hdevice : Exactly d a w') (hphase : a.phase = .reading response 0)
    (hlen : response.length = kBlockWords) (hcov : board.Covers (s.regs r6) (4 * kBlockWords))
    (hapart : (s.regs r6).toNat + 512 ≤ (s.regs sp).toNat - 20 ∨ (s.regs sp).toNat ≤ (s.regs r6).toNat) :
    ∃ t, Returns (s.regs r6).toNat (response.flatMap le32) 20 [r0, r1, r3, lr] s t k ∧
      ∃ a', a'.phase = .idle ∧ Exactly d a' t.mem.window ∧ a'.log = a.log := by
  obtain ⟨s₁, s₂, hlead₁, henter, hlead₂, hpc₂, hpage₂, hkeeps₂, hram₂, hwindow₂⟩ := staged h [r4, r5, r6, r7]
    (.lit r3 cardBlk512) cardBlk512 (by decide +kernel) (by decide) (by decide +kernel) (by decide +kernel)
    (fun _ => rfl) rfl
  rw [hstage] at hwindow₂
  obtain ⟨s₃, hlead₃, hpc₃, hkeeps₃, hregs₃, hmem₃⟩ := straight hpc₂ [.mov r7 (.imm blockWords)] (by decide +kernel)
  have hram₃ : s₃.mem.ram = s₁.mem.ram := by
    rw [hmem₃, effects_cons, effects_nil, Arm.effect, State.set_mem, hram₂]
  have hreading : Reading d response (s.regs r6) s₁.mem.ram 0 (127 + 1) a s₃ := {
    page   := (hkeeps₃ r10 (by decide)).trans hpage₂
    left   := by rw [hregs₃]; rfl
    addr   := by
      rw [hkeeps₃ r6 (by decide), hkeeps₂ r6 (by decide), henter.regs r6 (by decide)]
      exact (UInt32.add_zero _).symm
    ram    := hram₃.trans (Mem.write_nil _ _).symm
    device := by rw [hmem₃, effects_cons, effects_nil, Arm.effect, State.set_mem, hwindow₂]; exact hdevice
    tells  := by rw [hmem₃, effects_cons, effects_nil, Arm.effect, State.set_mem, hwindow₂]; exact htells
    phase  := hphase
    count  := hlen.symm }
  obtain ⟨s₄, hlead₄, hpc₄, hkeeps₄, hram₄, htells₄, a', hlog, hidle, hdevice₄⟩ := hreading.loop (hlen ▸ hcov)
    (by rw [hpc₃]; decide +kernel)
  obtain ⟨s₅, hlead₅, hpc₅, hkeeps₅, -, hmem₅⟩ := idled hpc₄ [] (by decide +kernel) (by decide)
    ((hkeeps₄ r10 (by decide)).trans hreading.page) (by decide +kernel) htells₄
    (((fifoRelation_exactly d).direction_none hdevice₄).mpr hidle)
  have hbody : Returns (s.regs r6).toNat (response.flatMap le32) 0 [r0, r1, r3, r4, r5, r6, r7, lr] s₁ s₅ s₅.pc := {
    leads := hlead₂.trans (hlead₃.trans (hlead₄.trans hlead₅))
    pc    := rfl
    keeps := (hkeeps₂.trans (hkeeps₃.trans (hkeeps₄.trans hkeeps₅))).mono (by decide)
    ram   := by
      rw [hmem₅, effects_nil, hram₄]
      exact .refl _ _ _ }
  obtain ⟨t, hreturns, hmem, -⟩ := returns_framed [r0, r1, r3, lr] h hlead₁ henter hbody (by rw [hpc₅]; decide +kernel)
    (by decide) (by decide) (by decide) (by decide) (by rw [flatMap_le32_length, hlen]; exact hapart)
  refine ⟨t, hreturns, a', hidle, ?_, hlog⟩
  rw [hmem, hmem₅]
  exact hdevice₄

end Ntr

end GekkoPak
