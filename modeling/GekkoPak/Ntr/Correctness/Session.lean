import GekkoPak.Basis.Symbolic
import GekkoPak.Ntr.Correctness.Commands

/-!
# `Ntr.Correctness.Session` — the guest carries out its session

Whatever core is behind the page, whatever memory and registers held and wherever the stack is, the guest does what
`session` does and reports what it returns; where `session` gives up, the guest reports its failure. The proof goes
through the listing once: what is known of the guest at each call (`known`) is evaluated, and each call is a rule for
the rest of the session (`ends_exec`, `ends_read` and so on).
-/

namespace GekkoPak

open Basis Arm

namespace Ntr

/-! ## Outcomes -/

/-- How the guest ends, by what the session returned. -/
def Ends (s : State Board) : Option (List UInt32 × Device) → Prop
  | some (words, d) => ∃ t, Leads s t ∧ t.pc = program.target .finished ∧
      (∀ i < 12, summaryOf t.mem.ram i = words.getD i 0) ∧ Serves d t.mem.window
  | none => ∃ t, Leads s t ∧ t.pc = program.target .failSpin ∧ summaryOf t.mem.ram 0 = failMagic

theorem Ends.of_leads {s t : State Board} {r : Option (List UInt32 × Device)} (hlead : Leads s t) (h : Ends t r) :
    Ends s r := by
  cases r with
  | none =>
    obtain ⟨u, hlead', hrest⟩ := h
    exact ⟨u, hlead.trans hlead', hrest⟩
  | some r =>
    obtain ⟨u, hlead', hrest⟩ := h
    exact ⟨u, hlead.trans hlead', hrest⟩

/-- `failed` reports the failure. -/
theorem ends_failed {s : State Board} (hpc : s.pc = program.target .failed) (hsummary : s.regs r11 = summary) :
    Ends s none := by
  obtain ⟨t, hlead, hpc', -, -, hmem⟩ := straight hpc [.lit r0 failMagic, .str r0 r11 0] (by decide +kernel)
  refine ⟨t, hlead, hpc'.trans (by decide +kernel), ?_⟩
  have hstore : t.mem = bus.store s.mem summary failMagic := by
    rw [hmem]
    simp (disch := decide) only [effects_cons, effects_nil, Arm.effect, State.set_regs_ne, State.set_regs_same,
      State.set_mem, hsummary, UInt32.add_zero]
  have hram : t.mem.ram = s.mem.ram.setWord summary failMagic := by
    rw [hstore]
    exact board.store_mem (show board.covers summary = true by decide)
  rw [summaryOf, hram]
  exact Mem.word_setWord_same _ _ _

/-! ## Comparisons -/

/-- The sign of a word. -/
theorem sign_iff (x : UInt32) : x &&& 0x80000000 ≠ 0 ↔ x.toNat.testBit 31 = true := by
  have hand : (x &&& 0x80000000).toNat = x.toNat &&& 2 ^ 31 := UInt32.toNat_and x _
  have hiff : x &&& 0x80000000 = 0 ↔ x.toNat &&& 2 ^ 31 = 0 := by
    rw [← UInt32.toNat_inj, hand]
    rfl
  rw [ne_eq, hiff, Nat.and_two_pow]
  cases x.toNat.testBit 31 <;> simp

theorem sign_eq (x : UInt32) : x.toNat.testBit 31 = decide (0x80000000 ≤ x.toNat) := by
  have hlt : x.toNat < 2 ^ 32 := x.toNat_lt
  by_cases h : 0x80000000 ≤ x.toNat
  · rw [Nat.testBit_of_two_pow_le_and_two_pow_add_one_gt h hlt, decide_eq_true h]
  · rw [Nat.testBit_lt_two_pow (Nat.lt_of_not_le h), decide_eq_false h]

/-- `cmp r, #1` and `blt`: the comparison is signed. -/
theorem holds_lt_one (s : State Board) (depth : UInt32) :
    (s.setSubFlags depth 1).holds .lt = !decide (Waiting depth) := by
  have hone : (1 : UInt32).toNat.testBit 31 = false := by decide
  have hv : (((depth ^^^ 1) &&& (depth ^^^ (depth - 1))).toNat.testBit 31)
      = (depth.toNat.testBit 31 && (depth.toNat.testBit 31 ^^ (depth - 1).toNat.testBit 31)) := by
    rw [UInt32.toNat_and, UInt32.toNat_xor, UInt32.toNat_xor, Nat.testBit_and, Nat.testBit_xor, Nat.testBit_xor, hone,
      Bool.xor_false]
  have hwaiting : Waiting depth ↔ depth.toNat ≠ 0 ∧ depth.toNat < 0x80000000 := by
    rw [Waiting, ne_eq, ← UInt32.toNat_inj, UInt32.lt_iff_toNat_lt]
    rfl
  have hpred : (depth - 1).toNat = if depth.toNat = 0 then 0xFFFFFFFF else depth.toNat - 1 := by
    have hlt := depth.toNat_lt
    rw [UInt32.toNat_sub, show (1 : UInt32).toNat = 1 from rfl]
    split <;> omega
  have hlt := depth.toNat_lt
  simp only [State.holds, State.setSubFlags, sign_iff, hv, hwaiting, sign_eq, Bool.decide_eq_true]
  rw [hpred]
  by_cases h0 : depth.toNat = 0
  · simp [h0]
  by_cases hsign : 0x80000000 ≤ depth.toNat
  · have hnot : ¬ (depth.toNat ≠ 0 ∧ depth.toNat < 0x80000000) := fun h => Nat.not_lt.mpr hsign h.2
    rw [if_neg h0, decide_eq_true hsign, decide_eq_false hnot]
    cases decide (0x80000000 ≤ depth.toNat - 1) <;> rfl
  · have hpos : ¬ 0x80000000 ≤ depth.toNat - 1 := by omega
    have hyes : depth.toNat ≠ 0 ∧ depth.toNat < 0x80000000 := ⟨h0, Nat.lt_of_not_le hsign⟩
    rw [if_neg h0, decide_eq_false hsign, decide_eq_false hpos, decide_eq_true hyes]
    rfl

/-! ## What is known of the guest -/

/-- The stack pointer, and what was read so far. -/
def params (σ : UInt32) (vs : List UInt32) (i : Nat) : UInt32 := (σ :: vs).getD i 0

/-- The stack is in memory, apart from the guest's data. -/
structure StackOk (σ : UInt32) : Prop where
  room   : 28 ≤ σ.toNat
  memory : ∀ a : UInt32, σ.toNat - 28 ≤ a.toNat → a.toNat < σ.toNat → onPage a = false
  apart  : σ.toNat ≤ summary.toNat ∨ dataEnd + 28 ≤ σ.toNat

/-- The knowledge includes the registers that stay, and is otherwise about the guest's data. -/
def standing (K : Known) : Bool :=
  K.reg sp == some (.param 0) && K.reg r10 == some (.const ntr) && K.reg r11 == some (.const summary) &&
    K.words.all (fun e => summary.toNat ≤ e.1.toNat && e.1.toNat + 4 ≤ dataEnd)

/-- `K` holds of the guest, and the core is `d`. -/
structure Stage (σ : UInt32) (vs : List UInt32) (K : Known) (d : Device) (s : State Board) : Prop where
  holds  : K.Holds board program (params σ vs) s.mem.window s
  serves : Serves d s.mem.window

section Rules

variable {σ : UInt32} (hσ : StackOk σ) {vs : List UInt32} {K : Known} {d : Device} {s : State Board}

/-- The guest runs on its own for a while. -/
theorem ends_run (h : Stage σ vs K d s) (n : Nat) (K' : Known) {r : Option (List UInt32 × Device)}
    (hrun : (K.run program board.covers (fun _ => true) n).any (·.implies K') = true)
    (hnext : ∀ t, Stage σ vs K' d t → Ends t r) : Ends s r := by
  obtain ⟨K₁, hK₁, himp⟩ := (Option.any_eq_true _ _).mp hrun
  obtain ⟨t, hlead, ht⟩ := h.holds.reaches hK₁
  have hwindow : t.mem.window = s.mem.window := ht.rest
  refine .of_leads hlead (hnext t ⟨?_, hwindow ▸ h.serves⟩)
  rw [hwindow]
  exact ht.weaken himp

/-- The guest stands at the entry of `l`, to return to `k`. -/
def atCall (K : Known) (l : Label) (k : Nat) : Bool :=
  standing K && K.pc == program.target l && K.reg lr == some (.code k) && k < 2 ^ 30

theorem atCall_standing {l : Label} {k : Nat} (hK : atCall K l k = true) : standing K = true := by
  simp only [atCall, Bool.and_eq_true] at hK
  exact hK.1.1.1

theorem standing_regs (hK : standing K = true) :
    K.reg sp = some (.param 0) ∧ K.reg r10 = some (.const ntr) ∧ K.reg r11 = some (.const summary) ∧
      ∀ a v, (a, v) ∈ K.words → summary.toNat ≤ a.toNat ∧ a.toNat + 4 ≤ dataEnd := by
  simp only [standing, Bool.and_eq_true, beq_iff_eq, List.all_eq_true, decide_eq_true_eq] at hK
  exact ⟨hK.1.1.1, hK.1.1.2, hK.1.2, fun a v hmem => hK.2 _ hmem⟩

theorem Stage.sp (h : Stage σ vs K d s) (hK : standing K = true) : s.regs sp = σ :=
  h.holds.reg (standing_regs hK).1

include hσ

theorem Stage.called (h : Stage σ vs K d s) {l : Label} {k : Nat} (hK : atCall K l k = true) (n : Nat) (hn : n ≤ 28) :
    Called l n s k := by
  simp only [atCall, Bool.and_eq_true, beq_iff_eq, decide_eq_true_eq] at hK
  obtain ⟨⟨⟨hst, hpc⟩, hlr⟩, hlt⟩ := hK
  have hroom := hσ.room
  have hsp : s.regs Arm.sp = σ := h.sp hst
  exact {
    pc   := h.holds.pc.trans hpc
    page := h.holds.reg (standing_regs hst).2.1
    ret  := h.holds.reg hlr
    lt   := hlt
    room := ⟨by rw [hsp]; omega, fun b hlo hhi => by
      rw [hsp] at hlo hhi
      simp only [board, hσ.memory b (by omega) hhi, Bool.not_false]⟩ }

/-- After a call that fills no buffer. -/
theorem Stage.returned (h : Stage σ vs K d s) (hK : standing K = true) {t : State Board} {n k : Nat} {rs : List Reg}
    {d' : Device} (hreturns : Returns 0 [] n rs s t k) (hn : n ≤ 28) (hserves : Serves d' t.mem.window) :
    Stage σ vs (K.forget k rs) d' t where
  holds := by
    have hsp : s.regs Arm.sp = σ := h.sp hK
    have hroom := hσ.room
    have hapart := hσ.apart
    refine h.holds.forget hreturns.pc hreturns.keeps ?_
    intro a v hmem
    obtain ⟨hlo, hhi⟩ := (standing_regs hK).2.2.2 a v hmem
    have hram := hreturns.ram
    rw [Mem.write_nil, hsp] at hram
    show (t.mem.ram).word a = (s.mem.ram).word a
    rw [Mem.word, Mem.word, hram.read (by omega)]
  serves := hserves

/-! ### A rule for each step of the session -/

variable {f : Core (List UInt32)}

theorem ends_exec (h : Stage σ vs K d s) {cmd : UInt32} (seq : UInt32) (k : Nat) (hK : atCall K .execHi k = true)
    (h0 : K.reg r0 = some (.const cmd)) (h8 : K.reg r8 = some (.const seq))
    (hnext : ∀ d' t, Stage σ vs ((K.forget k [r0, r1, r2, r3, r8, lr]).learn r8 (.const (seq + 1))) d' t →
      Ends t (f d')) : Ends s ((Core.exec cmd (seq + 1) >>= fun _ => f) d) := by
  have hst := atCall_standing hK
  have hr0 : s.regs r0 = cmd := h.holds.reg h0
  have hr8 : s.regs r8 = seq := h.holds.reg h8
  obtain ⟨t, hserves, hcase⟩ := execHi_leads (h.called hσ hK 28 (Nat.le_refl _)) h.serves
  rw [hr0, hr8] at hserves hcase
  have hbind : (Core.exec cmd (seq + 1) >>= fun _ => f) d =
      if (Core.execResult d cmd.toUInt8 (seq + 1)).2 = 0 then f (Core.execResult d cmd.toUInt8 (seq + 1)).1 else none := by
    show (if (Core.execResult d cmd.toUInt8 (seq + 1)).2 = 0 then some ((), (Core.execResult d cmd.toUInt8 (seq + 1)).1)
      else none).bind (fun p => f p.2) = _
    split <;> rfl
  rw [hbind]
  split at hcase
  · next hok =>
    rw [if_pos hok]
    have hstage := h.returned hσ hst hcase.1 (Nat.le_refl _) hserves
    exact .of_leads hcase.1.leads (hnext _ t ⟨hstage.holds.learn hcase.2, hserves⟩)
  · next hok =>
    rw [if_neg hok]
    refine .of_leads hcase.leads (ends_failed hcase.pc ?_)
    rw [hcase.keeps r11 (by decide)]
    exact h.holds.reg (standing_regs hst).2.2.1

omit hσ in
/-- A value just read becomes a parameter. -/
theorem Stage.learned (h : Stage σ vs K d s) (hbelow : K.below (vs.length + 1) = true) {r : Reg} {v : UInt32}
    (hr : s.regs r = v) : Stage σ (vs ++ [v]) (K.learn r (.param (vs.length + 1))) d s where
  holds := by
    have hparams : ∀ i < vs.length + 1, params σ (vs ++ [v]) i = params σ vs i := by
      intro i hi
      rw [params, params, ← List.cons_append, List.getD_append _ _ _ _ hi]
    refine (h.holds.params hbelow hparams).learn (hr.trans ?_)
    simp [Val.den, params]
  serves := h.serves

theorem ends_read {g : UInt32 → Core (List UInt32)} (h : Stage σ vs K d s) {index : UInt32} (n k : Nat)
    (hn : vs.length + 1 = n) (hK : atCall K .rdreg k = true) (h0 : K.reg r0 = some (.const index))
    (hbelow : (K.forget k [r0, r1, r2, r3, lr]).below n = true)
    (hnext : ∀ v d' t, Stage σ (vs ++ [v]) ((K.forget k [r0, r1, r2, r3, lr]).learn r0 (.param n)) d' t →
      Ends t (g v d')) : Ends s ((Core.read index >>= g) d) := by
  subst hn
  have hr0 : s.regs r0 = index := h.holds.reg h0
  obtain ⟨t, hreturns, hvalue, hserves⟩ := rdreg_leads (h.called hσ hK 20 (by decide)) h.serves
  rw [hr0] at hvalue
  have hstage := h.returned hσ (atCall_standing hK) hreturns (by decide) hserves
  exact .of_leads hreturns.leads (hnext _ _ t (hstage.learned hbelow hvalue))

theorem ends_write (h : Stage σ vs K d s) {index : UInt32} (v : Val) (k : Nat) (hK : atCall K .wrreg k = true)
    (h0 : K.reg r0 = some (.const index)) (h1 : K.reg r1 = some v)
    (hnext : ∀ d' t, Stage σ vs (K.forget k [r0, r1, r2, r3, lr]) d' t → Ends t (f d')) :
    Ends s ((Core.write index (v.den program (params σ vs)) >>= fun _ => f) d) := by
  have hr0 : s.regs r0 = index := h.holds.reg h0
  obtain ⟨t, hreturns, hserves⟩ := wrreg_leads (h.called hσ hK 16 (by decide)) h.serves
  rw [hr0, h.holds.reg h1] at hserves
  exact .of_leads hreturns.leads (hnext _ t (h.returned hσ (atCall_standing hK) hreturns (by decide) hserves))

omit hσ in
theorem ends_demand (h : Stage σ vs K d s) (os : List Op) (c : Cond) {p : Prop} [Decidable p] (k : Nat)
    (hcode : program.Embeds K.pc (os.map .op ++ [.b c .failed])) (hK : standing K = true)
    (hkeep : r11 ∉ os.flatMap Op.dst) (hmem : (effects bus s os).mem = s.mem)
    (hcond : (effects bus s os).holds c = !decide p) (hk : K.pc + os.length + 1 = k)
    (hnext : ∀ t, Stage σ vs (K.forget k (os.flatMap Op.dst)) d t → Ends t (f d)) :
    Ends s ((Core.demand p >>= fun _ => f) d) := by
  obtain ⟨t, hlead, hpc, hkeeps, hregs, hmem'⟩ := branched h.holds.pc os c .failed hcode
  refine .of_leads hlead ?_
  rw [hmem] at hmem'
  have hbind : (Core.demand p >>= fun _ => f) d = if p then f d else none := by
    show (if p then some ((), d) else none).bind (fun q => f q.2) = _
    split <;> rfl
  rw [hbind]
  rw [hcond] at hpc
  by_cases hp : p
  · rw [if_pos hp]
    rw [decide_eq_true hp, hk] at hpc
    refine hnext t ⟨?_, hmem' ▸ h.serves⟩
    exact h.holds.forget hpc hkeeps (fun a v _ => by rw [hmem'])
  · rw [if_neg hp]
    rw [decide_eq_false hp] at hpc
    refine ends_failed hpc ?_
    rw [hkeeps r11 hkeep]
    exact h.holds.reg (standing_regs hK).2.2.1

/-! ### The block transfers -/

omit hσ in
/-- The bytes of a buffer whose words are known. -/
theorem read_known (h : Stage σ vs K d s) {words : List Val} {a : UInt32} (hfit : a.toNat + 4 * words.length < 2 ^ 32)
    (hwords : ∀ i, (hi : i < words.length) → K.word (a + 4 * UInt32.ofNat i) = some words[i]) :
    s.mem.ram.read a.toNat (4 * words.length) = (words.map (Val.den program (params σ vs))).flatMap le32 := by
  have hframe : Frame s.mem.ram a (words.map (Val.den program (params σ vs))) := by
    refine frame_of_words (by rwa [List.length_map]) (fun i hi => ?_)
    rw [List.getElem_map]
    exact h.holds.word (hwords i (by simpa using hi))
  rw [Frame, List.length_map] at hframe
  exact hframe

/-- The buffers are in memory, apart from the stack. -/
theorem buffer_ok {a : UInt32} (ha : summary.toNat ≤ a.toNat) (hend : a.toNat + 512 ≤ dataEnd) :
    board.Covers a (4 * kBlockWords) ∧ (a.toNat + 512 ≤ σ.toNat - 20 ∨ σ.toNat ≤ a.toNat) := by
  have hapart := hσ.apart
  have hlow : dataEnd = 0x0FFFC500 := rfl
  have hlen : 4 * kBlockWords = 512 := rfl
  refine ⟨⟨by omega, fun b _ hb => ?_⟩, by omega⟩
  have hoff : onPage b = false := by
    simp only [onPage, decide_eq_false_iff_not, not_and, Nat.not_lt]
    intro hb'
    omega
  simp only [board, hoff, Bool.not_false]

theorem ends_submit (h : Stage σ vs K d s) (words : List Val) (k : Nat) (hK : atCall K .wireWriteBlock k = true)
    (h0 : K.reg r0 = some (.const wWriteBlock)) (h1 : K.reg r1 = some (.const 0)) (h2 : K.reg r2 = some (.const 80))
    (h6 : K.reg r6 = some (.const blockTx)) (hlen : words.length = 20)
    (hwords : ∀ i, (hi : i < words.length) → K.word (blockTx + 4 * UInt32.ofNat i) = some words[i])
    (hnext : ∀ d' t, Stage σ vs (K.forget k [r0, r1, r3, lr]) d' t → Ends t (f d')) :
    Ends s ((Core.submit ((words.map (Val.den program (params σ vs))).flatMap le32) >>= fun _ => f) d) := by
  have hr6 : s.regs r6 = blockTx := h.holds.reg h6
  have hr1 : s.regs r1 = 0 := h.holds.reg h1
  have hr2 : s.regs r2 = 80 := h.holds.reg h2
  have hsp : s.regs Arm.sp = σ := h.sp (atCall_standing hK)
  obtain ⟨hcov, hapart⟩ := buffer_ok hσ (a := blockTx) (by decide) (by decide)
  obtain ⟨t, hreturns, hserves⟩ := submit_leads (h.called hσ hK 20 (by decide)) h.serves (h.holds.reg h0)
    (by rw [hr6]; exact hcov) (by rw [hr6, hsp]; exact hapart)
  have hread := @read_known σ vs K d s h words blockTx (by rw [hlen]; decide) hwords
  have hbytes : ((words.map (Val.den program (params σ vs))).flatMap le32).length = 80 := by
    rw [flatMap_le32_length, List.length_map, hlen]
  have hblock : Device.blockLength 80 = 80 := by decide
  rw [hlen] at hread
  -- the core looks at the first 80 of the 512 bytes
  have htake := Device.writeBlock_take d.countTransfer 0 (by rw [hblock, Mem.read_length]; decide)
    (by rw [hblock, hbytes]) (show ((s.mem.ram.read blockTx.toNat kBlockBytes).take (Device.blockLength 80)) =
      ((words.map (Val.den program (params σ vs))).flatMap le32).take (Device.blockLength 80) by
      rw [hblock, Mem.take_read (by decide), List.take_of_length_le (Nat.le_of_eq hbytes)]
      exact hread)
  rw [hr6, hr1, hr2] at hserves
  have hdone : Serves (d.countTransfer.writeBlock 0 (UInt32.ofNat ((words.map (Val.den program (params σ vs))).flatMap
      le32).length) (some ((words.map (Val.den program (params σ vs))).flatMap le32))).1 t.mem.window := by
    rw [hbytes]
    exact htake ▸ hserves
  exact .of_leads hreturns.leads (hnext _ t (h.returned hσ (atCall_standing hK) hreturns (by decide) hdone))

omit hσ in
/-- Several values become parameters. -/
theorem params_append (vs vs' : List UInt32) {i : Nat} (hi : i < vs.length + 1) : params σ (vs ++ vs') i = params σ vs i := by
  rw [params, params, ← List.cons_append, List.getD_append _ _ _ _ hi]

omit hσ in
theorem params_new (vs vs' : List UInt32) (j : Nat) : params σ (vs ++ vs') (vs.length + 1 + j) = vs'.getD j 0 := by
  rw [params, ← List.cons_append, List.getD_append_right _ _ _ _ (by rw [List.length_cons]; omega), List.length_cons]
  congr 1
  omega

/-- The words `is` of the record, as parameters from `n` on. -/
def recordWords (is : List Nat) (n : Nat) : List (UInt32 × Val) :=
  is.zipIdx.map (fun e => (blockRx + 4 * UInt32.ofNat e.1, .param (n + e.2)))

theorem ends_collect {g : List UInt8 → Core (List UInt32)} (h : Stage σ vs K d s) (is : List Nat) (n k : Nat)
    (hn : vs.length + 1 = n) (hK : atCall K .wireReadBlock k = true) (h0 : K.reg r0 = some (.const wReadBlock))
    (h1 : K.reg r1 = some (.const 1)) (h2 : K.reg r2 = some (.const 0x00400000)) (h6 : K.reg r6 = some (.const blockRx))
    (his : ∀ i ∈ is, i < 128) (hbelow : K.below n = true)
    (hwords : K.words.all (fun e => e.1.toNat + 4 ≤ blockRx.toNat) = true)
    (hnext : ∀ record d' t, record.length = 512 → Stage σ (vs ++ is.map (wordAt record))
      ((K.forget k [r0, r1, r3, lr]).learnWords (recordWords is n)) d' t → Ends t (g record d')) :
    Ends s ((Core.collect >>= g) d) := by
  subst hn
  have hst := atCall_standing hK
  have hr6 : s.regs r6 = blockRx := h.holds.reg h6
  have hr1 : s.regs r1 = 1 := h.holds.reg h1
  have hr2 : s.regs r2 = 0x00400000 := h.holds.reg h2
  have hsp : s.regs Arm.sp = σ := h.sp hst
  have hroom := hσ.room
  have hapart' := hσ.apart
  obtain ⟨hcov, hapart⟩ := buffer_ok hσ (a := blockRx) (by decide) (by decide)
  obtain ⟨t, hreturns, hserves⟩ := collect_leads (h.called hσ hK 20 (by decide)) h.serves (h.holds.reg h0)
    (by rw [hr6]; exact hcov) (by rw [hr6, hsp]; exact hapart)
  rw [hr6, hr1, hr2] at hreturns
  rw [hr1, hr2] at hserves
  have hram := hreturns.ram
  rw [hsp] at hram
  have hlen : (d.countTransfer.readBlock (1 : UInt32).toUInt8 0x00400000 (some kBlockBytes)).2.2.length = 512 :=
    Device.readBlock_out_length _ _ _ _
  refine .of_leads hreturns.leads (hnext _ _ t hlen ⟨?_, hserves⟩)
  refine ((h.holds.params hbelow (fun i hi => params_append vs _ hi)).forget hreturns.pc hreturns.keeps ?_).learnWords ?_
  · intro a v hmem
    obtain ⟨hlo, hhi⟩ := (standing_regs hst).2.2.2 a v hmem
    have hbefore : a.toNat + 4 ≤ blockRx.toNat := by
      have hall := List.all_eq_true.mp hwords (a, v) hmem
      simpa using hall
    show (t.mem.ram).word a = (s.mem.ram).word a
    rw [Mem.word, Mem.word, hram.read (by omega), Mem.read_write_disjoint (Or.inr hbefore)]
  · intro a v hmem
    obtain ⟨⟨i, j⟩, hij, heq⟩ := List.mem_map.mp hmem
    obtain ⟨rfl, rfl⟩ := Prod.mk.inj heq
    have hget : is[j]? = some i := List.mem_zipIdx_iff_getElem?.mp hij
    have hi : i < 128 := his i (List.mem_of_getElem? hget)
    have haddr : (blockRx + 4 * UInt32.ofNat i).toNat = blockRx.toNat + 4 * i :=
      toNat_up (by have : blockRx.toNat = 0x0FFFC300 := rfl; omega)
    have hdata : summary.toNat = 0x0FFFC000 ∧ blockRx.toNat = 0x0FFFC300 ∧ dataEnd = 0x0FFFC500 := ⟨rfl, rfl, rfl⟩
    rw [Val.den, params_new, List.getD_eq_getElem?_getD, List.getElem?_map, hget]
    show t.mem.ram.word _ = wordAt _ i
    rw [Mem.word, haddr, hram.read (by omega), Mem.read_write_part _ (by rw [hlen]; omega)]
    rfl

omit hσ in
theorem ends_return (h : Stage σ vs K d s) (hpc : K.pc = program.target .finished) (words : List Val)
    (hwords : ∀ i < 12, K.word (summary + 4 * UInt32.ofNat i) = words[i]? ∧ (words[i]?).isSome = true) :
    Ends s (some (words.map (Val.den program (params σ vs)), d)) := by
  refine ⟨s, .refl s, h.holds.pc.trans hpc, fun i hi => ?_, h.serves⟩
  obtain ⟨hword, hsome⟩ := hwords i hi
  obtain ⟨w, hw⟩ := Option.isSome_iff_exists.mp hsome
  rw [hw] at hword
  rw [List.getD_eq_getElem?_getD, List.getElem?_map, hw]
  exact h.holds.word hword

end Rules

/-! ## Through the listing -/

/-- What is known besides the registers that stay. -/
def known (pc : Nat) (regs : List (Reg × Val)) (words : List (UInt32 × Val)) : Known where
  pc    := pc
  regs  := [(sp, .param 0), (r10, .const ntr), (r11, .const summary)] ++ regs
  words := words
  z     := none

/-- The first `n` words of the summary after the status, each with its parameter. -/
def reported (n : Nat) : List (UInt32 × Val) :=
  (List.range n).map (fun i => (summary + 4 * UInt32.ofNat (i + 1), .param (i + 1)))

/-- The descriptor and its payload, as the guest knows them. -/
def descriptorVals : List Val :=
  [.const descMagic, .const descVerOp, .const 1, .const descInline, .param 4, .const 0, .const 16, .const 0, .const 0,
    .const 16, .const 1, .const 250000, .const 3500, .const 0, .const 0, .const 0, .const 0x11223344, .const 0x55667788,
    .const 0xAABBCCDD, .const 0x0BADF00D]

def descriptorKnown : List (UInt32 × Val) :=
  descriptorVals.zipIdx.map (fun e => (blockTx + 4 * UInt32.ofNat e.2, e.1))

/-- The whole summary, but for the status. -/
def reportedAll : List (UInt32 × Val) :=
  reported 4 ++ [(summary + 20, .param 8), (summary + 24, .param 9), (summary + 28, .param 10), (summary + 32, .param 11),
    (summary + 36, .param 12), (summary + 40, .param 13), (summary + 44, .const 3)]

/-- The status in the record, by way of the word it is in. -/
theorem loadHalf_eq_zero {b : Board} {record : List UInt8} (hword : b.ram.word (blockRx + 4) = wordAt record 1)
    (hlen : record.length = 512) : ((bus.loadHalf b (blockRx + 6)).2 = 0) ↔ leNat (slice record 6 2) = 0 := by
  have hfour : b.ram.read (blockRx.toNat + 4) 4 = slice record 4 4 := by
    have hbytes := b.ram.leBytes_word (blockRx + 4)
    rw [hword] at hbytes
    have hle : le32 (wordAt record 1) = slice record 4 4 := le32_ofLe32 (slice_length (by omega))
    exact hbytes.symm.trans hle
  have htwo : b.ram.read (blockRx.toNat + 6) 2 = slice record 6 2 := by
    have hpart : slice (b.ram.read (blockRx.toNat + 4) 4) 2 2 = b.ram.read (blockRx.toNat + 4 + 2) 2 :=
      Mem.slice_read (by decide)
    rw [hfour] at hpart
    rw [← hpart, slice, slice, slice, List.drop_take, List.drop_drop, List.take_take]
    rfl
  have hlt := leNat_lt (slice record 6 2)
  rw [slice_length (by omega)] at hlt
  show UInt32.ofNat (leNat (b.ram.read (blockRx.toNat + 6) 2)) = 0 ↔ _
  rw [htwo, ← UInt32.toNat_inj, UInt32.toNat_ofNat_of_lt' (Nat.lt_trans hlt (by decide))]
  rfl

theorem ends_session {d : Device} {s : State Board} (h : Ready d s) : Ends s (session d) := by
  have hσ : StackOk (s.regs sp) := ⟨h.room, h.memory, h.apart⟩
  have h : Stage (s.regs sp) [] { pc := program.target .start, regs := [(sp, .param 0)], words := [], z := none } d s := {
    holds  := {
      pc    := h.pc
      regs  := fun r v hmem => by
        obtain ⟨rfl, rfl⟩ := Prod.mk.inj (List.mem_singleton.mp hmem)
        rfl
      words := fun a v hmem => absurd hmem List.not_mem_nil
      z     := fun b hb => by cases hb
      rest  := rfl }
    serves := ⟨h.device, h.idle⟩ }
  generalize s.regs sp = σ at h hσ
  unfold session
  refine ends_run h 7 (known (program.target .execHi) [(r0, .const cmdHello), (r8, .const 0), (lr, .code 7)] [])
    (by decide +kernel) fun s h => ?_
  refine ends_exec hσ h 0 7 (by decide +kernel) rfl rfl fun d s h => ?_
  refine ends_run h 2 (known (program.target .rdreg) [(r0, .const rOut0), (r8, .const 1), (lr, .code 9)] [])
    (by decide +kernel) fun s h => ?_
  refine ends_read hσ h 1 9 rfl (by decide +kernel) rfl (by decide +kernel) fun protocol d s h => ?_
  refine ends_run h 3 (known (program.target .execHi) [(r0, .const cmdGetCaps), (r8, .const 1), (lr, .code 12)] (reported 1))
    (by decide +kernel) fun s h => ?_
  refine ends_exec hσ h 1 12 (by decide +kernel) rfl rfl fun d s h => ?_
  refine ends_run h 2 (known (program.target .rdreg) [(r0, .const rOut0), (r8, .const 2), (lr, .code 14)] (reported 1))
    (by decide +kernel) fun s h => ?_
  refine ends_read hσ h 2 14 rfl (by decide +kernel) rfl (by decide +kernel) fun caps d s h => ?_
  refine ends_run h 1 (known 15 [(r0, .param 2), (r8, .const 2)] (reported 2)) (by decide +kernel) fun s h => ?_
  refine ends_demand h [.tst r0 (.imm capBlockTransport)] .eq 17 (by decide +kernel) (by decide +kernel) (by decide) rfl ?_
    rfl fun s h => ?_
  · have hcaps : s.regs r0 = caps := h.holds.reg (v := .param 2) (by decide +kernel)
    simp only [effects_cons, effects_nil, Arm.effect, State.holds, State.eval, hcaps, decide_not, Bool.not_not]
  refine ends_run h 2 (known (program.target .rdreg) [(r0, .const rOut1), (r8, .const 2), (lr, .code 19)] (reported 2))
    (by decide +kernel) fun s h => ?_
  refine ends_read hσ h 3 19 rfl (by decide +kernel) rfl (by decide +kernel) fun localRam d s h => ?_
  refine ends_run h 4 (known (program.target .wrreg) [(r0, .const rArg0), (r1, .const 4096), (r8, .const 2), (lr, .code 23)]
    (reported 3)) (by decide +kernel) fun s h => ?_
  refine ends_write hσ h (.const 4096) 23 (by decide +kernel) rfl rfl fun d s h => ?_
  refine ends_run h 2 (known (program.target .execHi) [(r0, .const cmdAlloc), (r8, .const 2), (lr, .code 25)] (reported 3))
    (by decide +kernel) fun s h => ?_
  refine ends_exec hσ h 2 25 (by decide +kernel) rfl rfl fun d s h => ?_
  refine ends_run h 2 (known (program.target .rdreg) [(r0, .const rOut0), (r8, .const 3), (lr, .code 27)] (reported 3))
    (by decide +kernel) fun s h => ?_
  refine ends_read hσ h 4 27 rfl (by decide +kernel) rfl (by decide +kernel) fun handle d s h => ?_
  refine ends_run h 44 (known (program.target .wireWriteBlock) [(r0, .const wWriteBlock), (r1, .const 0), (r2, .const 80),
    (r6, .const blockTx), (r7, .param 4), (r8, .const 3), (lr, .code 71)] (reported 4 ++ descriptorKnown))
    (by decide +kernel) fun s h => ?_
  refine ends_submit hσ h descriptorVals 71 (by decide +kernel) rfl rfl rfl rfl rfl (by decide +kernel) fun d s h => ?_
  refine ends_run h 2 (known (program.target .rdreg) [(r0, .const eventCompletionDepth), (r7, .param 4), (r8, .const 3),
    (lr, .code 73)] (reported 4)) (by decide +kernel) fun s h => ?_
  refine ends_read hσ h 5 73 rfl (by decide +kernel) rfl (by decide +kernel) fun depth d s h => ?_
  refine ends_demand h [.cmp r0 (.imm 1)] .lt 75 (by decide +kernel) (by decide +kernel) (by decide) rfl ?_ rfl fun s h => ?_
  · have hdepth : s.regs r0 = depth := h.holds.reg (v := .param 5) (by decide +kernel)
    simp only [effects_cons, effects_nil, Arm.effect, State.eval, hdepth, holds_lt_one]
  refine ends_run h 5 (known (program.target .wireReadBlock) [(r0, .const wReadBlock), (r1, .const 1),
    (r2, .const 0x00400000), (r6, .const blockRx), (r7, .param 4), (r8, .const 3), (lr, .code 80)] (reported 4))
    (by decide +kernel) fun s h => ?_
  refine ends_collect hσ h [0, 1, 3, 4, 5, 6, 9, 10] 6 80 rfl (by decide +kernel) rfl rfl rfl rfl (by decide)
    (by decide +kernel) (by decide +kernel) fun record d s hlen h => ?_
  refine ends_run h 3 (known 83 [(r0, .param 6), (r1, .const compMagic), (r7, .param 4), (r8, .const 3), (r9, .const blockRx)]
    (reported 4 ++ recordWords [0, 1, 3, 4, 5, 6, 9, 10] 6)) (by decide +kernel) fun s h => ?_
  refine ends_demand h [.cmp r0 (.reg r1)] .ne 85 (by decide +kernel) (by decide +kernel) (by decide) rfl ?_ rfl
    fun s h => ?_
  · have hword : s.regs r0 = wordAt record 0 := h.holds.reg (v := .param 6) (by decide +kernel)
    have hmagic : s.regs r1 = compMagic := h.holds.reg (v := .const compMagic) (by decide +kernel)
    simp only [effects_cons, effects_nil, Arm.effect, State.eval, hword, hmagic, State.holds, State.setSubFlags_z,
      UInt32.sub_eq_iff_eq_add, UInt32.zero_add]
  refine ends_demand h [.ldrh r0 r9 6, .cmp r0 (.imm 0)] .ne 88 (by decide +kernel) (by decide +kernel) (by decide) rfl ?_
    rfl fun s h => ?_
  · have haddr : s.regs r9 = blockRx := h.holds.reg (v := .const blockRx) (by decide +kernel)
    have hword : s.mem.ram.word (blockRx + 4) = wordAt record 1 := h.holds.word (v := .param 7) (by decide +kernel)
    simp only [effects_cons, effects_nil, Arm.effect, State.set_regs_same, State.eval, haddr, State.holds,
      State.setSubFlags_z, UInt32.sub_zero, loadHalf_eq_zero hword hlen]
  refine ends_run h 17 (known (program.target .wrreg) [(r0, .const rArg0), (r1, .param 4), (r8, .const 3), (lr, .code 105)]
    reportedAll) (by decide +kernel) fun s h => ?_
  refine ends_write hσ h (.param 4) 105 (by decide +kernel) rfl rfl fun d s h => ?_
  refine ends_run h 2 (known (program.target .execHi) [(r0, .const cmdFree), (r8, .const 3), (lr, .code 107)] reportedAll)
    (by decide +kernel) fun s h => ?_
  refine ends_exec hσ h 3 107 (by decide +kernel) rfl rfl fun d s h => ?_
  refine ends_run h 2 (known (program.target .execHi) [(r0, .const cmdComplete), (r8, .const 4), (lr, .code 109)] reportedAll)
    (by decide +kernel) fun s h => ?_
  refine ends_exec hσ h 4 109 (by decide +kernel) rfl rfl fun d s h => ?_
  refine ends_run h 2 (known (program.target .finished) [] ((summary, .const passMagic) :: reportedAll))
    (by decide +kernel) fun s h => ?_
  exact ends_return h rfl [.const passMagic, .param 1, .param 2, .param 3, .param 4, .param 8, .param 9, .param 10, .param 11,
    .param 12, .param 13, .const 3] (by decide +kernel)

/-! ## The guest's results -/

/-- **The guest carries out its session**, whatever core is behind the page, whatever memory and registers hold, and
    wherever the stack is that leaves program, data and page alone. -/
theorem guest_session {d : Device} {s : State Board} (h : Ready d s) : Ends s (session d) := ends_session h

theorem ready_boot (config : Config) (ram : Mem) : Ready (Device.reset config) (boot config ram) where
  pc     := rfl
  room   := show 28 ≤ (0x10000000 : UInt32).toNat by decide
  memory := by
    intro a hlo hhi
    have hsp : ((boot config ram).regs sp).toNat = 0x10000000 := rfl
    rw [hsp] at hlo hhi
    simp only [onPage, decide_eq_false_iff_not, not_and]
    omega
  text   := Or.inr (show textEnd + 28 ≤ (0x10000000 : UInt32).toNat by decide +kernel)
  apart  := Or.inr (show dataEnd + 28 ≤ (0x10000000 : UInt32).toNat by decide)
  device := rfl
  idle   := rfl

theorem guest_session_boot :
    Ends (boot { hasPool := false } Mem.zero) (session (Device.reset { hasPool := false })) :=
  guest_session (ready_boot _ _)

/-- The verdict is about twelve words. -/
theorem validateSummary_congr {f g : Nat → UInt32} (h : ∀ i < 12, f i = g i) : validateSummary f = validateSummary g := by
  simp only [validateSummary, h 0 (by decide), h 1 (by decide), h 2 (by decide), h 3 (by decide), h 4 (by decide),
    h 5 (by decide), h 6 (by decide), h 7 (by decide), h 8 (by decide), h 9 (by decide), h 10 (by decide), h 11 (by decide)]

/-- The guest rests at `finished`. -/
theorem step_finished {t : State Board} (hpc : t.pc = program.target .finished) : Arm.step program bus t = t := by
  have hcode : program.code[t.pc]? = some (.b .al .finished) := by
    rw [hpc]
    decide +kernel
  rw [step_b hcode, ← hpc]
  rfl

/-- **The guest passes.** With the core as the overlay resets it, from some point on the frontend finds the summary in
    place and its verdict is good. -/
theorem guest_passes {s : State Board} (h : Ready (Device.reset overlayConfig) s) :
    ∃ n, ∀ m ≥ n, validateSummary (summaryOf ((Arm.step program bus)^[m] s).mem.ram) = true := by
  have hpass : ((session (Device.reset overlayConfig)).map (fun r => validateSummary (r.1.getD · 0))) = some true := by
    decide +kernel
  obtain ⟨⟨words, d⟩, hsession, hgood⟩ := Option.map_eq_some_iff.mp hpass
  have hends := ends_session h
  rw [hsession] at hends
  obtain ⟨t, ⟨n, hruns⟩, hpc, hwords, -⟩ := hends
  refine ⟨n, fun m hm => ?_⟩
  have hrest : (Arm.step program bus)^[m] s = t := by
    rw [show m = (m - n) + n by omega, Function.iterate_add_apply, hruns.iterate, Function.iterate_fixed (step_finished hpc)]
  rw [hrest, validateSummary_congr hwords]
  exact hgood

theorem guest_passes_boot :
    ∃ n, ∀ m ≥ n, validateSummary (summaryOf ((Arm.step program bus)^[m] (boot overlayConfig Mem.zero)).mem.ram) = true :=
  guest_passes (ready_boot _ _)

end Ntr

end GekkoPak
