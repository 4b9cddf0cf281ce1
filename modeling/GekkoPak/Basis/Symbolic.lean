import GekkoPak.Basis.Ram

/-!
# `Basis.Symbolic` — running a program on what is known of its state

`Known` is what is known of a processor and its memory: some registers, some words, perhaps the zero flag. A value is
known as a constant, as the address of an instruction, or as a parameter of the run. `Known.step` executes one
instruction on that knowledge, and gives up where a store or a branch depends on something unknown. It computes, so a
path through a program is checked by evaluating it; `Known.Holds.run` says what the evaluation is worth: every state
of which the knowledge holds runs along, and what is known in the end holds of the state it ends in.
-/

namespace Basis

namespace Arm

/-! ## Knowledge -/

/-- A value known up to the parameters of the run. -/
inductive Val
  | const (v : UInt32)
  | code (k : Nat)
  | param (i : Nat)
deriving DecidableEq, Repr

/-- The value meant. -/
def Val.den {ℓ : Type} (p : Program ℓ) (ρ : Nat → UInt32) : Val → UInt32
  | .const v => v
  | .code k  => p.addr k
  | .param i => ρ i

/-- What is known of a state. -/
structure Known where
  pc    : Nat
  regs  : List (Reg × Val)
  words : List (UInt32 × Val)
  z     : Option Bool
deriving DecidableEq, Repr

/-- The part of a bus that is memory: where it is, and what is beside it. -/
structure Window {μ : Type} (bus : Bus μ) (δ : Type) where
  mem        : μ → Mem
  rest       : μ → δ
  covers     : UInt32 → Bool
  load       : ∀ {m a}, covers a = true → bus.load m a = (m, (mem m).word a)
  store_mem  : ∀ {m a v}, covers a = true → mem (bus.store m a v) = (mem m).setWord a v
  store_rest : ∀ {m a v}, covers a = true → rest (bus.store m a v) = rest m

/-- Plain memory is memory everywhere. -/
def Window.ram : Window Arm.ram Unit where
  mem        := id
  rest _     := ()
  covers _   := true
  load _       := rfl
  store_mem _  := rfl
  store_rest _ := rfl

namespace Known

/-- The value of a register, where it is known. -/
def reg (K : Known) (r : Reg) : Option Val := K.regs.lookup r

/-- The value of a word, where it is known. -/
def word (K : Known) (a : UInt32) : Option Val := K.words.lookup a

/-- The word stored at an address, where both are known to be constants. -/
def addr (K : Known) (rn : Reg) (off : UInt32) : Option UInt32 :=
  match K.reg rn with
  | some (.const c) => some (c + off)
  | _               => none

def setReg (K : Known) (r : Reg) (v : Option Val) : Known :=
  { K with regs := (v.toList.map (fun v => (r, v))) ++ K.regs.filter (fun e => e.1 ≠ r) }

/-- Two words do not overlap. -/
def apart (a b : UInt32) : Bool := a.toNat + 4 ≤ b.toNat || b.toNat + 4 ≤ a.toNat

def setWord (K : Known) (a : UInt32) (v : Option Val) : Known :=
  { K with words := (v.toList.map (fun v => (a, v))) ++ K.words.filter (fun e => apart e.1 a) }

/-- The value of an operand, where it is known. -/
def eval (K : Known) : Operand → Option Val
  | .imm v   => some (.const v)
  | .reg r   => K.reg r
  | .lsl _ _ => none

/-- What an instruction that goes on does to the knowledge. -/
def effect (covers : UInt32 → Bool) (K : Known) : Op → Option Known
  | .lit rd v    => some (K.setReg rd (some (.const v)))
  | .mov rd op   => some (K.setReg rd (K.eval op))
  | .add rd rn op =>
    match K.reg rn, K.eval op with
    | some (.const a), some (.const b) => some (K.setReg rd (some (.const (a + b))))
    | _, _                             => some (K.setReg rd none)
  | .cmp rn op   =>
    match K.reg rn, K.eval op with
    | some (.const a), some (.const b) => some { K with z := some (decide (a - b = 0)) }
    | _, _                             => some { K with z := none }
  | .ldr rd rn off =>
    match K.addr rn off with
    | some a => if covers a then some (K.setReg rd (K.word a)) else none
    | none   => none
  | .str rd rn off =>
    match K.addr rn off with
    | some a => if covers a then some (K.setWord a (K.reg rd)) else none
    | none   => none
  | _ => none

/-- One instruction on the knowledge. -/
def step {ℓ : Type} [DecidableEq ℓ] (p : Program ℓ) (covers : UInt32 → Bool) (K : Known) : Option Known :=
  match p.code[K.pc]? with
  | some (.op o)    => (K.effect covers o).map (fun K' => { K' with pc := K.pc + 1 })
  | some (.b .al l) => some { K with pc := p.target l }
  | some (.b .eq l) => K.z.map (fun z => { K with pc := if z then p.target l else K.pc + 1 })
  | some (.b .ne l) => K.z.map (fun z => { K with pc := if z then K.pc + 1 else p.target l })
  | some (.bl l)    => some { K.setReg lr (some (.code (K.pc + 1))) with pc := p.target l }
  | some (.bx rm)   =>
    match K.reg rm with
    | some (.code k) => if k < 2 ^ 30 then some { K with pc := k } else none
    | _              => none
  | _ => none

/-- `n` instructions on the knowledge, with `ok` asked before each. -/
def run {ℓ : Type} [DecidableEq ℓ] (p : Program ℓ) (covers : UInt32 → Bool) (ok : Known → Bool) :
    Nat → Known → Option Known
  | 0,     K => some K
  | n + 1, K => if ok K then (K.step p covers).bind (run p covers ok n) else none

/-- What is left after something else ran: the registers `rs` and the flag are lost, and it goes on at `k`. -/
def forget (K : Known) (k : Nat) (rs : List Reg) : Known :=
  { pc := k, regs := K.regs.filter (fun e => e.1 ∉ rs), words := K.words, z := none }

/-- A register is now known. -/
def learn (K : Known) (r : Reg) (v : Val) : Known := { K with regs := (r, v) :: K.regs }

/-- Some words are now known. -/
def learnWords (K : Known) (ws : List (UInt32 × Val)) : Known := { K with words := ws ++ K.words }

/-- A value mentions parameters below `n` only. -/
def belowVal (n : Nat) : Val → Bool
  | .param i => i < n
  | _        => true

/-- So does all that is known. -/
def below (n : Nat) (K : Known) : Bool := K.regs.all (fun e => belowVal n e.2) && K.words.all (fun e => belowVal n e.2)

/-- Nothing is known by `K'` that is not known by `K`. -/
def implies (K K' : Known) : Bool :=
  K.pc == K'.pc && K'.regs.all (fun e => K.regs.contains e) && K'.words.all (fun e => K.words.contains e)
    && (K'.z.isNone || K'.z == K.z)

/-! ## What the knowledge says -/

section Soundness

variable {μ δ ℓ : Type} {bus : Bus μ} {W : Window bus δ} {p : Program ℓ} {ρ : Nat → UInt32} {d : δ}
variable {K K' : Known} {s : State μ}

/-- The knowledge holds of a state; `d` is what is beside the memory. -/
structure Holds (W : Window bus δ) (p : Program ℓ) (ρ : Nat → UInt32) (d : δ) (K : Known) (s : State μ) : Prop where
  pc    : s.pc = K.pc
  regs  : ∀ r v, (r, v) ∈ K.regs → s.regs r = v.den p ρ
  words : ∀ a v, (a, v) ∈ K.words → (W.mem s.mem).word a = v.den p ρ
  z     : ∀ b, K.z = some b → s.z = b
  rest  : W.rest s.mem = d

/-- A pair found in an association list is in it. -/
theorem mem_of_lookup {κ : Type} [DecidableEq κ] {l : List (κ × Val)} {k : κ} {v : Val} (h : l.lookup k = some v) :
    (k, v) ∈ l := by
  induction l with
  | nil => simp at h
  | cons e l ih =>
    rw [List.lookup_cons] at h
    by_cases hk : k = e.1
    · subst hk
      rw [beq_self_eq_true] at h
      cases h
      exact List.mem_cons_self
    · rw [beq_false_of_ne hk] at h
      exact List.mem_cons_of_mem _ (ih h)

theorem Holds.reg (h : Holds W p ρ d K s) {r : Reg} {v : Val} (hr : K.reg r = some v) : s.regs r = v.den p ρ :=
  h.regs r v (mem_of_lookup hr)

theorem Holds.word (h : Holds W p ρ d K s) {a : UInt32} {v : Val} (hw : K.word a = some v) :
    (W.mem s.mem).word a = v.den p ρ :=
  h.words a v (mem_of_lookup hw)

theorem Holds.addr (h : Holds W p ρ d K s) {rn : Reg} {off a : UInt32} (ha : K.addr rn off = some a) :
    s.regs rn + off = a := by
  unfold Known.addr at ha
  split at ha
  · next c hc =>
    cases ha
    rw [h.reg hc, Val.den]
  · cases ha

theorem Holds.eval (h : Holds W p ρ d K s) {op : Operand} {v : Val} (hv : K.eval op = some v) :
    s.eval op = v.den p ρ := by
  cases op with
  | imm v => cases hv; rfl
  | reg r => exact h.reg hv
  | lsl r n => cases hv

/-- Less is known, and it still holds. -/
theorem Holds.weaken (h : Holds W p ρ d K s) (himp : K.implies K' = true) : Holds W p ρ d K' s := by
  simp only [implies, Bool.and_eq_true, beq_iff_eq, List.all_eq_true, List.contains_iff_mem, Bool.or_eq_true,
    Option.isNone_iff_eq_none] at himp
  obtain ⟨⟨⟨hpc, hregs⟩, hwords⟩, hz⟩ := himp
  exact {
    pc    := h.pc.trans hpc
    regs  := fun r v hv => h.regs r v (hregs _ hv)
    words := fun a v hv => h.words a v (hwords _ hv)
    z     := by
      intro b hb
      rcases hz with hnone | hsame
      · rw [hnone] at hb; cases hb
      · exact h.z b (hsame ▸ hb)
    rest  := h.rest }

/-- Something else ran, which left the words known and the other registers alone. -/
theorem Holds.forget (h : Holds W p ρ d K s) {t : State μ} {k : Nat} {rs : List Reg} (hpc : t.pc = k)
    (hregs : ∀ r, r ∉ rs → t.regs r = s.regs r)
    (hwords : ∀ a v, (a, v) ∈ K.words → (W.mem t.mem).word a = (W.mem s.mem).word a) :
    Holds W p ρ (W.rest t.mem) (K.forget k rs) t where
  pc    := hpc
  regs  := by
    intro r v hmem
    obtain ⟨hin, hnot⟩ := List.mem_filter.mp hmem
    rw [hregs r (by simpa using hnot), h.regs r v hin]
  words := fun a v hmem => (hwords a v hmem).trans (h.words a v hmem)
  z     := fun b hb => by cases hb
  rest  := rfl

theorem Holds.learn (h : Holds W p ρ d K s) {r : Reg} {v : Val} (hr : s.regs r = v.den p ρ) :
    Holds W p ρ d (K.learn r v) s where
  pc    := h.pc
  regs  := by
    intro r' v' hmem
    rcases List.mem_cons.mp hmem with heq | hold
    · cases heq
      exact hr
    · exact h.regs r' v' hold
  words := h.words
  z     := h.z
  rest  := h.rest

theorem Holds.learnWords (h : Holds W p ρ d K s) {ws : List (UInt32 × Val)}
    (hws : ∀ a v, (a, v) ∈ ws → (W.mem s.mem).word a = v.den p ρ) : Holds W p ρ d (K.learnWords ws) s where
  pc    := h.pc
  regs  := h.regs
  words := fun a v hmem => (List.mem_append.mp hmem).elim (hws a v) (h.words a v)
  z     := h.z
  rest  := h.rest

theorem den_below {ρ' : Nat → UInt32} {n : Nat} {v : Val} (hv : belowVal n v = true) (hρ : ∀ i < n, ρ' i = ρ i) :
    v.den p ρ' = v.den p ρ := by
  cases v with
  | const => rfl
  | code => rfl
  | param i => exact hρ i (by simpa [belowVal] using hv)

/-- Other parameters may become whatever they like. -/
theorem Holds.params (h : Holds W p ρ d K s) {ρ' : Nat → UInt32} {n : Nat} (hK : K.below n = true)
    (hρ : ∀ i < n, ρ' i = ρ i) : Holds W p ρ' d K s := by
  simp only [below, Bool.and_eq_true, List.all_eq_true] at hK
  exact {
    pc    := h.pc
    regs  := fun r v hmem => (h.regs r v hmem).trans (den_below (hK.1 _ hmem) hρ).symm
    words := fun a v hmem => (h.words a v hmem).trans (den_below (hK.2 _ hmem) hρ).symm
    z     := h.z
    rest  := h.rest }

/-! ## One instruction -/

theorem Holds.setReg (h : Holds W p ρ d K s) {r : Reg} {v : Option Val} {x : UInt32}
    (hx : ∀ w, v = some w → x = w.den p ρ) : Holds W p ρ d (K.setReg r v) (s.set r x) where
  pc := h.pc
  regs := by
    intro r' w hmem
    rcases List.mem_append.mp hmem with hnew | hold
    · obtain ⟨w', hw', heq⟩ := List.mem_map.mp hnew
      cases heq
      show Function.update s.regs r x r = _
      rw [Function.update_self]
      exact hx w (Option.mem_toList.mp hw')
    · obtain ⟨hin, hne⟩ := List.mem_filter.mp hold
      have hne' : r' ≠ r := by simpa using hne
      show Function.update s.regs r x r' = _
      rw [Function.update_of_ne hne']
      exact h.regs r' w hin
  words := h.words
  z := h.z
  rest := h.rest

theorem Holds.store (h : Holds W p ρ d K s) {a : UInt32} {v : Option Val} {x : UInt32}
    (hcov : W.covers a = true) (hx : ∀ w, v = some w → x = w.den p ρ) :
    Holds W p ρ d (K.setWord a v) { s with mem := bus.store s.mem a x } where
  pc := h.pc
  regs := h.regs
  words := by
    intro b w hmem
    show (W.mem (bus.store s.mem a x)).word b = _
    rw [W.store_mem hcov]
    rcases List.mem_append.mp hmem with hnew | hold
    · obtain ⟨w', hw', heq⟩ := List.mem_map.mp hnew
      cases heq
      rw [Mem.word_setWord_same]
      exact hx w (Option.mem_toList.mp hw')
    · obtain ⟨hin, hapart⟩ := List.mem_filter.mp hold
      have hdis : b.toNat + 4 ≤ a.toNat ∨ a.toNat + 4 ≤ b.toNat := by simpa [apart] using hapart
      rw [Mem.word_setWord_ne hdis]
      exact h.words b w hin
  z := h.z
  rest := (W.store_rest hcov).trans h.rest

theorem Holds.setPc (h : Holds W p ρ d K s) (k : Nat) : Holds W p ρ d { K with pc := k } { s with pc := k } where
  pc := rfl
  regs := h.regs
  words := h.words
  z := h.z
  rest := h.rest

theorem Holds.load (h : Holds W p ρ d K s) {rd : Reg} {a : UInt32} (hcov : W.covers a = true) :
    Holds W p ρ d (K.setReg rd (K.word a)) ({ s with mem := (bus.load s.mem a).1 }.set rd (bus.load s.mem a).2) := by
  rw [W.load hcov]
  exact h.setReg (fun w hw => h.word hw)

/-- The flags of a comparison. -/
theorem Holds.cmp (h : Holds W p ρ d K s) {a b : UInt32} {z : Option Bool}
    (hz : ∀ c, z = some c → decide (a - b = 0) = c) : Holds W p ρ d { K with z := z } (s.setSubFlags a b) where
  pc := h.pc
  regs := h.regs
  words := h.words
  z := hz
  rest := h.rest

/-- **One instruction that goes on** keeps what is known. -/
theorem Holds.effect (h : Holds W p ρ d K s) {o : Op} (ho : K.effect W.covers o = some K') :
    Holds W p ρ d K' (Arm.effect bus s o) := by
  cases o with
  | lit rd v =>
    cases ho
    exact h.setReg (fun w hw => by cases hw; rfl)
  | mov rd op =>
    cases ho
    exact h.setReg (fun w hw => h.eval hw)
  | add rd rn op =>
    simp only [Known.effect] at ho
    split at ho
    · next a b ha hb =>
      cases ho
      refine h.setReg (fun w hw => ?_)
      cases hw
      rw [h.reg ha, h.eval hb]
      rfl
    · cases ho
      exact h.setReg (fun w hw => by cases hw)
  | cmp rn op =>
    simp only [Known.effect] at ho
    split at ho
    · next a b ha hb =>
      cases ho
      refine h.cmp (fun c hc => ?_)
      rw [h.reg ha, h.eval hb]
      exact Option.some.inj hc
    · cases ho
      exact h.cmp (fun c hc => by cases hc)
  | ldr rd rn off =>
    simp only [Known.effect] at ho
    split at ho
    · next a ha =>
      split at ho
      · next hcov =>
        cases ho
        have heff : Arm.effect bus s (.ldr rd rn off)
            = { s with mem := (bus.load s.mem a).1 }.set rd (bus.load s.mem a).2 := by
          rw [← h.addr ha]
          rfl
        rw [heff]
        exact h.load hcov
      · cases ho
    · cases ho
  | str rd rn off =>
    simp only [Known.effect] at ho
    split at ho
    · next a ha =>
      split at ho
      · next hcov =>
        cases ho
        have heff : Arm.effect bus s (.str rd rn off) = { s with mem := bus.store s.mem a (s.regs rd) } := by
          rw [← h.addr ha]
          rfl
        rw [heff]
        exact h.store hcov (fun w hw => h.reg hw)
      · cases ho
    · cases ho
  | _ => cases ho

variable [DecidableEq ℓ]

/-- **One instruction** keeps what is known. -/
theorem Holds.step (h : Holds W p ρ d K s) (hK : K.step p W.covers = some K') :
    Holds W p ρ d K' (Arm.step p bus s) := by
  unfold Known.step at hK
  have hpc := h.pc
  split at hK
  · next o hcode =>
    obtain ⟨K₁, hK₁, rfl⟩ := Option.map_eq_some_iff.mp hK
    rw [← hpc] at hcode ⊢
    rw [step_of_code hcode]
    exact (h.effect hK₁).setPc _
  · next l hcode =>
    cases hK
    rw [← hpc] at hcode
    rw [step_b hcode]
    exact h.setPc _
  · next l hcode =>
    obtain ⟨z, hz, rfl⟩ := Option.map_eq_some_iff.mp hK
    rw [← hpc] at hcode ⊢
    have hcond : s.holds .eq = z := h.z z hz
    rw [step_b hcode, hcond]
    exact h.setPc _
  · next l hcode =>
    obtain ⟨z, hz, rfl⟩ := Option.map_eq_some_iff.mp hK
    rw [← hpc] at hcode ⊢
    have hcond : s.holds .ne = !z := congrArg Bool.not (h.z z hz)
    rw [step_b hcode, hcond]
    cases z
    · exact h.setPc (p.target l)
    · exact h.setPc (s.pc + 1)
  · next l hcode =>
    cases hK
    rw [← hpc] at hcode ⊢
    rw [step_bl hcode]
    exact (h.setReg (fun w hw => by cases hw; rfl)).setPc _
  · next rm hcode =>
    split at hK
    · next k hk =>
      split at hK
      · next hlt =>
        cases hK
        rw [← hpc] at hcode
        rw [step_bx hcode (h.reg hk) hlt]
        exact h.setPc _
      · cases hK
    · cases hK
  · cases hK

/-! ## A run -/

/-- **What an evaluated path is worth.** If the path evaluates, every state of which the knowledge holds takes it,
    through states in which what `ok` stands for holds, to a state of which the resulting knowledge holds. -/
theorem Holds.run {Q : State μ → Prop} {ok : Known → Bool}
    (hok : ∀ (K : Known) (s : State μ), ok K = true → Holds W p ρ d K s → Q s) (n : Nat) :
    ∀ {K K' : Known} {s : State μ}, Holds W p ρ d K s → K.run p W.covers ok n = some K' →
      ∃ t, Runs (Arm.step p bus) Q n s t ∧ Holds W p ρ d K' t := by
  induction n with
  | zero =>
    intro K K' s h hrun
    cases hrun
    exact ⟨s, .refl s, h⟩
  | succ n ih =>
    intro K K' s h hrun
    rw [Known.run] at hrun
    split at hrun
    · next hK =>
      obtain ⟨K₁, hK₁, hrest⟩ := Option.bind_eq_some_iff.mp hrun
      obtain ⟨t, hruns, ht⟩ := ih (h.step hK₁) hrest
      exact ⟨t, .head (hok K s hK h) hruns, ht⟩
    · cases hrun

/-- The same without a condition on the way. -/
theorem Holds.reaches (h : Holds W p ρ d K s) {n : Nat} (hrun : K.run p W.covers (fun _ => true) n = some K') :
    ∃ t, Reaches (Arm.step p bus) s t ∧ Holds W p ρ d K' t := by
  obtain ⟨t, hruns, ht⟩ := h.run (fun _ _ _ _ => trivial) n hrun
  exact ⟨t, ⟨n, hruns⟩, ht⟩

end Soundness

end Known

end Arm

end Basis
