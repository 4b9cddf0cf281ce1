import GekkoPak.Basis.Bytes
import GekkoPak.Basis.Steps
import Mathlib.Logic.Function.Basic

/-!
# `Basis.Arm` — a small ARM

The A32 instructions that freestanding hand-written code gets by with, over any bus: what a load or a store does is
the bus's business, so the same program runs on plain memory and on device registers. A program is its listing, with
labels of any type; `Program.code` and `Program.target` are what an assembler makes of it. The flags are the three
the conditions `eq`, `ne` and `lt` look at.

`runs_block` executes a stretch of straight-line code at once; control transfers are one step lemma each.
-/

namespace Basis

namespace Arm

/-! ## Registers and instructions -/

/-- The general registers, with `r13` and `r14` under their own names; the program counter is not kept here. -/
inductive Reg
  | r0 | r1 | r2 | r3 | r4 | r5 | r6 | r7 | r8 | r9 | r10 | r11 | r12 | sp | lr
deriving DecidableEq, Repr

export Reg (r0 r1 r2 r3 r4 r5 r6 r7 r8 r9 r10 r11 r12 sp lr)

/-- The second operand of a data-processing instruction. -/
inductive Operand
  | imm (v : UInt32)
  | reg (r : Reg)
  | lsl (r : Reg) (n : UInt32)
deriving DecidableEq, Repr

/-- Instructions that go on to the next one. -/
inductive Op
  /-- `ldr rd, =v`. -/
  | lit (rd : Reg) (v : UInt32)
  | mov (rd : Reg) (op : Operand)
  | add (rd rn : Reg) (op : Operand)
  | subs (rd rn : Reg) (op : Operand)
  | and (rd rn : Reg) (op : Operand)
  | orr (rd rn : Reg) (op : Operand)
  | rev (rd rm : Reg)
  | cmp (rn : Reg) (op : Operand)
  | tst (rn : Reg) (op : Operand)
  /-- `ldr rd, [rn, #off]`. -/
  | ldr (rd rn : Reg) (off : UInt32)
  /-- `ldr rd, [rn], #inc`. -/
  | ldrPost (rd rn : Reg) (inc : UInt32)
  | ldrh (rd rn : Reg) (off : UInt32)
  | str (rd rn : Reg) (off : UInt32)
  | strPost (rd rn : Reg) (inc : UInt32)
  | push (rs : List Reg)
  | pop (rs : List Reg)
deriving DecidableEq, Repr

/-- Condition codes. -/
inductive Cond
  | al
  | eq
  | ne
  | lt
deriving DecidableEq, Repr

/-- Instructions, with branches to labels of type `ℓ`. -/
inductive Instr (ℓ : Type)
  | op (o : Op)
  | b (c : Cond) (l : ℓ)
  | bl (l : ℓ)
  | bx (rm : Reg)
  /-- `pop {rs, pc}`. -/
  | popPc (rs : List Reg)
deriving DecidableEq, Repr

/-- The registers an instruction writes. -/
def Op.dst : Op → List Reg
  | .lit rd _ | .mov rd _ | .add rd _ _ | .subs rd _ _ | .and rd _ _ | .orr rd _ _ | .rev rd _ => [rd]
  | .ldr rd _ _ | .ldrh rd _ _   => [rd]
  | .ldrPost rd rn _             => [rd, rn]
  | .strPost _ rn _              => [rn]
  | .cmp _ _ | .tst _ _ | .str _ _ _ => []
  | .push _                      => [sp]
  | .pop rs                      => sp :: rs

/-! ## Programs -/

/-- One line of a listing. -/
inductive Line (ℓ : Type)
  | label (l : ℓ)
  | instr (i : Instr ℓ)
deriving DecidableEq, Repr

/-- The instruction on a line. -/
def Line.instr? {ℓ : Type} : Line ℓ → Option (Instr ℓ)
  | .label _ => none
  | .instr i => some i

/-- A listing, and the address its first instruction is put at. -/
structure Program (ℓ : Type) where
  lines : List (Line ℓ)
  base  : UInt32

namespace Program

variable {ℓ : Type}

/-- The instructions, in order. -/
def code (p : Program ℓ) : List (Instr ℓ) := p.lines.filterMap Line.instr?

/-- The number of the instruction after the label. -/
def target [DecidableEq ℓ] (p : Program ℓ) (l : ℓ) : Nat :=
  ((p.lines.takeWhile (fun line => line ≠ .label l)).filterMap Line.instr?).length

/-- The address of instruction `k`. -/
def addr (p : Program ℓ) (k : Nat) : UInt32 := p.base + 4 * UInt32.ofNat k

/-- The number of the instruction at an address. -/
def index (p : Program ℓ) (a : UInt32) : Nat := ((a - p.base) / 4).toNat

/-- An address names its instruction. -/
theorem index_addr (p : Program ℓ) {k : Nat} (hk : k < 2 ^ 30) : p.index (p.addr k) = k := by
  have hword : (UInt32.ofNat k).toNat = k := UInt32.toNat_ofNat_of_lt' (by rw [UInt32.size]; omega)
  have hfour : (4 : UInt32).toNat = 4 := rfl
  unfold index addr
  rw [UInt32.add_comm, UInt32.add_sub_cancel, UInt32.toNat_div, UInt32.toNat_mul, hword, hfour]
  omega

/-- The instructions `is` stand in the program from number `k` on. -/
def Embeds (p : Program ℓ) (k : Nat) (is : List (Instr ℓ)) : Prop := is <+: p.code.drop k

instance [DecidableEq ℓ] (p : Program ℓ) (k : Nat) (is : List (Instr ℓ)) : Decidable (p.Embeds k is) :=
  inferInstanceAs (Decidable (_ <+: _))

theorem Embeds.head {p : Program ℓ} {k : Nat} {i : Instr ℓ} {is : List (Instr ℓ)} (h : p.Embeds k (i :: is)) :
    p.code[k]? = some i := by
  obtain ⟨rest, hrest⟩ := h
  have hget := congrArg (·[0]?) hrest
  simp only [List.cons_append, List.getElem?_cons_zero, List.getElem?_drop, Nat.add_zero] at hget
  exact hget.symm

theorem Embeds.tail {p : Program ℓ} {k : Nat} {i : Instr ℓ} {is : List (Instr ℓ)} (h : p.Embeds k (i :: is)) :
    p.Embeds (k + 1) is := by
  obtain ⟨rest, hrest⟩ := h
  refine ⟨rest, ?_⟩
  rw [← List.drop_drop, ← hrest]
  rfl

/-- Two stretches of code, one after the other. -/
theorem Embeds.split {p : Program ℓ} {k : Nat} {is js : List (Instr ℓ)} (h : p.Embeds k (is ++ js)) :
    p.Embeds k is ∧ p.Embeds (k + is.length) js := by
  obtain ⟨rest, hrest⟩ := h
  refine ⟨⟨js ++ rest, by rw [← hrest, List.append_assoc]⟩, rest, ?_⟩
  rw [← List.drop_drop, ← hrest, List.append_assoc, List.drop_left]

end Program

/-! ## State and bus -/

/-- What loads and stores do. -/
structure Bus (μ : Type) where
  load     : μ → UInt32 → μ × UInt32
  loadHalf : μ → UInt32 → μ × UInt32
  store    : μ → UInt32 → UInt32 → μ

/-- The processor and what is on the bus; `pc` is the number of the next instruction. -/
structure State (μ : Type) where
  regs : Reg → UInt32
  n    : Bool
  z    : Bool
  v    : Bool
  pc   : Nat
  mem  : μ

namespace State

variable {μ : Type}

/-- `r := v`. -/
def set (s : State μ) (r : Reg) (v : UInt32) : State μ := { s with regs := Function.update s.regs r v }

@[simp] theorem set_regs_same (s : State μ) (r : Reg) (v : UInt32) : (s.set r v).regs r = v := by
  show Function.update s.regs r v r = v
  rw [Function.update_self]

theorem set_regs_ne (s : State μ) {r r' : Reg} (v : UInt32) (h : r' ≠ r) : (s.set r v).regs r' = s.regs r' := by
  show Function.update s.regs r v r' = s.regs r'
  rw [Function.update_of_ne h]

@[simp] theorem set_mem (s : State μ) (r : Reg) (v : UInt32) : (s.set r v).mem = s.mem := rfl

@[simp] theorem set_z (s : State μ) (r : Reg) (v : UInt32) : (s.set r v).z = s.z := rfl

@[simp] theorem set_pc (s : State μ) (r : Reg) (v : UInt32) : (s.set r v).pc = s.pc := rfl

/-- The value of an operand. -/
def eval (s : State μ) : Operand → UInt32
  | .imm v   => v
  | .reg r   => s.regs r
  | .lsl r n => s.regs r <<< n

/-- The flags of `a - b`. -/
def setSubFlags (s : State μ) (a b : UInt32) : State μ :=
  { s with
    n := decide ((a - b) &&& 0x80000000 ≠ 0)
    z := decide (a - b = 0)
    v := decide (((a ^^^ b) &&& (a ^^^ (a - b))) &&& 0x80000000 ≠ 0) }

@[simp] theorem setSubFlags_regs (s : State μ) (a b : UInt32) : (s.setSubFlags a b).regs = s.regs := rfl

@[simp] theorem setSubFlags_mem (s : State μ) (a b : UInt32) : (s.setSubFlags a b).mem = s.mem := rfl

@[simp] theorem setSubFlags_z (s : State μ) (a b : UInt32) : (s.setSubFlags a b).z = decide (a - b = 0) := rfl

/-- Does the condition hold? -/
def holds (s : State μ) : Cond → Bool
  | .al => true
  | .eq => s.z
  | .ne => !s.z
  | .lt => s.n != s.v

/-- `push`: the registers go to ascending addresses below the old stack pointer. -/
def storeAll (bus : Bus μ) (regs : Reg → UInt32) : List Reg → UInt32 → μ → μ
  | [],      _, m => m
  | r :: rs, a, m => storeAll bus regs rs (a + 4) (bus.store m a (regs r))

/-- `pop`: the registers come from ascending addresses, from the stack pointer on. -/
def loadAll (bus : Bus μ) : List Reg → State μ → State μ
  | [],      s => s
  | r :: rs, s =>
    let (m, v) := bus.load s.mem (s.regs sp)
    loadAll bus rs (({ s with mem := m }.set sp (s.regs sp + 4)).set r v)

end State

section Semantics

variable {μ ℓ : Type}

/-- What an instruction does besides moving on. -/
def effect (bus : Bus μ) (s : State μ) : Op → State μ
  | .lit rd v       => s.set rd v
  | .mov rd op      => s.set rd (s.eval op)
  | .add rd rn op   => s.set rd (s.regs rn + s.eval op)
  | .subs rd rn op  => (s.setSubFlags (s.regs rn) (s.eval op)).set rd (s.regs rn - s.eval op)
  | .and rd rn op   => s.set rd (s.regs rn &&& s.eval op)
  | .orr rd rn op   => s.set rd (s.regs rn ||| s.eval op)
  | .rev rd rm      => s.set rd (UInt32.ofNat (byteSwap 4 (s.regs rm).toNat))
  | .cmp rn op      => s.setSubFlags (s.regs rn) (s.eval op)
  | .tst rn op      =>
    let x := s.regs rn &&& s.eval op
    { s with n := decide (x &&& 0x80000000 ≠ 0), z := decide (x = 0) }
  | .ldr rd rn off  =>
    let (m, v) := bus.load s.mem (s.regs rn + off)
    { s with mem := m }.set rd v
  | .ldrPost rd rn inc =>
    let (m, v) := bus.load s.mem (s.regs rn)
    ({ s with mem := m }.set rn (s.regs rn + inc)).set rd v
  | .ldrh rd rn off =>
    let (m, v) := bus.loadHalf s.mem (s.regs rn + off)
    { s with mem := m }.set rd v
  | .str rd rn off  => { s with mem := bus.store s.mem (s.regs rn + off) (s.regs rd) }
  | .strPost rd rn inc =>
    { s with mem := bus.store s.mem (s.regs rn) (s.regs rd) }.set rn (s.regs rn + inc)
  | .push rs        =>
    let low := s.regs sp - 4 * UInt32.ofNat rs.length
    { s with mem := State.storeAll bus s.regs rs low s.mem }.set sp low
  | .pop rs         => State.loadAll bus rs s

variable [DecidableEq ℓ]

/-- One instruction. -/
def exec (p : Program ℓ) (bus : Bus μ) (s : State μ) : Instr ℓ → State μ
  | .op o     => { effect bus s o with pc := s.pc + 1 }
  | .b c l    => { s with pc := if s.holds c then p.target l else s.pc + 1 }
  | .bl l     => { s.set lr (p.addr (s.pc + 1)) with pc := p.target l }
  | .bx rm    => { s with pc := p.index (s.regs rm) }
  | .popPc rs =>
    let s' := State.loadAll bus rs s
    let (m, v) := bus.load s'.mem (s'.regs sp)
    { ({ s' with mem := m }.set sp (s'.regs sp + 4)) with pc := p.index v }

/-- One step; past the last instruction the processor stands still. -/
def step (p : Program ℓ) (bus : Bus μ) (s : State μ) : State μ :=
  match p.code[s.pc]? with
  | some i => exec p bus s i
  | none   => s

/-! ## Executing code -/

variable {p : Program ℓ} {bus : Bus μ} {s : State μ}

theorem step_of_code {i : Instr ℓ} (h : p.code[s.pc]? = some i) : step p bus s = exec p bus s i := by
  simp only [step, h]

/-- What a stretch of straight-line code does. -/
def effects (bus : Bus μ) (s : State μ) (os : List Op) : State μ := os.foldl (effect bus) s

@[simp] theorem effects_nil (bus : Bus μ) (s : State μ) : effects bus s [] = s := rfl

@[simp] theorem effects_cons (bus : Bus μ) (s : State μ) (o : Op) (os : List Op) :
    effects bus s (o :: os) = effects bus (effect bus s o) os := rfl

/-- `q` holds of what is on the bus before each instruction of a straight stretch. -/
def Quiet (bus : Bus μ) (q : μ → Prop) : State μ → List Op → Prop
  | _, []      => True
  | s, o :: os => q s.mem ∧ Quiet bus q (effect bus s o) os

theorem Quiet.of_forall {q : μ → Prop} (hq : ∀ m, q m) : ∀ (os : List Op) (s : State μ), Quiet bus q s os := by
  intro os
  induction os with
  | nil => intro s; trivial
  | cons o os ih => intro s; exact ⟨hq _, ih _⟩

/-- An instruction does not look at the program counter. -/
theorem loadAll_setPc (bus : Bus μ) (k : Nat) (rs : List Reg) :
    ∀ s : State μ, State.loadAll bus rs { s with pc := k } = { State.loadAll bus rs s with pc := k } := by
  induction rs with
  | nil => intro s; rfl
  | cons r rs ih =>
    intro s
    exact ih (({ s with mem := (bus.load s.mem (s.regs sp)).1 }.set sp (s.regs sp + 4)).set r
      (bus.load s.mem (s.regs sp)).2)

theorem effect_setPc (bus : Bus μ) (s : State μ) (k : Nat) (o : Op) :
    effect bus { s with pc := k } o = { effect bus s o with pc := k } := by
  cases o with
  | mov rd op => cases op <;> rfl
  | add rd rn op => cases op <;> rfl
  | subs rd rn op => cases op <;> rfl
  | and rd rn op => cases op <;> rfl
  | orr rd rn op => cases op <;> rfl
  | cmp rn op => cases op <;> rfl
  | tst rn op => cases op <;> rfl
  | pop rs => exact loadAll_setPc bus k rs s
  | _ => rfl

theorem effects_setPc (bus : Bus μ) (k : Nat) (os : List Op) :
    ∀ s : State μ, effects bus { s with pc := k } os = { effects bus s os with pc := k } := by
  induction os with
  | nil => intro s; rfl
  | cons o os ih =>
    intro s
    rw [effects_cons, effects_cons, effect_setPc, ih]

/-- The other registers stay. -/
theorem loadAll_regs_ne (rs : List Reg) : ∀ (s : State μ) {r : Reg}, r ∉ sp :: rs →
    (State.loadAll bus rs s).regs r = s.regs r := by
  induction rs with
  | nil => intro s r _; rfl
  | cons r₀ rs ih =>
    intro s r hr
    simp only [List.mem_cons, not_or] at hr
    obtain ⟨hsp, h₀, hrs⟩ := hr
    refine (ih _ (by simpa using ⟨hsp, hrs⟩)).trans ?_
    exact (State.set_regs_ne _ _ h₀).trans (State.set_regs_ne _ _ hsp)

theorem effect_regs_ne (s : State μ) {o : Op} {r : Reg} (h : r ∉ o.dst) : (effect bus s o).regs r = s.regs r := by
  cases o with
  | cmp | tst | str => rfl
  | pop rs => exact loadAll_regs_ne rs s h
  | ldrPost rd rn inc =>
    simp only [Op.dst, List.mem_cons, List.not_mem_nil, or_false, not_or] at h
    exact (State.set_regs_ne _ _ h.1).trans (State.set_regs_ne _ _ h.2)
  | _ => exact State.set_regs_ne _ _ (by simpa [Op.dst] using h)

theorem effects_regs_ne (os : List Op) : ∀ (s : State μ) {r : Reg}, r ∉ os.flatMap Op.dst →
    (effects bus s os).regs r = s.regs r := by
  induction os with
  | nil => intro s r _; rfl
  | cons o os ih =>
    intro s r hr
    rw [List.flatMap_cons, List.mem_append, not_or] at hr
    rw [effects_cons, ih _ hr.2, effect_regs_ne s hr.1]

theorem Quiet.setPc {q : μ → Prop} (k : Nat) (os : List Op) :
    ∀ s : State μ, Quiet bus q s os → Quiet bus q { s with pc := k } os := by
  induction os with
  | nil => intro s _; trivial
  | cons o os ih =>
    intro s h
    refine ⟨h.1, ?_⟩
    rw [effect_setPc]
    exact ih _ h.2

/-- **Straight-line code.** A stretch that stands at the program counter runs to its end. -/
theorem runs_block {q : μ → Prop} (os : List Op) : ∀ s : State μ, p.Embeds s.pc (os.map .op) →
    Quiet bus q s os →
    Runs (step p bus) (fun s => q s.mem) os.length s { effects bus s os with pc := s.pc + os.length } := by
  induction os with
  | nil => intro s _ _; exact .refl s
  | cons o os ih =>
    intro s hcode hquiet
    have hstep : step p bus s = { effect bus s o with pc := s.pc + 1 } := step_of_code hcode.head
    refine .head hquiet.1 ?_
    rw [hstep]
    have hrest := ih { effect bus s o with pc := s.pc + 1 } hcode.tail (Quiet.setPc _ os _ hquiet.2)
    rw [effects_setPc] at hrest
    have hlen : s.pc + 1 + os.length = s.pc + (o :: os).length := by rw [List.length_cons]; omega
    rw [← hlen]
    exact hrest

/-- A stretch of straight-line code leads to its end. -/
theorem reaches_block (os : List Op) (s : State μ) (h : p.Embeds s.pc (os.map .op)) :
    Reaches (step p bus) s { effects bus s os with pc := s.pc + os.length } :=
  ⟨os.length, runs_block os s h (Quiet.of_forall (fun _ => trivial) os s)⟩

/-- A branch. -/
theorem step_b {c : Cond} {l : ℓ} (h : p.code[s.pc]? = some (.b c l)) :
    step p bus s = { s with pc := if s.holds c then p.target l else s.pc + 1 } := step_of_code h

/-- A call. -/
theorem step_bl {l : ℓ} (h : p.code[s.pc]? = some (.bl l)) :
    step p bus s = { s.set lr (p.addr (s.pc + 1)) with pc := p.target l } := step_of_code h

/-- A return to the instruction `k`. -/
theorem step_bx {rm : Reg} {k : Nat} (h : p.code[s.pc]? = some (.bx rm)) (hret : s.regs rm = p.addr k)
    (hk : k < 2 ^ 30) : step p bus s = { s with pc := k } := by
  rw [step_of_code h, exec, hret, p.index_addr hk]

/-! ### A stretch of code and the transfer at its end -/

/-- Up to a branch. -/
theorem reaches_b {c : Cond} {l : ℓ} (os : List Op) (s : State μ) (h : p.Embeds s.pc (os.map .op ++ [.b c l])) :
    Reaches (step p bus) s { effects bus s os with
      pc := if (effects bus s os).holds c then p.target l else s.pc + os.length + 1 } := by
  obtain ⟨hblock, hbranch⟩ := h.split
  rw [List.length_map] at hbranch
  have hstep := @step_b μ ℓ _ p bus { effects bus s os with pc := s.pc + os.length } c l hbranch.head
  exact (reaches_block os s hblock).trans (.step hstep)

/-- Up to a call. -/
theorem reaches_bl {l : ℓ} (os : List Op) (s : State μ) (h : p.Embeds s.pc (os.map .op ++ [.bl l])) :
    Reaches (step p bus) s { (effects bus s os).set lr (p.addr (s.pc + os.length + 1)) with pc := p.target l } := by
  obtain ⟨hblock, hcall⟩ := h.split
  rw [List.length_map] at hcall
  have hstep := @step_bl μ ℓ _ p bus { effects bus s os with pc := s.pc + os.length } l hcall.head
  exact (reaches_block os s hblock).trans (.step hstep)

/-- Up to a return to the instruction `k`. -/
theorem reaches_bx {rm : Reg} {k : Nat} (os : List Op) (s : State μ) (h : p.Embeds s.pc (os.map .op ++ [.bx rm]))
    (hret : (effects bus s os).regs rm = p.addr k) (hk : k < 2 ^ 30) :
    Reaches (step p bus) s { effects bus s os with pc := k } := by
  obtain ⟨hblock, hreturn⟩ := h.split
  rw [List.length_map] at hreturn
  have hstep := @step_bx μ ℓ _ p bus { effects bus s os with pc := s.pc + os.length } rm k hreturn.head hret hk
  exact (reaches_block os s hblock).trans (.step hstep)

end Semantics

/-! ## Writing programs down -/

section Assembly

variable {ℓ : Type}

def label (l : ℓ) : Line ℓ := .label l
def lit (rd : Reg) (v : UInt32) : Line ℓ := .instr (.op (.lit rd v))
def mov (rd : Reg) (v : UInt32) : Line ℓ := .instr (.op (.mov rd (.imm v)))
def movr (rd rm : Reg) : Line ℓ := .instr (.op (.mov rd (.reg rm)))
def add (rd rn : Reg) (v : UInt32) : Line ℓ := .instr (.op (.add rd rn (.imm v)))
def subs (rd rn : Reg) (v : UInt32) : Line ℓ := .instr (.op (.subs rd rn (.imm v)))
def andImm (rd rn : Reg) (v : UInt32) : Line ℓ := .instr (.op (.and rd rn (.imm v)))
def orr (rd rn : Reg) (op : Operand) : Line ℓ := .instr (.op (.orr rd rn op))
def rev (rd rm : Reg) : Line ℓ := .instr (.op (.rev rd rm))
def cmp (rn : Reg) (op : Operand) : Line ℓ := .instr (.op (.cmp rn op))
def tst (rn : Reg) (v : UInt32) : Line ℓ := .instr (.op (.tst rn (.imm v)))
def ldr (rd rn : Reg) (off : UInt32) : Line ℓ := .instr (.op (.ldr rd rn off))
def ldrPost (rd rn : Reg) (inc : UInt32) : Line ℓ := .instr (.op (.ldrPost rd rn inc))
def ldrh (rd rn : Reg) (off : UInt32) : Line ℓ := .instr (.op (.ldrh rd rn off))
def str (rd rn : Reg) (off : UInt32) : Line ℓ := .instr (.op (.str rd rn off))
def strPost (rd rn : Reg) (inc : UInt32) : Line ℓ := .instr (.op (.strPost rd rn inc))
def push (rs : List Reg) : Line ℓ := .instr (.op (.push rs))
def popPc (rs : List Reg) : Line ℓ := .instr (.popPc rs)
def b (l : ℓ) : Line ℓ := .instr (.b .al l)
def bEq (l : ℓ) : Line ℓ := .instr (.b .eq l)
def bNe (l : ℓ) : Line ℓ := .instr (.b .ne l)
def bLt (l : ℓ) : Line ℓ := .instr (.b .lt l)
def bl (l : ℓ) : Line ℓ := .instr (.bl l)
def bx (rm : Reg) : Line ℓ := .instr (.bx rm)

end Assembly

end Arm

end Basis
