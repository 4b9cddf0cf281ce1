import GekkoPak.Basis.Symbolic

/-!
# `Basis.Stack` — what a routine saves and restores

`push` and `pop` on the memory part of a bus. A routine that pushes registers, runs a body that keeps its stack frame,
and pops them again (the return address into the program counter) returns with those registers and the stack pointer as
they were: `push_leads` up to the body, `popPc_leads` from its end.
-/

namespace Basis

/-- Memory is the same outside `lo` .. `hi`. -/
def Mem.AgreesBut (lo hi : Nat) (m m' : Mem) : Prop := ∀ a, a < lo ∨ hi ≤ a → m' a = m a

namespace Mem.AgreesBut

variable {lo hi lo' hi' : Nat} {m m' m'' : Mem}

theorem refl (lo hi : Nat) (m : Mem) : AgreesBut lo hi m m := fun _ _ => rfl

theorem trans (h : AgreesBut lo hi m m') (h' : AgreesBut lo hi m' m'') : AgreesBut lo hi m m'' :=
  fun a ha => (h' a ha).trans (h a ha)

theorem mono (h : AgreesBut lo hi m m') (hlo : lo' ≤ lo) (hhi : hi ≤ hi') : AgreesBut lo' hi' m m' :=
  fun a ha => h a (by omega)

theorem read (h : AgreesBut lo hi m m') {a len : Nat} (ha : a + len ≤ lo ∨ hi ≤ a) : m'.read a len = m.read a len :=
  Mem.read_congr (fun b hb hb' => h b (by omega))

theorem write (m : Mem) {a : Nat} {bs : List UInt8} (hlo : lo ≤ a) (hhi : a + bs.length ≤ hi) :
    AgreesBut lo hi m (m.write a bs) :=
  fun b hb => Mem.write_of_outside (by omega)

/-- The same bytes written to both. -/
theorem write_both (h : AgreesBut lo hi m m') (a : Nat) (bs : List UInt8) :
    AgreesBut lo hi (m.write a bs) (m'.write a bs) := by
  intro b hb
  rw [write_apply, write_apply, h b hb]

end Mem.AgreesBut

namespace Arm

variable {μ δ ℓ : Type} {bus : Bus μ} {p : Program ℓ}

/-- The bytes of some words. -/
def wordBytes (vs : List UInt32) : List UInt8 := vs.flatMap (fun v => leBytes 4 v.toNat)

@[simp] theorem wordBytes_length (vs : List UInt32) : (wordBytes vs).length = 4 * vs.length := by
  induction vs with
  | nil => rfl
  | cons v vs ih =>
    rw [wordBytes, List.flatMap_cons, List.length_append, leBytes_length, List.length_cons, ← wordBytes, ih]
    omega

/-- The words that lie in memory from `a` on. -/
def Frame (m : Mem) (a : UInt32) (vs : List UInt32) : Prop := m.read a.toNat (4 * vs.length) = wordBytes vs

theorem toNat_four_mul {n : Nat} (h : 4 * n < 2 ^ 32) : (4 * UInt32.ofNat n).toNat = 4 * n := by
  have hword : (UInt32.ofNat n).toNat = n := UInt32.toNat_ofNat_of_lt' (by rw [UInt32.size]; omega)
  rw [UInt32.toNat_mul, hword, show (4 : UInt32).toNat = 4 from rfl, Nat.mod_eq_of_lt (by omega)]

/-- The address `n` words up. -/
theorem toNat_up {a : UInt32} {n : Nat} (h : a.toNat + 4 * n < 2 ^ 32) : (a + 4 * UInt32.ofNat n).toNat = a.toNat + 4 * n := by
  rw [UInt32.toNat_add, toNat_four_mul (by omega), Nat.mod_eq_of_lt h]

/-- The address `n` words down. -/
theorem toNat_down {a : UInt32} {n : Nat} (h : 4 * n ≤ a.toNat) : (a - 4 * UInt32.ofNat n).toNat = a.toNat - 4 * n := by
  have hlt : a.toNat < 2 ^ 32 := a.toNat_lt
  have hn : (4 * UInt32.ofNat n).toNat = 4 * n := toNat_four_mul (by omega)
  rw [UInt32.toNat_sub_of_le _ _ (UInt32.le_iff_toNat_le.mpr (by rwa [hn])), hn]

theorem toNat_add_four {a : UInt32} (h : a.toNat + 4 < 2 ^ 32) : (a + 4).toNat = a.toNat + 4 :=
  toNat_up (n := 1) h

/-- A frame in two parts. -/
theorem Frame.append {m : Mem} {vs ws : List UInt32} {a : UInt32} (h : Frame m a (vs ++ ws))
    (hfit : a.toNat + 4 * vs.length < 2 ^ 32) : Frame m a vs ∧ Frame m (a + 4 * UInt32.ofNat vs.length) ws := by
  have hlen : 4 * (vs ++ ws).length = 4 * vs.length + 4 * ws.length := by rw [List.length_append, Nat.mul_add]
  rw [Frame, hlen, Mem.read_add, wordBytes, List.flatMap_append] at h
  obtain ⟨hfirst, hrest⟩ := List.append_inj h (by rw [Mem.read_length, ← wordBytes, wordBytes_length])
  exact ⟨hfirst, by rw [Frame, toNat_up hfit]; exact hrest⟩

theorem Frame.word {m : Mem} {a v : UInt32} (h : Frame m a [v]) : m.word a = v := by
  have hread : m.read a.toNat 4 = leBytes 4 v.toNat := by
    rw [Frame, wordBytes, List.flatMap_singleton] at h
    exact h
  rw [Mem.word, hread, leNat_leBytes v.toNat_lt, UInt32.ofNat_toNat]

/-- The first word of a frame, and the rest. -/
theorem Frame.cons {m : Mem} {a v : UInt32} {vs : List UInt32} (h : Frame m a (v :: vs)) (hfit : a.toNat + 4 < 2 ^ 32) :
    m.word a = v ∧ Frame m (a + 4) vs := by
  obtain ⟨hfirst, hrest⟩ := @Frame.append m [v] vs a h hfit
  exact ⟨hfirst.word, hrest⟩

/-- A frame, word by word. -/
theorem frame_of_words {m : Mem} : ∀ {vs : List UInt32} {a : UInt32}, a.toNat + 4 * vs.length < 2 ^ 32 →
    (∀ i, (hi : i < vs.length) → m.word (a + 4 * UInt32.ofNat i) = vs[i]) → Frame m a vs
  | [], _, _, _ => rfl
  | v :: vs, a, hfit, hwords => by
    rw [List.length_cons] at hfit
    have hnext : (a + 4).toNat = a.toNat + 4 := toNat_add_four (by omega)
    have hhead : m.word a = v := by
      have h0 := hwords 0 (Nat.succ_pos _)
      rwa [show a + 4 * UInt32.ofNat 0 = a from UInt32.add_zero a] at h0
    have htail : Frame m (a + 4) vs := by
      refine frame_of_words (by omega) (fun i hi => ?_)
      rw [← List.getElem_cons_succ v vs i (Nat.succ_lt_succ hi), ← hwords (i + 1) (Nat.succ_lt_succ hi), UInt32.ofNat_add,
        UInt32.mul_add, UInt32.add_assoc, UInt32.add_comm 4]
      rfl
    have hlen : 4 * (v :: vs).length = 4 + 4 * vs.length := by rw [List.length_cons]; omega
    rw [Frame, hlen, Mem.read_add, ← Mem.leBytes_word, hhead, ← hnext, htail]
    rfl

/-- A frame that is not written to stays. -/
theorem Frame.agrees {m m' : Mem} {a : UInt32} {vs : List UInt32} {lo hi : Nat} (h : Frame m a vs)
    (hm : m.AgreesBut lo hi m') (ha : a.toNat + 4 * vs.length ≤ lo ∨ hi ≤ a.toNat) : Frame m' a vs :=
  (hm.read ha).trans h

section Stack

variable (W : Window bus δ)

/-- The bus has memory from `a` on, `len` bytes of it. -/
def Window.Covers (a : UInt32) (len : Nat) : Prop :=
  a.toNat + len < 2 ^ 32 ∧ ∀ b : UInt32, a.toNat ≤ b.toNat → b.toNat < a.toNat + len → W.covers b = true

variable {W}

theorem Window.Covers.mono {a : UInt32} {len len' : Nat} (h : W.Covers a len) (hle : len' ≤ len) : W.Covers a len' :=
  ⟨by have := h.1; omega, fun b hlo hhi => h.2 b hlo (by omega)⟩

theorem Window.Covers.head {a : UInt32} {len : Nat} (h : W.Covers a (4 * (len + 1))) :
    W.covers a = true ∧ (a + 4).toNat = a.toNat + 4 ∧ W.Covers (a + 4) (4 * len) := by
  have hfit := h.1
  have hnext : (a + 4).toNat = a.toNat + 4 := toNat_add_four (by omega)
  refine ⟨h.2 a (Nat.le_refl _) (by omega), hnext, ?_, ?_⟩
  · omega
  · intro b hb hb'
    exact h.2 b (by omega) (by omega)

/-- What `push` stores. -/
theorem storeAll_window (regs : Reg → UInt32) (rs : List Reg) : ∀ (a : UInt32) (m : μ), W.Covers a (4 * rs.length) →
    W.mem (State.storeAll bus regs rs a m) = (W.mem m).write a.toNat (wordBytes (rs.map regs)) ∧
      W.rest (State.storeAll bus regs rs a m) = W.rest m := by
  induction rs with
  | nil => intro a m _; exact ⟨(Mem.write_nil _ _).symm, rfl⟩
  | cons r rs ih =>
    intro a m hcov
    obtain ⟨hhere, hnext, hrest⟩ := hcov.head
    obtain ⟨hmem, hdev⟩ := ih (a + 4) (bus.store m a (regs r)) hrest
    refine ⟨?_, hdev.trans (W.store_rest hhere)⟩
    rw [State.storeAll, hmem, W.store_mem hhere, Mem.setWord, hnext]
    have happend := Mem.write_write_append (W.mem m) a.toNat (leBytes 4 (regs r).toNat) (wordBytes (rs.map regs))
    rw [leBytes_length] at happend
    exact happend

/-- What `pop` loads. -/
theorem loadAll_window (f : Reg → UInt32) (rs : List Reg) : ∀ s : State μ, rs.Nodup → sp ∉ rs →
    W.Covers (s.regs sp) (4 * rs.length) → Frame (W.mem s.mem) (s.regs sp) (rs.map f) →
    (State.loadAll bus rs s).mem = s.mem ∧ (State.loadAll bus rs s).regs sp = s.regs sp + 4 * UInt32.ofNat rs.length ∧
      (∀ r ∈ rs, (State.loadAll bus rs s).regs r = f r) ∧
      (∀ r, r ≠ sp → r ∉ rs → (State.loadAll bus rs s).regs r = s.regs r) := by
  induction rs with
  | nil =>
    intro s _ _ _ _
    exact ⟨rfl, (UInt32.add_zero _).symm, fun r hr => absurd hr List.not_mem_nil, fun r _ _ => rfl⟩
  | cons r rs ih =>
    intro s hnodup hsp hcov hframe
    obtain ⟨hr, hnodup'⟩ := List.nodup_cons.mp hnodup
    obtain ⟨hrsp, hsp'⟩ := not_or.mp (fun h => hsp (List.mem_cons.mpr h))
    obtain ⟨hhere, hnext, hrest⟩ := hcov.head
    obtain ⟨hword, htail⟩ := hframe.cons (by have := hcov.1; rw [List.length_cons] at this; omega)
    have hload : bus.load s.mem (s.regs sp) = (s.mem, f r) := by rw [W.load hhere, hword]
    have hone : State.loadAll bus (r :: rs) s = State.loadAll bus rs ((s.set sp (s.regs sp + 4)).set r (f r)) := by
      rw [State.loadAll, hload]
    have hspnow : ((s.set sp (s.regs sp + 4)).set r (f r)).regs sp = s.regs sp + 4 := by
      rw [State.set_regs_ne _ _ hrsp, State.set_regs_same]
    obtain ⟨hmem, hsp₁, hin, hout⟩ := ih ((s.set sp (s.regs sp + 4)).set r (f r)) hnodup' hsp' (by rwa [hspnow])
      (by rwa [hspnow])
    rw [hone]
    refine ⟨hmem, ?_, ?_, ?_⟩
    · rw [hsp₁, hspnow, List.length_cons, UInt32.add_assoc]
      congr 1
      rw [UInt32.ofNat_add, UInt32.mul_add, UInt32.add_comm]
      rfl
    · intro r' hr'
      rcases List.mem_cons.mp hr' with rfl | hmem'
      · rw [hout _ (Ne.symm hrsp) hr, State.set_regs_same]
      · exact hin r' hmem'
    · intro r' hne hr'
      obtain ⟨hne', hnot⟩ := not_or.mp (fun h => hr' (List.mem_cons.mpr h))
      rw [hout r' hne hnot, State.set_regs_ne _ _ hne', State.set_regs_ne _ _ hne]

/-! ### A routine's frame -/

/-- There are `n` bytes of memory below the stack pointer. -/
structure Window.Room (W : Window bus δ) (s : State μ) (n : Nat) : Prop where
  le     : n ≤ (s.regs sp).toNat
  covers : ∀ b : UInt32, (s.regs sp).toNat - n ≤ b.toNat → b.toNat < (s.regs sp).toNat → W.covers b = true

theorem Window.Room.zero (W : Window bus δ) (s : State μ) : W.Room s 0 where
  le := Nat.zero_le _
  covers b hlo hhi := by omega

theorem Window.Room.congr {s t : State μ} {n : Nat} (h : W.Room s n) (hsp : t.regs sp = s.regs sp) : W.Room t n where
  le := hsp ▸ h.le
  covers := hsp ▸ h.covers

theorem Window.Room.mono {s : State μ} {n n' : Nat} (h : W.Room s n) (hle : n' ≤ n) : W.Room s n' where
  le := hle.trans h.le
  covers b hlo hhi := h.covers b (by omega) hhi

/-- The words a routine that saves `rs` and the link register keeps on the stack. -/
def saved (rs : List Reg) (s : State μ) : List UInt32 := (rs ++ [lr]).map s.regs

@[simp] theorem saved_length (rs : List Reg) (s : State μ) : (saved rs s).length = rs.length + 1 := by
  rw [saved, List.length_map, List.length_append, List.length_singleton]

/-- `t` is `s` after its registers were saved. -/
structure Entered (W : Window bus δ) (rs : List Reg) (s t : State μ) : Prop where
  pc    : t.pc = s.pc + 1
  regs  : ∀ r, r ≠ sp → t.regs r = s.regs r
  sp    : (t.regs sp).toNat + 4 * (rs.length + 1) = (s.regs sp).toNat
  low   : t.regs Arm.sp = s.regs Arm.sp - 4 * UInt32.ofNat (rs.length + 1)
  frame : Frame (W.mem t.mem) (t.regs Arm.sp) (saved rs s)
  mem   : (W.mem s.mem).AgreesBut (t.regs Arm.sp).toNat (s.regs Arm.sp).toNat (W.mem t.mem)
  rest  : W.rest t.mem = W.rest s.mem

theorem Entered.room {rs : List Reg} {s t : State μ} (h : Entered W rs s t) (n : Nat)
    (hroom : W.Room s (4 * (rs.length + 1) + n)) : W.Room t n where
  le := by have := hroom.le; have := h.sp; omega
  covers b hlo hhi := hroom.covers b (by have := h.sp; omega) (by have := h.sp; omega)

/-- `u` is `t` after the registers saved in `s` were restored and the routine returned to `k`. -/
structure Restored (rs : List Reg) (s t u : State μ) (k : Nat) : Prop where
  pc    : u.pc = k
  sp    : u.regs sp = s.regs sp
  saved : ∀ r ∈ rs, u.regs r = s.regs r
  other : ∀ r, r ≠ Arm.sp → r ∉ rs → u.regs r = t.regs r
  mem   : u.mem = t.mem

variable [DecidableEq ℓ] {rs : List Reg} {s t : State μ} {k : Nat}

/-- **On entry** a routine saves its registers. -/
theorem enter (hcode : p.code[s.pc]? = some (.op (.push (rs ++ [lr])))) (hroom : W.Room s (4 * (rs.length + 1))) :
    ∃ t, Reaches (step p bus) s t ∧ Entered W rs s t := by
  have hlow : (s.regs sp - 4 * UInt32.ofNat (rs.length + 1)).toNat = (s.regs sp).toNat - 4 * (rs.length + 1) :=
    toNat_down hroom.le
  have hle := hroom.le
  have hlt := (s.regs sp).toNat_lt
  have hlen : (rs ++ [lr]).length = rs.length + 1 := by rw [List.length_append, List.length_singleton]
  have hcov : W.Covers (s.regs sp - 4 * UInt32.ofNat (rs.length + 1)) (4 * (rs ++ [lr]).length) := by
    rw [hlen]
    refine ⟨by rw [hlow]; omega, fun b hlo hhi => hroom.covers b ?_ ?_⟩ <;> omega
  obtain ⟨hmem, hrest⟩ := storeAll_window s.regs (rs ++ [lr]) _ s.mem hcov
  have hbytes : (wordBytes ((rs ++ [lr]).map s.regs)).length = 4 * (rs.length + 1) := by
    rw [wordBytes_length, List.length_map, hlen]
  have heffect : Arm.effect bus s (.push (rs ++ [lr]))
      = { s with mem := State.storeAll bus s.regs (rs ++ [lr]) (s.regs sp - 4 * UInt32.ofNat (rs.length + 1)) s.mem }.set
          sp (s.regs sp - 4 * UInt32.ofNat (rs.length + 1)) := by
    simp only [Arm.effect, hlen]
  refine ⟨_, .step (step_of_code hcode), ?_⟩
  rw [exec, heffect]
  refine {
    pc    := rfl
    regs  := fun r hr => State.set_regs_ne _ _ hr
    sp    := ?_
    low   := ?_
    frame := ?_
    mem   := ?_
    rest  := hrest } <;> simp only [State.set_regs_same, State.set_mem]
  · rw [hlow]; omega
  · rw [Frame, hmem, saved_length, ← hbytes]
    exact Mem.read_write_same _ _ _
  · rw [hmem]
    exact .write _ (Nat.le_refl _) (by rw [hbytes, hlow]; omega)

/-- **On return** a routine whose frame is as it was restores them. -/
theorem leave (hentered : Entered W rs s t) {u : State μ} (hcode : p.code[u.pc]? = some (.popPc rs))
    (hsp : u.regs sp = t.regs sp) (hframe : Frame (W.mem u.mem) (t.regs sp) (saved rs s)) (hroom : W.Room s (4 * (rs.length + 1)))
    (hnodup : rs.Nodup) (hnot : sp ∉ rs) (hret : s.regs lr = p.addr k) (hk : k < 2 ^ 30) :
    ∃ v, Reaches (step p bus) u v ∧ Restored rs s u v k := by
  have hle := hroom.le
  have hlt := (s.regs sp).toNat_lt
  have hlow := hentered.sp
  have hcov : W.Covers (u.regs sp) (4 * (rs.length + 1)) := by
    rw [hsp]
    exact ⟨by omega, fun b hlo hhi => hroom.covers b (by omega) (by omega)⟩
  rw [← hsp, saved, List.map_append] at hframe
  obtain ⟨hsaved, hlast⟩ := hframe.append (by rw [List.length_map, hsp]; omega)
  obtain ⟨hmem, hlink, hin, hout⟩ := loadAll_window s.regs rs u hnodup hnot (hcov.mono (by omega)) hsaved
  rw [List.length_map, ← hlink, ← hmem, List.map_singleton, hret] at hlast
  have hhere : W.covers ((State.loadAll bus rs u).regs sp) = true := by
    refine hcov.2 _ ?_ ?_ <;> rw [hlink, toNat_up (by rw [hsp]; omega)] <;> omega
  have hload := W.load hhere (m := (State.loadAll bus rs u).mem)
  rw [hlast.word] at hload
  refine ⟨_, .step (step_of_code hcode), ?_⟩
  rw [exec]
  simp only [hload, p.index_addr hk]
  have hne : ∀ r ∈ rs, r ≠ sp := fun r hr heq => hnot (heq.subst hr)
  refine {
    pc    := rfl
    sp    := ?_
    saved := fun r hr => (State.set_regs_ne _ _ (hne r hr)).trans (hin r hr)
    other := fun r hr hr' => (State.set_regs_ne _ _ hr).trans (hout r hr hr')
    mem   := hmem }
  refine (State.set_regs_same (State.loadAll bus rs u) sp ((State.loadAll bus rs u).regs sp + 4)).trans ?_
  have hwords : 4 * UInt32.ofNat (rs.length + 1) = 4 * UInt32.ofNat rs.length + 4 := by
    rw [UInt32.ofNat_add, UInt32.mul_add]
    rfl
  rw [hlink, hsp, hentered.low, UInt32.add_assoc, ← hwords, UInt32.sub_add_cancel]

end Stack

end Arm

end Basis
