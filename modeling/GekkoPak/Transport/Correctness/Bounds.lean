import GekkoPak.Transport.Register

/-!
# `Transport.Correctness.Bounds` — the register window and what lies around the page

The page is 4096 bytes inside some larger memory. An access is bounds-safe when it commutes with replacing everything
around the page (`BoundsSafe`): nothing out there is read, nothing is written. Every access that reaches the transport is
(`step_around`), and the guard of `Read32` and `Write32` turns away what does not fit — as long as `offset + 4` is the
sum it is written as. In the last four offsets of the 32-bit space it wraps, and the guard lets them through
(`boundsSafe_iff`).
-/

namespace GekkoPak

open Basis

namespace RegisterWindow

/-- The window over a page that lies in other surroundings. -/
def around (w : RegisterWindow) (outside : Mem) : RegisterWindow :=
  { w with regs := w.regs.within kRegisterPageSize outside }

variable {w : RegisterWindow} {outside : Mem}

theorem load32_around {offset : Nat} (h : offset + 4 ≤ kRegisterPageSize) :
    load32 (w.around outside).regs offset = load32 w.regs offset := by
  rw [load32, around, Mem.read_within h, load32]

theorem store32_around {regs : Mem} {offset : Nat} {value : UInt32} (h : offset + 4 ≤ kRegisterPageSize) :
    store32 (regs.within kRegisterPageSize outside) offset value =
      (store32 regs offset value).within kRegisterPageSize outside :=
  Mem.write_within (by rw [le32_length]; exact h)

/-! ## Every access inside the page

Each function of the transport takes a window and the same window in other surroundings to the same window in other
surroundings; `v` is the second of the two throughout. -/

variable {v : RegisterWindow}

theorem ite_around {v' w' : RegisterWindow} (c : Prop) [Decidable c] (h : v = w.around outside)
    (h' : v' = w'.around outside) : (if c then v else v') = (if c then w else w').around outside := by
  split
  · exact h
  · exact h'

theorem endTransfer_around (h : v = w.around outside) : v.endTransfer = w.endTransfer.around outside := by
  subst h
  rw [endTransfer, load32_around (by decide), around, store32_around (by decide)]
  rfl

theorem staged_around (h : v = w.around outside) : v.staged = w.staged := by
  subst h
  rw [staged, around, Mem.read_within (by decide), staged]

theorem fetchResponse_around (h : v = w.around outside) (cmd : WireCommand) (bytes : Nat) :
    v.fetchResponse cmd bytes = (w.fetchResponse cmd bytes).around outside := by
  subst h
  rw [fetchResponse, fetchResponse]
  split <;> rfl

/-- `Store32(regs, kRegRomCnt, Load32(regs, kRegRomCnt) | kCardDataReady)`. -/
def offerData (w : RegisterWindow) : RegisterWindow :=
  { w with regs := store32 w.regs kRegRomCnt (load32 w.regs kRegRomCnt ||| kCardDataReady) }

theorem offerData_around (h : v = w.around outside) : v.offerData = w.offerData.around outside := by
  subst h
  rw [offerData, load32_around (by decide), around, store32_around (by decide)]
  rfl

theorem openPhase_around (h : v = w.around outside) (cmd : WireCommand) (phase : ExpectedPhase) :
    v.openPhase cmd phase = (w.openPhase cmd phase).around outside := by
  subst h
  rw [openPhase, openPhase]
  by_cases hdir : phase.direction = .cartToConsole
  · simp only [if_pos hdir]
    exact offerData_around (fetchResponse_around (by rfl) cmd phase.bytes)
  · simp only [if_neg hdir]
    let opened : RegisterWindow := { w with transport := { w.transport with
      wordIndex := 0, wordCount := phase.bytes / 4, direction := phase.direction } }
    exact offerData_around (w := opened) (by rfl)

theorem startCommand_around (h : v = w.around outside) : v.startCommand = w.startCommand.around outside := by
  have hstaged := staged_around h
  subst h
  rw [startCommand, load32_around (by decide), hstaged, startCommand]
  simp only []
  split
  · exact endTransfer_around (by rfl)
  · split
    · exact endTransfer_around (by rfl)
    · split
      · exact endTransfer_around (by rfl)
      · exact openPhase_around (by rfl) _ _

theorem readFifo_around (h : v = w.around outside) : v.readFifo = (w.readFifo.1.around outside, w.readFifo.2) := by
  subst h
  have hdirection : (w.around outside).transport.direction = w.transport.direction := rfl
  rw [readFifo, readFifo, hdirection]
  by_cases hdir : w.transport.direction ≠ .cartToConsole
  · rw [if_pos hdir, if_pos hdir]
    rfl
  · rw [if_neg hdir, if_neg hdir]
    simp only []
    exact Prod.ext (ite_around _ (endTransfer_around (by rfl)) (by rfl)) rfl

theorem writeFifo_around (h : v = w.around outside) (value : UInt32) :
    v.writeFifo value = (w.writeFifo value).around outside := by
  subst h
  have hdirection : (w.around outside).transport.direction = w.transport.direction := rfl
  rw [writeFifo, writeFifo, hdirection]
  by_cases hdir : w.transport.direction ≠ .consoleToCart
  · rw [if_pos hdir, if_pos hdir]
    rfl
  · rw [if_neg hdir, if_neg hdir]
    exact ite_around _ (endTransfer_around (by rfl)) (by rfl)

/-- An access whose four bytes lie in the page, with anything around it. -/
theorem step_around (h : v = w.around outside) {a : Access} (ha : a.offset.toNat + 4 ≤ kRegisterPageSize) :
    v.step a = ((w.step a).1.around outside, (w.step a).2) := by
  subst h
  cases a with
  | read offset =>
    change offset.toNat + 4 ≤ kRegisterPageSize at ha
    simp only [step, read32]
    split
    · rfl
    · split
      · rw [readFifo_around rfl]
      · rw [load32_around ha]
  | write offset value =>
    change offset.toNat + 4 ≤ kRegisterPageSize at ha
    simp only [step, write32]
    split
    · rfl
    · split
      · rw [writeFifo_around rfl]
      · have hregs : store32 (w.around outside).regs offset.toNat value =
            (store32 w.regs offset.toNat value).within kRegisterPageSize outside := store32_around ha
        rw [hregs]
        exact Prod.ext (ite_around _ (startCommand_around (by rfl)) (by rfl)) rfl

/-! ## The guard -/

end RegisterWindow

namespace Access

/-- The four bytes lie wholly inside the page. -/
def Inside (a : Access) : Prop := a.offset.toNat + 4 ≤ kRegisterPageSize

/-- `offset + 4` does not wrap. -/
def Unwrapped (a : Access) : Prop := a.offset.toNat + 4 < 2 ^ 32

instance (a : Access) : Decidable a.Inside := inferInstanceAs (Decidable (_ ≤ _))
instance (a : Access) : Decidable a.Unwrapped := inferInstanceAs (Decidable (_ < _))

/-- The answer of an access that does nothing. -/
def refused : Access → Option UInt32
  | read _    => some 0
  | write _ _ => none

end Access

namespace RegisterWindow

variable {w : RegisterWindow} {outside : Mem}

theorem guard_toNat (offset : UInt32) : (offset + 4).toNat = (offset.toNat + 4) % 2 ^ 32 := by
  have h4 : (4 : UInt32).toNat = 4 := rfl
  rw [UInt32.toNat_add, h4]

/-- What the guard turns away changes nothing. -/
theorem step_refused {a : Access} (hwrap : a.Unwrapped) (hout : ¬ a.Inside) : w.step a = (w, a.refused) := by
  have hguard : (a.offset + 4).toNat > kRegisterPageSize := by
    rw [guard_toNat, Nat.mod_eq_of_lt hwrap]
    exact Nat.not_le.mp hout
  cases a with
  | read offset =>
    change (offset + 4).toNat > kRegisterPageSize at hguard
    simp only [step, read32, if_pos hguard]
    rfl
  | write offset value =>
    change (offset + 4).toNat > kRegisterPageSize at hguard
    simp only [step, write32, if_pos hguard]
    rfl

/-- The access is bounds-safe in `w`: whatever lies around the page, it is neither read nor written, and an access that
    is not wholly inside the page does nothing. -/
def BoundsSafe (w : RegisterWindow) (a : Access) : Prop :=
  ∀ outside : Mem,
    (w.around outside).step a = ((w.step a).1.around outside, (w.step a).2) ∧
      (¬ a.Inside → (w.around outside).step a = (w.around outside, a.refused))

theorem boundsSafe_of_unwrapped {a : Access} (h : a.Unwrapped) : w.BoundsSafe a := by
  intro outside
  by_cases hin : a.Inside
  · exact ⟨step_around rfl hin, fun hout => absurd hin hout⟩
  · rw [step_refused h hin, step_refused h hin]
    exact ⟨rfl, fun _ => rfl⟩

/-- A wrapped sum passes the guard, and none of the registers the window treats specially is that far out. -/
theorem wrapped_passes {offset : UInt32} (h : ¬ offset.toNat + 4 < 2 ^ 32) :
    ¬ (offset + 4).toNat > kRegisterPageSize ∧ offset.toNat ≠ kRegFifo ∧ offset.toNat ≠ kRegRomCnt := by
  have hlt : offset.toNat < 2 ^ 32 := offset.toNat_lt
  have hpage : kRegisterPageSize = 4096 := rfl
  have hfifo : kRegFifo = 28 := rfl
  have hromcnt : kRegRomCnt = 4 := rfl
  rw [guard_toNat, hpage, hfifo, hromcnt]
  omega

/-- A read past the page returns what lies there. -/
theorem step_read_wrapped {offset : UInt32} (h : ¬ offset.toNat + 4 < 2 ^ 32) :
    w.step (.read offset) = (w, some (load32 w.regs offset.toNat)) := by
  obtain ⟨hguard, hfifo, _⟩ := wrapped_passes h
  simp only [step, read32, if_neg hguard, if_neg hfifo]

/-- A write past the page lands there. -/
theorem step_write_wrapped {offset value : UInt32} (h : ¬ offset.toNat + 4 < 2 ^ 32) :
    w.step (.write offset value) = ({ w with regs := store32 w.regs offset.toNat value }, none) := by
  obtain ⟨hguard, hfifo, hromcnt⟩ := wrapped_passes h
  have htrigger : ¬ (offset.toNat = kRegRomCnt ∧ value &&& kCardActivate ≠ 0 ∧ w.transport.direction = .none) :=
    fun hstart => hromcnt hstart.1
  simp only [step, write32, if_neg hguard, if_neg hfifo, if_neg htrigger]

/-- The four bytes of a wrapped access are past the page: with the right bytes there, a read tells and a write shows. -/
theorem not_boundsSafe_of_wrapped {a : Access} (h : ¬ a.Unwrapped) : ¬ w.BoundsSafe a := by
  have hpage : kRegisterPageSize = 4096 := rfl
  cases a with
  | read offset =>
    change ¬ offset.toNat + 4 < 2 ^ 32 at h
    intro hsafe
    have hquiet := (hsafe (fun _ => 1)).2 (by
      change ¬ offset.toNat + 4 ≤ kRegisterPageSize
      omega)
    have hbytes : (w.around (fun _ => 1)).regs.read offset.toNat 4 = [1, 1, 1, 1] := by
      have hsame : (w.around (fun _ => 1)).regs.read offset.toNat 4 = Mem.read (fun _ => 1) offset.toNat 4 := by
        apply Mem.read_congr
        intro i hi _
        exact if_neg (by omega)
      exact hsame
    rw [step_read_wrapped h, load32, hbytes] at hquiet
    have hzero : ofLe32 [1, 1, 1, 1] = 0 := Option.some.inj (congrArg Prod.snd hquiet)
    exact absurd hzero (by decide)
  | write offset value =>
    change ¬ offset.toNat + 4 < 2 ^ 32 at h
    intro hsafe
    obtain ⟨first, hfirst⟩ : ∃ first, (le32 value)[0]? = some first :=
      ⟨_, List.getElem?_eq_getElem (by rw [le32_length]; decide)⟩
    have hquiet := (hsafe (fun _ => first + 1)).2 (by
      change ¬ offset.toNat + 4 ≤ kRegisterPageSize
      omega)
    rw [step_write_wrapped h] at hquiet
    have hregs := congrArg (fun r => (r.1.regs : Mem) offset.toNat) hquiet
    have hwritten : store32 (w.around (fun _ => first + 1)).regs offset.toNat value offset.toNat = first := by
      rw [store32, Mem.write_apply, if_pos (Nat.le_refl _), Nat.sub_self, hfirst]
      rfl
    have hthere : (w.around (fun _ => first + 1)).regs offset.toNat = first + 1 := if_neg (by omega)
    have hsame : first = first + 1 := hwritten.symm.trans (hregs.trans hthere)
    have hnat := congrArg UInt8.toNat hsame
    rw [UInt8.toNat_add] at hnat
    have h1 : (1 : UInt8).toNat = 1 := rfl
    omega

/-- An access is bounds-safe exactly when `offset + 4` does not wrap. -/
theorem boundsSafe_iff {a : Access} : w.BoundsSafe a ↔ a.Unwrapped := by
  constructor
  · intro hsafe
    by_contra hwrap
    exact not_boundsSafe_of_wrapped hwrap hsafe
  · exact boundsSafe_of_unwrapped

/-! ## Runs -/

/-- The machine of the window, over a page that lies in other surroundings. -/
def machineIn (config : Config) (outside : Mem) : Machine Access (Option UInt32) RegisterWindow where
  init := (reset config).around outside
  step := step

/-- A run of accesses none of which wraps goes the same way whatever lies around the page, and leaves it as it is. -/
theorem run_around (config : Config) (outside : Mem) {history : List Access} (h : ∀ a ∈ history, a.Unwrapped) :
    (machineIn config outside).run history = ((machine config).run history).around outside ∧
      (machineIn config outside).outs history = (machine config).outs history := by
  have hstep : ∀ (v w : RegisterWindow) (a : Access), a.Unwrapped → v = w.around outside →
      (machineIn config outside).next v a = ((machine config).next w a).around outside ∧
        (machineIn config outside).out v a = (machine config).out w a := by
    intro v w a ha hv
    subst hv
    have hsafe := (boundsSafe_of_unwrapped (w := w) ha outside).1
    have hnext := congrArg Prod.fst hsafe
    have hout := congrArg Prod.snd hsafe
    exact ⟨hnext, hout⟩
  exact Machine.simulation (R := fun v w : RegisterWindow => v = w.around outside) rfl hstep h

/-- **Bounds safety.** In every reachable state of the window an access is bounds-safe exactly when its `offset + 4` does
    not wrap, and a run of such accesses neither sees nor changes anything around the page. -/
theorem register_window_bounds_safe_iff (config : Config) (history : List Access) :
    (∀ a : Access, ((machine config).run history).BoundsSafe a ↔ a.Unwrapped) ∧
      ((∀ a ∈ history, a.Unwrapped) → ∀ outside : Mem,
        (machineIn config outside).run history = ((machine config).run history).around outside ∧
          (machineIn config outside).outs history = (machine config).outs history) := by
  refine ⟨fun _ => boundsSafe_iff, ?_⟩
  intro h outside
  exact run_around config outside h

theorem register_window_bounds_safe_last :
    ((machine {}).run [.write 0xFFC 7, .write 0xFFFFFFFB 9]).BoundsSafe (.read 0xFFC) ∧
      ∀ outside : Mem, (machineIn {} outside).outs [.write 0xFFC 7, .write 0xFFFFFFFB 9] =
        (machine {}).outs [.write 0xFFC 7, .write 0xFFFFFFFB 9] := by
  obtain ⟨hsafe, hrun⟩ := register_window_bounds_safe_iff {} [.write 0xFFC 7, .write 0xFFFFFFFB 9]
  exact ⟨(hsafe _).mpr (by decide), fun outside => (hrun (by decide) outside).2⟩

/-- The last four offsets of the 32-bit space pass the guard. -/
theorem register_window_wraps :
    ¬ ((machine {}).run []).BoundsSafe (.read 0xFFFFFFFC) ∧
      ¬ ((machine {}).run []).BoundsSafe (.write 0xFFFFFFFC 0) :=
  ⟨not_boundsSafe_of_wrapped (by decide), not_boundsSafe_of_wrapped (by decide)⟩

end RegisterWindow

end GekkoPak
