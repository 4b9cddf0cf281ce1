import GekkoPak.Simulator.Core

/-!
# `Simulator.Correctness.Accounting` — what the simulator's books say

The simulator keeps its total, its table and its next handle apart. As long as every handle it hands out is new they
say the same thing (`Accounts`), in every state and through changes of the configuration. New handles come from a 32-bit
counter that is never checked: it starts at one, and when it has come round to zero the next allocation is handed zero
(`accounting_iff`).
-/

namespace GekkoPak

open Basis

namespace Simulator

/-! ## What a call can do -/

/-- The checks of `allocate`. -/
def Admits (s : Simulator) (bytes : UInt64) : Prop :=
  hasCapability s.config.capabilities kCapLocalMemory = true ∧ bytes ≠ 0 ∧ bytes ≤ s.freeBytes

instance (s : Simulator) (bytes : UInt64) : Decidable (s.Admits bytes) := inferInstanceAs (Decidable (_ ∧ _))

/-- An allocation that passes them. -/
def granted (s : Simulator) (bytes : UInt64) : Simulator :=
  { s with
    nextHandle := s.nextHandle + 1
    allocations := emplace s.allocations s.nextHandle bytes
    allocatedBytes := s.allocatedBytes + bytes }

/-- A release of a handle of this size. -/
def released (s : Simulator) (handle : UInt32) (size : UInt64) : Simulator :=
  { s with allocatedBytes := s.allocatedBytes - size, allocations := s.allocations.erase handle }

theorem allocate_granted {s : Simulator} {bytes : UInt64} (h : s.Admits bytes) :
    s.allocate bytes = (s.granted bytes, .ok s.nextHandle) := by
  obtain ⟨hcap, hpos, hfree⟩ := h
  simp only [allocate]
  rw [if_neg (by rw [hcap]; decide), if_neg hpos, if_neg (UInt64.not_lt.mpr hfree)]
  rfl

theorem allocate_throws {s : Simulator} {bytes : UInt64} (h : ¬ s.Admits bytes) :
    ∃ e, s.allocate bytes = (s, .error e) := by
  simp only [allocate]
  split
  · exact ⟨_, rfl⟩
  split
  · exact ⟨_, rfl⟩
  split
  · exact ⟨_, rfl⟩
  · rename_i hcap hpos hfree
    refine absurd ⟨?_, hpos, UInt64.not_lt.mp hfree⟩ h
    simpa using hcap

theorem step_release {s : Simulator} {handle : UInt32} {size : UInt64} (h : s.allocations.lookup handle = some size) :
    s.step (.release handle) = (s.released handle size, .ok none) := by
  simp only [step, release, h]
  rfl

/-- **What a call can do.** It throws, with the state as it was; or it grants, releases or reconfigures. -/
theorem step_cases (s : Simulator) (call : Call) :
    ((∃ e, s.step call = (s, .error e)) ∧ ∀ bytes, call = .allocate bytes → ¬ s.Admits bytes) ∨
    (∃ bytes, call = .allocate bytes ∧ s.Admits bytes ∧ s.step call = (s.granted bytes, .ok (some s.nextHandle))) ∨
    (∃ handle size, call = .release handle ∧ s.allocations.lookup handle = some size ∧
      s.step call = (s.released handle size, .ok none)) ∨
    (∃ config, call = .setConfig config ∧ s.allocatedBytes ≤ config.localMemoryBytes ∧
      s.step call = ({ s with config := config }, .ok none)) := by
  cases call with
  | allocate bytes =>
    by_cases h : s.Admits bytes
    · refine Or.inr (Or.inl ⟨bytes, rfl, h, ?_⟩)
      simp only [step, allocate_granted h]
      rfl
    · obtain ⟨e, he⟩ := allocate_throws h
      refine Or.inl ⟨⟨e, ?_⟩, fun b hb => by cases hb; exact h⟩
      simp only [step, he]
      rfl
  | release handle =>
    cases h : s.allocations.lookup handle with
    | none =>
      refine Or.inl ⟨⟨.invalidArgument "unknown GekkoPAK buffer handle", ?_⟩, fun b hb => by cases hb⟩
      simp only [step, release, h]
      rfl
    | some size =>
      exact Or.inr (Or.inr (Or.inl ⟨handle, size, rfl, h, step_release h⟩))
  | setConfig config =>
    cases hrates : checkRates config with
    | error e =>
      refine Or.inl ⟨⟨e, ?_⟩, fun b hb => by cases hb⟩
      simp only [step, setConfig, hrates]
      rfl
    | ok _ =>
      by_cases hsmall : config.localMemoryBytes < s.allocatedBytes
      · refine Or.inl ⟨⟨.invalidArgument "new local-memory size is smaller than current allocations", ?_⟩,
          fun b hb => by cases hb⟩
        simp only [step, setConfig, hrates, if_pos hsmall]
        rfl
      · refine Or.inr (Or.inr (Or.inr ⟨config, rfl, UInt64.not_lt.mp hsmall, ?_⟩))
        simp only [step, setConfig, hrates, if_neg hsmall]
        rfl

/-! ## The books -/

/-- The sizes of the live buffers, added up. -/
def liveBytes (s : Simulator) : Nat := total UInt64.toNat s.allocations

/-- The total is what the table says, it fits in the memory, and the next handle is new unless the counter has come
    round. -/
structure Accounts (s : Simulator) : Prop where
  live   : s.allocatedBytes.toNat = s.liveBytes
  fits   : s.allocatedBytes ≤ s.config.localMemoryBytes
  handle : s.nextHandle = 0 ∨ ∀ k ∈ s.allocations, k < s.nextHandle

/-- The counter has not come round when an allocation passes the checks. -/
def HandleLeft (s : Simulator) (call : Call) : Prop :=
  ∀ bytes, call = .allocate bytes → s.Admits bytes → s.nextHandle ≠ 0

theorem Accounts.freeBytes_toNat {s : Simulator} (h : s.Accounts) :
    s.allocatedBytes.toNat + s.freeBytes.toNat = s.config.localMemoryBytes.toNat := by
  have hle : s.allocatedBytes.toNat ≤ s.config.localMemoryBytes.toNat := UInt64.le_iff_toNat_le.mp h.fits
  rw [freeBytes, UInt64.toNat_sub_of_le _ _ h.fits]
  omega

theorem Accounts.nextHandle_fresh {s : Simulator} (h : s.Accounts) (hleft : s.nextHandle ≠ 0) :
    s.nextHandle ∉ s.allocations := by
  intro hmem
  rcases h.handle with hzero | hbelow
  · exact hleft hzero
  · exact absurd (hbelow _ hmem) (UInt32.lt_irrefl _)

/-- An allocation, with a handle left. -/
theorem Accounts.granted {s : Simulator} (h : s.Accounts) {bytes : UInt64} (hok : s.Admits bytes)
    (hleft : s.nextHandle ≠ 0) : (s.granted bytes).Accounts := by
  have hfresh := h.nextHandle_fresh hleft
  have hbytes : bytes.toNat ≤ s.freeBytes.toNat := UInt64.le_iff_toNat_le.mp hok.2.2
  have hfree := h.freeBytes_toNat
  have hmemory : s.config.localMemoryBytes.toNat < 2 ^ 64 := s.config.localMemoryBytes.toNat_lt
  have hsum : (s.allocatedBytes + bytes).toNat = s.allocatedBytes.toNat + bytes.toNat := by
    rw [UInt64.toNat_add, Nat.mod_eq_of_lt (by omega)]
  refine ⟨?_, ?_, ?_⟩
  · show (s.allocatedBytes + bytes).toNat = total UInt64.toNat (emplace s.allocations s.nextHandle bytes)
    rw [hsum, total_emplace _ hfresh, h.live, liveBytes, Nat.add_comm]
  · show s.allocatedBytes + bytes ≤ s.config.localMemoryBytes
    rw [UInt64.le_iff_toNat_le, hsum]
    omega
  · -- the counter comes round, or stays above what it has handed out
    show s.nextHandle + 1 = 0 ∨ ∀ k ∈ emplace s.allocations s.nextHandle bytes, k < s.nextHandle + 1
    by_cases hround : s.nextHandle + 1 = 0
    · exact Or.inl hround
    · refine Or.inr (fun k hk => ?_)
      have hlt : s.nextHandle.toNat + 1 < 2 ^ 32 := by
        by_contra hover
        have hmax : s.nextHandle.toNat + 1 = 2 ^ 32 := by have := s.nextHandle.toNat_lt; omega
        refine hround (UInt32.toNat_inj.mp ?_)
        rw [UInt32.toNat_add]
        show (s.nextHandle.toNat + 1) % 2 ^ 32 = 0
        rw [hmax, Nat.mod_self]
      have hsucc : (s.nextHandle + 1).toNat = s.nextHandle.toNat + 1 := by
        rw [UInt32.toNat_add]
        exact Nat.mod_eq_of_lt hlt
      have hle : k.toNat ≤ s.nextHandle.toNat := by
        rcases (mem_emplace hfresh).mp hk with rfl | hold
        · exact Nat.le_refl _
        · rcases h.handle with hzero | hbelow
          · exact absurd hzero hleft
          · exact Nat.le_of_lt (UInt32.lt_iff_toNat_lt.mp (hbelow k hold))
      rw [UInt32.lt_iff_toNat_lt, hsucc]
      omega

/-- A release. -/
theorem Accounts.released {s : Simulator} (h : s.Accounts) {handle : UInt32} {size : UInt64}
    (hlookup : s.allocations.lookup handle = some size) : (s.released handle size).Accounts := by
  have hpart : size.toNat ≤ s.allocatedBytes.toNat := by
    rw [h.live]
    exact size_le_total _ hlookup
  have hdiff : (s.allocatedBytes - size).toNat = s.allocatedBytes.toNat - size.toNat :=
    UInt64.toNat_sub_of_le _ _ (UInt64.le_iff_toNat_le.mpr hpart)
  refine ⟨?_, ?_, ?_⟩
  · show (s.allocatedBytes - size).toNat = total UInt64.toNat (s.allocations.erase handle)
    have htotal := total_erase UInt64.toNat hlookup
    have hlive := h.live
    rw [liveBytes] at hlive
    omega
  · show s.allocatedBytes - size ≤ s.config.localMemoryBytes
    have hfits := UInt64.le_iff_toNat_le.mp h.fits
    rw [UInt64.le_iff_toNat_le, hdiff]
    omega
  · exact h.handle.imp_right (fun hbelow k hk => hbelow k (AList.mem_erase.mp hk).2)

/-- **One call keeps the books**, with a handle left. -/
theorem Accounts.step {s : Simulator} (h : s.Accounts) {call : Call} (hleft : s.HandleLeft call) :
    (s.step call).1.Accounts := by
  rcases s.step_cases call with ⟨⟨e, heq⟩, -⟩ | ⟨bytes, hcall, hok, heq⟩ | ⟨handle, size, -, hlookup, heq⟩ |
    ⟨config, -, hfits, heq⟩
  · rw [heq]
    exact h
  · rw [heq]
    exact h.granted hok (hleft bytes hcall hok)
  · rw [heq]
    exact h.released hlookup
  · rw [heq]
    exact ⟨h.live, hfits, h.handle⟩

/-! ## Giving everything back -/

/-- **Releasing every live handle once**, in any order, empties the books. -/
theorem Accounts.drained : ∀ {handles : List UInt32} {s t : Simulator}, s.Accounts → handles.Perm s.allocations.keys →
    ((machine t).runFrom s (handles.map .release)).allocatedBytes = 0 := by
  intro handles
  -- on the handles still to go: each one is live, and its release leaves the others
  induction handles with
  | nil =>
    intro s t h hperm
    refine UInt64.toNat_inj.mp (h.live.trans ?_)
    exact total_of_keys_nil _ hperm.symm.eq_nil
  | cons handle handles ih =>
    intro s t h hperm
    have hmem : handle ∈ s.allocations := hperm.subset (by simp)
    obtain ⟨size, hlookup⟩ := Option.isSome_iff_exists.mp (AList.lookup_isSome.mpr hmem)
    have hstep : (machine t).next s (.release handle) = s.released handle size := by
      show (s.step (.release handle)).1 = _
      rw [step_release hlookup]
    have hrest : handles.Perm (s.released handle size).allocations.keys := by
      show handles.Perm (s.allocations.erase handle).keys
      have herase := hperm.erase handle
      rw [List.erase_cons_head] at herase
      rwa [AList.keys_erase]
    rw [List.map_cons, Machine.runFrom, hstep]
    exact ih (h.released hlookup) hrest

/-! ## Whole runs -/

/-- What the books of a state have to say: the total is the sum of the live sizes, total and free are the memory, and
    giving back every live handle once, in any order, leaves nothing. -/
structure Balanced (s : Simulator) : Prop where
  live    : s.allocatedBytes.toNat = s.liveBytes
  free    : s.allocatedBytes.toNat + s.freeBytes.toNat = s.config.localMemoryBytes.toNat
  drained : ∀ handles : List UInt32, handles.Perm s.allocations.keys →
    ((machine s).run (handles.map .release)).allocatedBytes = 0

/-- What a call has to do: a throw leaves the state alone, and a handle returned is neither zero nor live. -/
structure Honest (s : Simulator) (call : Call) : Prop where
  thrown : ∀ e, (s.step call).2 = .error e → (s.step call).1 = s
  handle : ∀ k, (s.step call).2 = .ok (some k) → k ≠ 0 ∧ k ∉ s.allocations

theorem Accounts.balanced {s : Simulator} (h : s.Accounts) : s.Balanced :=
  ⟨h.live, h.freeBytes_toNat, fun _ hperm => h.drained hperm⟩

theorem Accounts.honest {s : Simulator} (h : s.Accounts) {call : Call} (hleft : s.HandleLeft call) : s.Honest call := by
  constructor
  · intro e he
    rcases s.step_cases call with ⟨⟨_, heq⟩, -⟩ | ⟨_, -, -, heq⟩ | ⟨_, _, -, -, heq⟩ | ⟨_, -, -, heq⟩
    · rw [heq]
    all_goals
      rw [heq] at he
      cases he
  · intro k hk
    rcases s.step_cases call with ⟨⟨_, heq⟩, -⟩ | ⟨bytes, hcall, hok, heq⟩ | ⟨_, _, -, -, heq⟩ | ⟨_, -, -, heq⟩
    · rw [heq] at hk
      cases hk
    · rw [heq] at hk
      cases hk
      have hnext := hleft bytes hcall hok
      exact ⟨hnext, h.nextHandle_fresh hnext⟩
    all_goals
      rw [heq] at hk
      cases hk

/-- An allocation that passes the checks hands out the counter. -/
theorem Honest.handleLeft {s : Simulator} {call : Call} (h : s.Honest call) : s.HandleLeft call := by
  rintro bytes rfl hok
  refine (h.handle s.nextHandle ?_).1
  simp only [step, allocate_granted hok]
  rfl

theorem construct_ok {config : DeviceConfig} {s : Simulator} (h : construct config = .ok s) :
    s = { config := config } := by
  unfold construct at h
  cases hrates : checkRates config with
  | error e => rw [hrates] at h; cases h
  | ok _ => rw [hrates] at h; cases h; rfl

theorem construct_accounts {config : DeviceConfig} {s : Simulator} (h : construct config = .ok s) : s.Accounts := by
  rw [construct_ok h]
  exact ⟨rfl, UInt64.zero_le, Or.inr (fun k hk => absurd hk (AList.notMem_empty k))⟩

/-- The call is an `allocate`. -/
def Call.isAllocate : Call → Bool
  | .allocate _ => true
  | _           => false

/-- The counter moves by one, and only in an `allocate`. -/
theorem step_nextHandle (s : Simulator) (call : Call) :
    (s.step call).1.nextHandle = s.nextHandle ∨
      call.isAllocate = true ∧ (s.step call).1.nextHandle = s.nextHandle + 1 := by
  rcases s.step_cases call with ⟨⟨_, heq⟩, -⟩ | ⟨bytes, hcall, -, heq⟩ | ⟨_, _, -, -, heq⟩ | ⟨_, -, -, heq⟩
  · exact Or.inl (by rw [heq])
  · rw [heq, hcall]
    exact Or.inr ⟨rfl, rfl⟩
  · exact Or.inl (by rw [heq]; rfl)
  · exact Or.inl (by rw [heq])

/-- With fewer than `2 ^ 32 - 1` `allocate`s behind it, the counter has not come round. -/
theorem nextHandle_run {config : DeviceConfig} {s : Simulator} (h : construct config = .ok s) :
    ∀ calls : List Call, calls.countP Call.isAllocate + 1 < 2 ^ 32 →
      0 < ((machine s).run calls).nextHandle.toNat ∧
        ((machine s).run calls).nextHandle.toNat ≤ calls.countP Call.isAllocate + 1 := by
  intro calls
  induction calls using List.reverseRecOn with
  | nil =>
    intro _
    have hone : ((machine s).run []).nextHandle = 1 := congrArg nextHandle (construct_ok h)
    rw [hone]
    decide
  | append_singleton calls call ih =>
    intro hcount
    rw [List.countP_append, List.countP_singleton] at hcount ⊢
    obtain ⟨hpos, hle⟩ := ih (by omega)
    rw [Machine.run_concat]
    show 0 < (((machine s).run calls).step call).1.nextHandle.toNat ∧
      (((machine s).run calls).step call).1.nextHandle.toNat ≤ _
    rcases ((machine s).run calls).step_nextHandle call with hsame | ⟨halloc, hnext⟩
    · rw [hsame]
      omega
    · rw [halloc, if_pos rfl] at hcount ⊢
      have hsucc : (((machine s).run calls).nextHandle + 1).toNat = ((machine s).run calls).nextHandle.toNat + 1 := by
        rw [UInt32.toNat_add]
        exact Nat.mod_eq_of_lt (by have : (1 : UInt32).toNat = 1 := rfl; omega)
      rw [hnext, hsucc]
      omega

/-- **When the accounting is sound.** For every run of calls, successful or throwing, from construction: every state is
    balanced and every call honest iff the handle counter is not zero whenever an `allocate` passes its checks. Runs
    with fewer than `2 ^ 32` `allocate`s are of this kind. -/
theorem accounting_iff {config : DeviceConfig} {s : Simulator} (h : construct config = .ok s) (calls : List Call) :
    (((∀ done, done <+: calls → ((machine s).run done).Balanced) ∧
        ∀ done call, done ++ [call] <+: calls → ((machine s).run done).Honest call) ↔
      ∀ done call, done ++ [call] <+: calls → ((machine s).run done).HandleLeft call) ∧
    (calls.countP Call.isAllocate < 2 ^ 32 →
      ∀ done call, done ++ [call] <+: calls → ((machine s).run done).HandleLeft call) := by
  refine ⟨⟨?_, ?_⟩, ?_⟩
  · rintro ⟨-, hhonest⟩ done call hpre
    exact (hhonest done call hpre).handleLeft
  · intro hleft
    have haccounts : ∀ done, done <+: calls → ((machine s).run done).Accounts :=
      Machine.invariant_along (M := machine s) (C := HandleLeft) (construct_accounts h)
        (fun _ _ hbooks hok => hbooks.step hok) hleft
    refine ⟨fun done hpre => (haccounts done hpre).balanced, fun done call hpre => ?_⟩
    exact (haccounts done ((List.prefix_append done [call]).trans hpre)).honest (hleft done call hpre)
  · rintro hcount done call hpre bytes rfl -
    have hbefore : done.countP Call.isAllocate + 1 ≤ calls.countP Call.isAllocate := by
      obtain ⟨rest, rfl⟩ := hpre
      rw [List.countP_append, List.countP_append, List.countP_singleton]
      show _ + 1 ≤ _ + 1 + _
      omega
    obtain ⟨hpos, -⟩ := nextHandle_run h done (by omega)
    intro hzero
    rw [hzero] at hpos
    exact absurd hpos (by decide)

/-- Two buffers, one of them released, and an allocation that does not fit. -/
theorem accounting_two_buffers :
    let s : Simulator := { config := { localMemoryBytes := 1024 } }
    let calls : List Call := [.allocate 256, .allocate 512, .release 1, .allocate 513]
    ((machine s).run calls).Balanced ∧ ((machine s).run calls).allocatedBytes = 512 := by
  intro s calls
  have h : construct { localMemoryBytes := 1024 } = .ok s := rfl
  have hleft := (accounting_iff h calls).2 (by decide)
  exact ⟨((accounting_iff h calls).1.mpr hleft).1 calls (List.prefix_refl _), by decide +kernel⟩

/-! ## The counter comes round -/

/-- A buffer of one byte, allocated and released `n` times. -/
def rounds (n : Nat) : List Call :=
  (List.range n).flatMap (fun k => [.allocate 1, .release (UInt32.ofNat (k + 1))])

/-- One round, with nothing live: the counter has moved and nothing else has. -/
theorem runFrom_round (t : Simulator) (handle : UInt32) :
    (machine t).runFrom { config := {}, nextHandle := handle } [.allocate 1, .release handle] =
      { config := {}, nextHandle := handle + 1 } := by
  have hok : Admits { config := {}, nextHandle := handle } 1 := by
    -- the checks do not look at the counter
    have hany : Admits { config := {} } 1 := by decide
    exact hany
  have hfresh : handle ∉ (∅ : AList (fun _ : UInt32 => UInt64)) := AList.notMem_empty handle
  have hlookup : (granted { config := {}, nextHandle := handle } 1).allocations.lookup handle = some 1 := by
    show (emplace ∅ handle 1).lookup handle = some 1
    rw [emplace, if_neg hfresh, AList.lookup_insert]
  have hallocate : (machine t).next { config := {}, nextHandle := handle } (.allocate 1) =
      granted { config := {}, nextHandle := handle } 1 := by
    show (step { config := {}, nextHandle := handle } (.allocate 1)).1 = _
    simp only [step, allocate_granted hok]
  have hrelease : (machine t).next (granted { config := {}, nextHandle := handle } 1) (.release handle) =
      released (granted { config := {}, nextHandle := handle } 1) handle 1 := by
    show (step (granted { config := {}, nextHandle := handle } 1) (.release handle)).1 = _
    rw [step_release hlookup]
  have hempty : (emplace (∅ : AList (fun _ : UInt32 => UInt64)) handle 1).erase handle = ∅ := by
    rw [emplace, if_neg hfresh]
    apply AList.ext
    show List.kerase handle (⟨handle, 1⟩ :: List.kerase handle []) = []
    simp
  rw [Machine.runFrom, Machine.runFrom, Machine.runFrom, hallocate, hrelease]
  show Simulator.mk _ (0 + 1 - 1) (handle + 1) ((emplace ∅ handle 1).erase handle) = _
  rw [hempty]
  rfl

theorem run_rounds (n : Nat) :
    (machine { config := {} }).run (rounds n) = { config := {}, nextHandle := UInt32.ofNat (n + 1) } := by
  induction n with
  | zero => rfl
  | succ n ih =>
    have hsucc : rounds (n + 1) = rounds n ++ [.allocate 1, .release (UInt32.ofNat (n + 1))] := by
      rw [rounds, List.range_succ, List.flatMap_append, List.flatMap_singleton, rounds]
    have hnext : UInt32.ofNat (n + 1) + 1 = UInt32.ofNat (n + 1 + 1) := by simp
    rw [hsucc, Machine.run_append, ih, runFrom_round, hnext]

/-- After 4294967295 rounds the next buffer gets handle zero. -/
theorem accounting_zero_handle :
    let s : Simulator := { config := {} }
    construct {} = .ok s ∧
      ((machine s).run (rounds (2 ^ 32 - 1))).Admits 1 ∧
      (((machine s).run (rounds (2 ^ 32 - 1))).step (.allocate 1)).2 = .ok (some 0) ∧
      ¬ ((machine s).run (rounds (2 ^ 32 - 1))).Honest (.allocate 1) := by
  have hstate : (machine { config := {} }).run (rounds (2 ^ 32 - 1)) = { config := {}, nextHandle := 0 } := by
    rw [run_rounds]
    rfl
  have hok : Admits { config := {}, nextHandle := 0 } 1 := by decide
  have hout : (step { config := {}, nextHandle := 0 } (.allocate 1)).2 = .ok (some 0) := by
    simp only [step, allocate_granted hok]
    rfl
  intro s
  rw [hstate]
  exact ⟨rfl, hok, hout, fun h => (h.handle 0 hout).1 rfl⟩

end Simulator

end GekkoPak
