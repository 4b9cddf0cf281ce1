import GekkoPak.Device.Correctness.Alloc

/-!
# `Device.Correctness.FirstFit` — what `Allocate` grants, and when it wraps

Over a sound table `Allocate` is first fit, exactly: it grants the least offset at which the rounded request
lies inside the pool and clear of every live entry, in the lowest free slot, and fails only if there is none
(`allocate_first_fit`). That rests on `NoWrap`: no offset the search looks at plus the request reaches `2 ^ 32`. Below
2 GiB it cannot. Above, it can, and the search never recovers: every later candidate wraps as well, the bound
check of the loop is passed by all of them, and one is granted (`search_wrapped`).
-/

namespace GekkoPak

open Basis

namespace Device

/-! ## What fits -/

/-- `len` bytes from `c` on are inside the pool and meet no live allocation. -/
def Fits (s : Device) (len c : Nat) : Prop :=
  c + len ≤ s.config.poolBytes.toNat ∧
    ∀ i, (s.allocations i).live = true → (Span.mk c (c + len)).Apart (s.allocations i).span

theorem clear_liveSpans {table : Fin kMaxAllocations → Allocation} {c len : Nat} :
    Clear (liveSpans table) c len ↔ ∀ i, (table i).live = true → (Span.mk c (c + len)).Apart (table i).span := by
  constructor
  · intro h i hlive
    exact h _ (mem_liveSpans.mpr ⟨i, hlive, rfl⟩)
  · intro h x hx
    obtain ⟨i, hlive, rfl⟩ := mem_liveSpans.mp hx
    exact h i hlive

theorem le_roundUp4 (n : Nat) : n ≤ roundUp4 n := by
  unfold roundUp4
  omega

/-- Past the first, a position is visited only if the request is no longer than the pool. -/
theorem visited_zero_or_le {occ : List Span} {len limit c : Nat} (h : Visited occ len limit c) :
    c = 0 ∨ len ≤ limit := by
  cases h with
  | start => exact Or.inl rfl
  | next h hfit hno => exact Or.inr (Nat.le_trans (Nat.le_add_left _ _) hfit)

/-! ## `Allocate`, forwards -/

section Allocate

variable {s : Device} {bytes : UInt32}

theorem allocate_refused (h : bytes = 0 ∨ s.config.poolBytes < bytes ∨ s.config.poolBytes < alignUp4 bytes) :
    s.allocate bytes = (s, 0) := by
  unfold allocate
  by_cases hguard : bytes = 0 ∨ bytes > s.config.poolBytes ∨ !s.config.hasPool
  · rw [if_pos hguard]
  · rw [if_neg hguard]
    rw [not_or, not_or] at hguard
    rcases h with hzero | hlong | hround
    · exact absurd hzero hguard.1
    · exact absurd hlong hguard.2.1
    · exact if_pos hround

theorem allocate_full (h : ∀ i, (s.allocations i).live = true) : s.allocate bytes = (s, 0) := by
  have hnone : firstSlot (fun i => !(s.allocations i).live) = none := by
    rw [firstSlot_eq_none]
    intro i
    rw [h i]
    rfl
  unfold allocate
  rw [hnone]
  split
  · rfl
  · simp only
    split <;> rfl

/-- With the guards passed and a slot free, the search decides. -/
theorem allocate_search (hpool : s.config.hasPool = true) (hne : bytes ≠ 0) (hle : bytes ≤ s.config.poolBytes)
    (hfit : alignUp4 bytes ≤ s.config.poolBytes) {slot : Fin kMaxAllocations}
    (hslot : firstSlot (fun i => !(s.allocations i).live) = some slot) :
    s.allocate bytes =
      ((search s.allocations s.config.poolBytes (alignUp4 bytes) searchFuel 0).join.map (fun c =>
        (s.setAllocation slot ⟨c, alignUp4 bytes, 0, true⟩, UInt32.ofNat (slot.val + 1)))).getD (s, 0) := by
  have hguard : ¬ (bytes = 0 ∨ bytes > s.config.poolBytes ∨ !s.config.hasPool) := by
    rintro (h | h | h)
    · exact hne h
    · exact absurd hle (UInt32.not_le.mpr h)
    · rw [hpool] at h
      cases h
  unfold allocate
  rw [if_neg hguard]
  simp only
  rw [if_neg (UInt32.not_lt.mpr hfit), hslot]
  cases search s.allocations s.config.poolBytes (alignUp4 bytes) searchFuel 0 with
  | none => rfl
  | some found => cases found <;> rfl

/-- The handle of a slot is never zero. -/
theorem slotHandle_ne_zero (i : Fin kMaxAllocations) : UInt32.ofNat (i.val + 1) ≠ 0 := by
  intro h
  have hz := congrArg UInt32.toNat h
  rw [slotHandle_toNat] at hz
  cases hz

end Allocate

/-! ## Exact first fit -/

/-- Below 2 GiB the search ends for every request. -/
theorem search_terminates {s : Device} (hpool : s.config.poolBytes.toNat < 2 ^ 31)
    (hinv : TableInv s.config.poolBytes.toNat s.allocations) (b : UInt32) :
    search s.allocations s.config.poolBytes b searchFuel 0 ≠ none := by
  have hb := b.toNat_lt
  have hspec := search_spec hinv (b := b) ?_ searchFuel 0 Visited.start (show _ < 0 + 2 ^ 32 by omega)
  · intro hnone
    rw [hnone] at hspec
    exact hspec
  · intro d hvis
    have hd := (visited_bounds hinv hvis).2
    rcases visited_zero_or_le hvis with rfl | hle <;> omega

/-- What `Allocate` does over a sound table when nothing wraps. -/
theorem allocate_spec {s : Device} {bytes : UInt32} (hpool : s.config.hasPool = true)
    (hinv : TableInv s.config.poolBytes.toNat s.allocations) (hfits : s.AllocFits bytes) :
    (s.allocate bytes = (s, 0) ∧
      (bytes = 0 ∨ (∀ i, (s.allocations i).live = true) ∨ ∀ c, ¬ s.Fits (roundUp4 bytes.toNat) c)) ∨
    ∃ slot c, bytes ≠ 0 ∧ firstSlot (fun i => !(s.allocations i).live) = some slot ∧
      s.Fits (roundUp4 bytes.toNat) c.toNat ∧ (∀ d, d < c.toNat → ¬ s.Fits (roundUp4 bytes.toNat) d) ∧
      (alignUp4 bytes).toNat = roundUp4 bytes.toNat ∧
      s.allocate bytes = (s.setAllocation slot ⟨c, alignUp4 bytes, 0, true⟩, UInt32.ofNat (slot.val + 1)) := by
  by_cases hne : bytes = 0
  · exact Or.inl ⟨allocate_refused (Or.inl hne), Or.inl hne⟩
  have hlong : s.config.poolBytes.toNat < roundUp4 bytes.toNat → ∀ c, ¬ s.Fits (roundUp4 bytes.toNat) c := by
    rintro hlt c ⟨hin, -⟩
    omega
  rcases hfits with hbig | hfull | hwrap
  · refine Or.inl ⟨allocate_refused (Or.inr (Or.inl hbig)), Or.inr (Or.inr (hlong ?_))⟩
    exact Nat.lt_of_lt_of_le (UInt32.lt_iff_toNat_lt.mp hbig) (le_roundUp4 _)
  · exact Or.inl ⟨allocate_full hfull, Or.inr (Or.inl hfull)⟩
  have halign := hwrap.alignUp4_toNat
  rcases UInt32.lt_or_le s.config.poolBytes (alignUp4 bytes) with hround | hround
  · refine Or.inl ⟨allocate_refused (Or.inr (Or.inr hround)), Or.inr (Or.inr (hlong ?_))⟩
    rw [← halign]
    exact UInt32.lt_iff_toNat_lt.mp hround
  have hle : bytes ≤ s.config.poolBytes := by
    rw [UInt32.le_iff_toNat_le] at hround ⊢
    have := le_roundUp4 bytes.toNat
    omega
  cases hslot : firstSlot (fun i => !(s.allocations i).live) with
  | none =>
    have hfull : ∀ i, (s.allocations i).live = true := by
      intro i
      have hi := firstSlot_eq_none.mp hslot i
      simpa using hi
    exact Or.inl ⟨allocate_full hfull, Or.inr (Or.inl hfull)⟩
  | some slot =>
    have hsearch := allocate_search hpool hne hle hround hslot
    have hspec := hwrap.searchSpec hinv
    generalize search s.allocations s.config.poolBytes (alignUp4 bytes) searchFuel 0 = found at hsearch hspec
    match found, hspec with
    | some none, hnone =>
      refine Or.inl ⟨hsearch, Or.inr (Or.inr ?_)⟩
      rintro c ⟨hin, hclear⟩
      exact hnone c (Nat.zero_le _) hin (clear_liveSpans.mpr hclear)
    | some (some c), ⟨_, hin, hclear, hleast⟩ =>
      refine Or.inr ⟨slot, c, hne, rfl, ⟨hin, clear_liveSpans.mp hclear⟩, ?_, halign, hsearch⟩
      rintro d hd ⟨-, hclear'⟩
      exact hleast d (Nat.zero_le _) hd (clear_liveSpans.mpr hclear')

/-- **`Allocate` is exact first fit.** With a pool below 2 GiB, after every run and for every request: the search
    ends; the answer is zero iff the request is empty, or no slot is free, or the rounded request fits nowhere;
    and otherwise it is the lowest free slot plus one, with the rounded size and the least offset that fits
    recorded there, and no other slot touched. -/
theorem allocate_first_fit (config : Config) (hpool : config.hasPool = true)
    (hbytes : config.poolBytes.toNat < 2 ^ 31) (ops : List WireOp) (bytes : UInt32) :
    let s := after config ops
    let size := roundUp4 bytes.toNat
    let t := (s.allocate bytes).1
    let handle := (s.allocate bytes).2
    search s.allocations s.config.poolBytes (alignUp4 bytes) searchFuel 0 ≠ none ∧
    (handle = 0 ↔ bytes = 0 ∨ (∀ i, (s.allocations i).live = true) ∨ ∀ c, ¬ s.Fits size c) ∧
    (handle ≠ 0 → ∃ slot c, handle.toNat = slot.val + 1 ∧ (s.allocations slot).live = false ∧
      (∀ i, i < slot → (s.allocations i).live = true) ∧ s.Fits size c ∧ (∀ d, d < c → ¬ s.Fits size d) ∧
      (t.allocations slot).live = true ∧ (t.allocations slot).offset.toNat = c ∧
      (t.allocations slot).size.toNat = size ∧ ∀ i, i ≠ slot → t.allocations i = s.allocations i) := by
  intro s size t handle
  have hp : s.config.hasPool = true := by
    show (after config ops).config.hasPool = true
    rw [after_config]
    exact hpool
  have hsmall : s.config.poolBytes.toNat < 2 ^ 31 := by
    show (after config ops).config.poolBytes.toNat < _
    rw [after_poolBytes]
    exact hbytes
  have hinv : TableInv s.config.poolBytes.toNat s.allocations := by
    show TableInv (after config ops).config.poolBytes.toNat _
    rw [after_poolBytes]
    exact tableInv_after hbytes ops
  refine ⟨search_terminates hsmall hinv _, ?_⟩
  rcases allocate_spec hp hinv (allocFits_of_small hsmall hinv bytes) with
    ⟨heq, hwhy⟩ | ⟨slot, c, hne, hslot, hfit, hleast, halign, heq⟩
  · have hhandle : handle = 0 := congrArg Prod.snd heq
    exact ⟨⟨fun _ => hwhy, fun _ => hhandle⟩, fun h => absurd hhandle h⟩
  · have hhandle : handle = UInt32.ofNat (slot.val + 1) := congrArg Prod.snd heq
    have ht : t = s.setAllocation slot ⟨c, alignUp4 bytes, 0, true⟩ := congrArg Prod.fst heq
    have hfree : (s.allocations slot).live = false := by
      have hfound := firstSlot_some hslot
      simpa using hfound
    have hentry : t.allocations slot = ⟨c, alignUp4 bytes, 0, true⟩ := by
      rw [ht]
      exact Function.update_self _ _ _
    refine ⟨⟨fun h => ?_, ?_⟩, fun _ => ?_⟩
    · rw [hhandle] at h
      exact absurd h (slotHandle_ne_zero slot)
    · rintro (h | h | h)
      · exact absurd h hne
      · rw [h slot] at hfree
        cases hfree
      · exact absurd hfit (h _)
    · refine ⟨slot, c.toNat, ?_, hfree, ?_, hfit, hleast, ?_, ?_, ?_, ?_⟩
      · rw [hhandle, slotHandle_toNat]
      · intro i hi
        have hlive := firstSlot_lt hslot hi
        simpa using hlive
      · rw [hentry]
      · rw [hentry]
      · rw [hentry]
        exact halign
      · intro i hi
        rw [ht]
        exact Function.update_of_ne hi _ _

/-- With a buffer of 16 bytes live, a request for 5 goes right behind it, rounded to 8. -/
theorem allocate_first_fit_second :
    let s := after { hasPool := true, poolBytes := 65536 } [.writeReg 0 16, .exec HighCommand.alloc.code 0]
    (s.allocate 5).2 ≠ 0 ∧ s.Fits 8 16 ∧ ∀ d, d < 16 → ¬ s.Fits 8 d := by
  intro s
  have hgrant : (s.allocate 5).2 ≠ 0 := by decide +kernel
  have hoffset : ((s.allocate 5).1.allocations 1).offset.toNat = 16 := by decide +kernel
  have hhandle : (s.allocate 5).2.toNat = 2 := by decide +kernel
  obtain ⟨slot, c, hslot, -, -, hfit, hleast, -, hc, -⟩ :=
    (allocate_first_fit { hasPool := true, poolBytes := 65536 } rfl (by decide)
      [.writeReg 0 16, .exec HighCommand.alloc.code 0] 5).2.2 hgrant
  have hval : slot.val + 1 = 2 := hslot.symm.trans hhandle
  obtain rfl : slot = 1 := Fin.ext (Nat.succ.inj hval)
  simp only [s] at hoffset
  obtain rfl : c = 16 := hc.symm.trans hoffset
  exact ⟨hgrant, hfit, hleast⟩

/-! ## Where the search wraps -/

section Wrap

variable {poolBytes : UInt32} {table : Fin kMaxAllocations → Allocation}

/-- **The search gets to every position first fit visits**, with fuel to spare: as long as a position ends inside
    the pool, the 32-bit loop and the walk in unbounded integers take the same step. -/
theorem search_visited (hinv : TableInv poolBytes.toNat table) {b : UInt32} {c : Nat}
    (h : Visited (liveSpans table) b.toNat poolBytes.toNat c) :
    ∃ fuel w, w.toNat = c ∧ 2 ^ 32 ≤ c + fuel ∧
      search table poolBytes b searchFuel 0 = search table poolBytes b fuel w := by
  have hpool := poolBytes.toNat_lt
  induction h with
  | start => exact ⟨searchFuel, 0, rfl, Nat.le_add_left _ _, rfl⟩
  | next h hfit hno ih =>
    obtain ⟨fuel, w, rfl, hfuel, heq⟩ := ih
    obtain ⟨fuel, rfl⟩ : ∃ k, fuel = k + 1 := Nat.exists_eq_succ_of_ne_zero (by omega)
    have hadd : (w + b).toNat = w.toNat + b.toNat := by rw [UInt32.toNat_add]; omega
    have hle : w + b ≤ poolBytes := by rw [UInt32.le_iff_toNat_le, hadd]; exact hfit
    obtain ⟨hflag, hbump⟩ := scan_spec hinv (show w.toNat + b.toNat < 2 ^ 32 by omega)
    obtain ⟨overlap, bump, hscan⟩ : ∃ overlap bump, scan table w b = (overlap, bump) := ⟨_, _, rfl⟩
    rw [hscan] at hflag hbump
    obtain rfl : overlap = true := hflag.mpr hno
    obtain ⟨hlt, x, hx, hstop⟩ := scan_bump hinv hscan
    have hself : alignUp4 bump = bump := alignUp4_of_dvd (hstop ▸ (liveSpans_stop hinv hx).1)
    refine ⟨fuel, bump, hbump, ?_, ?_⟩
    · rw [← hbump]
      show 2 ^ 32 ≤ bump.toNat + fuel
      omega
    · rw [heq, search, if_pos hle, hscan]
      simp only [hself]

/-- **A search that has wrapped never recovers.** The wrapped end passes the bound check, the next candidate is
    further up and wraps as well, and one of them is granted. -/
theorem search_wrapped (hinv : TableInv poolBytes.toNat table) {b : UInt32} :
    ∀ (fuel : Nat) (c : UInt32), c.toNat ≤ poolBytes.toNat → 2 ^ 32 ≤ c.toNat + fuel →
      2 ^ 32 ≤ c.toNat + b.toNat →
      ∃ c', search table poolBytes b fuel c = some (some c') ∧ 2 ^ 32 ≤ c'.toNat + b.toNat := by
  have hpool := poolBytes.toNat_lt
  have hb := b.toNat_lt
  intro fuel
  induction fuel with
  | zero => intro c hc hfuel; omega
  | succ fuel ih =>
    intro c hc hfuel hwrap
    have hle : c + b ≤ poolBytes := by
      rw [UInt32.le_iff_toNat_le, UInt32.toNat_add]
      omega
    unfold search
    rw [if_pos hle]
    cases hscan : scan table c b with
    | mk overlap bump =>
      cases overlap with
      | false => exact ⟨c, rfl, hwrap⟩
      | true =>
        obtain ⟨hlt, x, hx, hstop⟩ := scan_bump hinv hscan
        obtain ⟨halign, hin⟩ := liveSpans_stop hinv hx
        simp only [alignUp4_of_dvd (hstop ▸ halign)]
        exact ih bump (by omega) (by omega) (by omega)

/-- A request that rounds to `2 ^ 32` is taken for an empty one, which fits at once. -/
theorem search_zero (table : Fin kMaxAllocations → Allocation) (poolBytes : UInt32) :
    search table poolBytes 0 searchFuel 0 = some (some 0) := by
  have hscan : scan table 0 0 = (false, 0) := by
    have hlist : ∀ slots : List (Fin kMaxAllocations),
        slots.foldl (fun acc i => scanEntry 0 0 acc (table i)) (false, 0) = (false, 0) := by
      intro slots
      induction slots with
      | nil => rfl
      | cons i slots ih =>
        have hentry : scanEntry 0 0 (false, 0) (table i) = (false, 0) := by
          have hend : (0 : UInt32) + 0 ≤ (table i).offset := UInt32.le_iff_toNat_le.mpr (Nat.zero_le _)
          unfold scanEntry
          rw [if_pos (Or.inl hend), ite_self]
        rw [List.foldl_cons, hentry]
        exact ih
    exact hlist _
  have hle : (0 : UInt32) + 0 ≤ poolBytes := UInt32.le_iff_toNat_le.mpr (Nat.zero_le _)
  rw [show searchFuel = (2 ^ 32 - 1) + 1 from rfl, search, if_pos hle, hscan]

end Wrap

/-- What a granted request is owed: at least the bytes asked for, ending inside the pool, clear of every other
    live entry. -/
def GrantedInside (s : Device) (bytes : UInt32) : Prop :=
  let t := (s.allocate bytes).1
  let handle := (s.allocate bytes).2
  handle ≠ 0 → ∃ i, t.allocationForHandle handle = some i ∧ bytes.toNat ≤ (t.allocations i).size.toNat ∧
    (t.allocations i).offset.toNat + (t.allocations i).size.toNat ≤ s.config.poolBytes.toNat ∧
    ∀ j, j ≠ i → (t.allocations j).live = true → (t.allocations i).span.Apart (t.allocations j).span

/-- The state and handle of a request that was granted `c` in `slot`, looked up again. -/
theorem grantedInside_iff {s : Device} {bytes b c : UInt32} {slot : Fin kMaxAllocations}
    (h : s.allocate bytes = (s.setAllocation slot ⟨c, b, 0, true⟩, UInt32.ofNat (slot.val + 1))) :
    s.GrantedInside bytes ↔ bytes.toNat ≤ b.toNat ∧ c.toNat + b.toNat ≤ s.config.poolBytes.toNat ∧
      ∀ j, j ≠ slot → (s.allocations j).live = true →
        (Span.mk c.toNat (c.toNat + b.toNat)).Apart (s.allocations j).span := by
  have hself : (s.setAllocation slot ⟨c, b, 0, true⟩).allocations slot = ⟨c, b, 0, true⟩ :=
    Function.update_self _ _ _
  have hother : ∀ j, j ≠ slot → (s.setAllocation slot ⟨c, b, 0, true⟩).allocations j = s.allocations j :=
    fun j hj => Function.update_of_ne hj _ _
  have hfound : (s.setAllocation slot ⟨c, b, 0, true⟩).allocationForHandle (UInt32.ofNat (slot.val + 1)) =
      some slot := by
    rw [allocationForHandle_slot, hself]
    rfl
  unfold GrantedInside
  simp only [h]
  constructor
  · intro hgrant
    obtain ⟨i, hi, hsize, hin, hapart⟩ := hgrant (slotHandle_ne_zero slot)
    rw [hfound] at hi
    obtain rfl := Option.some.inj hi
    rw [hself] at hsize hin hapart
    refine ⟨hsize, hin, ?_⟩
    intro j hj hlive
    have hj' := hapart j hj
    rw [hother j hj] at hj'
    exact hj' hlive
  · rintro ⟨hsize, hin, hapart⟩ -
    refine ⟨slot, hfound, ?_⟩
    rw [hself]
    refine ⟨hsize, hin, ?_⟩
    intro j hj hlive
    rw [hother j hj] at hlive ⊢
    exact hapart j hj hlive

/-- Unless the request fits in 32 bits, the search is entered and runs past the 32-bit range. -/
theorem wraps_of_not_allocFits {s : Device} {bytes : UInt32} (hpool : s.config.hasPool = true)
    (hinv : TableInv s.config.poolBytes.toNat s.allocations) (hfits : ¬ s.AllocFits bytes) :
    ∃ slot c, s.allocate bytes = (s.setAllocation slot ⟨c, alignUp4 bytes, 0, true⟩, UInt32.ofNat (slot.val + 1)) ∧
      ((alignUp4 bytes).toNat < bytes.toNat ∨ 2 ^ 32 ≤ c.toNat + (alignUp4 bytes).toNat) := by
  obtain ⟨hle, hfull, hwrap⟩ : bytes ≤ s.config.poolBytes ∧ ¬ (∀ i, (s.allocations i).live = true) ∧
      ¬ s.NoWrap bytes := by
    simpa [AllocFits, not_or] using hfits
  obtain ⟨d, hvis, hd⟩ : ∃ d, Visited (liveSpans s.allocations) (roundUp4 bytes.toNat) s.config.poolBytes.toNat d ∧
      2 ^ 32 ≤ d + roundUp4 bytes.toNat := by
    simpa [NoWrap] using hwrap
  have hbound := s.config.poolBytes.toNat_lt
  have hdpool := (visited_bounds hinv hvis).2
  have hne : bytes ≠ 0 := by
    rintro rfl
    have hz : roundUp4 (0 : UInt32).toNat = 0 := rfl
    omega
  obtain ⟨slot, hslot⟩ : ∃ slot, firstSlot (fun i => !(s.allocations i).live) = some slot := by
    rw [not_forall] at hfull
    obtain ⟨i, hi⟩ := hfull
    exact firstSlot_isSome (i := i) (by simpa using hi)
  have hsmall := bytes.toNat_lt
  have hpos : 0 < bytes.toNat := Nat.pos_of_ne_zero (fun h0 => hne (UInt32.toNat_inj.mp h0))
  by_cases hround : roundUp4 bytes.toNat < 2 ^ 32
  · -- the rounded request fits a word: some position it visits does not
    have halign := alignUp4_eq_roundUp4 hround
    have hroom : alignUp4 bytes ≤ s.config.poolBytes := by
      rw [UInt32.le_iff_toNat_le, halign]
      rcases visited_zero_or_le hvis with h0 | h0 <;> omega
    rw [← halign] at hvis hd
    obtain ⟨fuel, w, rfl, hfuel, heq⟩ := search_visited hinv hvis
    obtain ⟨c, hc, hcwrap⟩ := search_wrapped hinv fuel w hdpool hfuel hd
    refine ⟨slot, c, ?_, Or.inr hcwrap⟩
    rw [allocate_search hpool hne hle hroom hslot, heq, hc]
    rfl
  · -- the rounding itself wraps
    have hzero : alignUp4 bytes = 0 := by
      apply UInt32.toNat_inj.mp
      rw [alignUp4_toNat]
      unfold roundUp4 at hround
      show _ = 0
      omega
    have hroom : alignUp4 bytes ≤ s.config.poolBytes := by
      rw [hzero]
      exact UInt32.le_iff_toNat_le.mpr (Nat.zero_le _)
    refine ⟨slot, 0, ?_, Or.inl ?_⟩
    · rw [allocate_search hpool hne hle hroom hslot, hzero, search_zero]
      rfl
    · rw [hzero]
      exact hpos

/-- **Over a sound table, a grant is inside the pool iff the request fits in 32 bits.** -/
theorem grantedInside_iff_allocFits {s : Device} {bytes : UInt32} (hpool : s.config.hasPool = true)
    (hinv : TableInv s.config.poolBytes.toNat s.allocations) : s.GrantedInside bytes ↔ s.AllocFits bytes := by
  constructor
  · intro hgrant
    by_contra hfits
    obtain ⟨slot, c, heq, hbad⟩ := wraps_of_not_allocFits hpool hinv hfits
    obtain ⟨hsize, hin, -⟩ := (grantedInside_iff heq).mp hgrant
    have hbound := s.config.poolBytes.toNat_lt
    omega
  · intro hfits
    rcases allocate_spec hpool hinv hfits with ⟨heq, -⟩ | ⟨slot, c, hne, hslot, ⟨hin, hclear⟩, -, halign, heq⟩
    · intro hhandle
      rw [heq] at hhandle
      exact absurd rfl hhandle
    · rw [grantedInside_iff heq, halign]
      exact ⟨le_roundUp4 _, hin, fun j _ hlive => hclear j hlive⟩

/-- Every ALLOC of the run comes with a request that fits in 32 bits at that point. -/
def AllocsFit (config : Config) (ops : List WireOp) : Prop :=
  ∀ done op, done ++ [op] <+: ops → (after config done).OpFits op

theorem AllocsFit.of_prefix {config : Config} {ops ops' : List WireOp} (h : AllocsFit config ops) (hpre : ops' <+: ops) :
    AllocsFit config ops' := fun done op hdone => h done op (hdone.trans hpre)

/-- In a pool below 2 GiB every request fits. -/
theorem allocsFit_of_small {config : Config} (hbytes : config.poolBytes.toNat < 2 ^ 31) (ops : List WireOp) :
    AllocsFit config ops := by
  intro done op _ command sequence _ _
  exact allocFits_of_small (by rw [after_poolBytes]; exact hbytes)
    (by rw [after_poolBytes]; exact tableInv_after hbytes done) _

/-- Every ALLOC of the run that is granted is granted inside the pool. -/
def AllocsInside (config : Config) (ops : List WireOp) : Prop :=
  ∀ done command sequence, done ++ [.exec command sequence] <+: ops → HighCommand.ofCode command = some .alloc →
    (after config done).GrantedInside ((after config done).stage kArg0)

/-- The table invariant along a run whose requests fit, whatever the size of the pool. -/
theorem sound_of_allocsFit {config : Config} : ∀ {ops : List WireOp}, AllocsFit config ops →
    Sound config.poolBytes (after config ops) := by
  intro ops
  induction ops using List.reverseRecOn with
  | nil =>
    intro _
    exact ⟨after_poolBytes config [], TableInv.zero⟩
  | append_singleton ops op ih =>
    intro hfits
    have hbefore : AllocsFit config ops := hfits.of_prefix (List.prefix_append ops [op])
    show Sound config.poolBytes ((machine config).run (ops ++ [op]))
    rw [Machine.run_concat]
    exact sound_step_of op (hfits ops op (List.prefix_refl _)) (ih hbefore)

theorem grantedInside_after {config : Config} (hpool : config.hasPool = true) {ops : List WireOp}
    (hfits : AllocsFit config ops) (bytes : UInt32) :
    (after config ops).GrantedInside bytes ↔ (after config ops).AllocFits bytes := by
  obtain ⟨hbytes, hinv⟩ := sound_of_allocsFit hfits
  rw [← hbytes] at hinv
  refine grantedInside_iff_allocFits ?_ hinv
  rw [after_config]
  exact hpool

/-- **When `Allocate` does not wrap.** With any pool, and for every run: all its grants are inside the pool iff all
    its requests fit in 32 bits; and then, in the state reached, a request of any size is granted its bytes, inside
    the pool and clear of the other live entries, iff it fits too. -/
theorem allocate_inside_iff (config : Config) (hpool : config.hasPool = true) (ops : List WireOp) :
    (AllocsInside config ops ↔ AllocsFit config ops) ∧
    (AllocsFit config ops → ∀ bytes, (after config ops).GrantedInside bytes ↔ (after config ops).AllocFits bytes) := by
  refine ⟨⟨?_, ?_⟩, fun hfits bytes => grantedInside_after hpool hfits bytes⟩
  · -- up to the first request that does not fit, the table is sound, so that request is granted outside
    induction ops using List.reverseRecOn with
    | nil =>
      intro _ done op hpre
      exact absurd (List.prefix_nil.mp hpre) (by simp)
    | append_singleton ops op ih =>
      intro hinside
      have hbefore : AllocsFit config ops :=
        ih (fun done command sequence hpre => hinside done command sequence (hpre.trans (List.prefix_append ops [op])))
      intro done o hpre
      rcases List.prefix_concat_iff.mp hpre with hlast | hold
      · rintro command sequence rfl hcode
        obtain ⟨rfl, -⟩ := List.append_inj' hlast rfl
        exact (grantedInside_after hpool hbefore _).mp (hinside done command sequence hpre hcode)
      · exact hbefore done o hold
  · intro hfits done command sequence hpre hcode
    have hbefore : AllocsFit config done := hfits.of_prefix ((List.prefix_append done _).trans hpre)
    exact (grantedInside_after hpool hbefore _).mpr (hfits done _ hpre command sequence rfl hcode)

/-- The adapters' pool: whatever has been allocated in 64 KiB, the next grant is inside. -/
theorem allocate_inside_adapters :
    let config : Config := { hasPool := true, poolBytes := 65536 }
    let ops : List WireOp := [.writeReg 0 16, .exec HighCommand.alloc.code 0]
    AllocsInside config ops ∧ (after config ops).GrantedInside 5 := by
  intro config ops
  have hfits : AllocsFit config ops := allocsFit_of_small (by decide) ops
  obtain ⟨hrun, hnext⟩ := allocate_inside_iff config rfl ops
  constructor
  · exact hrun.mpr hfits
  · refine (hnext hfits 5).mpr ?_
    exact allocFits_of_small (by rw [after_poolBytes]; decide)
      (by rw [after_poolBytes]; exact tableInv_after (by decide) ops) _

/-- A pool of 2 GiB, taken by one allocation: a second request for all of it is granted too, behind the end. -/
theorem allocate_wraps :
    ¬ (after { hasPool := true, poolBytes := 0x80000000 }
      [.writeReg 0 0x80000000, .exec HighCommand.alloc.code 0]).GrantedInside 0x80000000 := by
  intro hgrant
  obtain ⟨i, hi, -, hin, -⟩ := hgrant (by decide +kernel)
  have hslot : (((after { hasPool := true, poolBytes := 0x80000000 }
      [.writeReg 0 0x80000000, .exec HighCommand.alloc.code 0]).allocate 0x80000000).1.allocationForHandle
      ((after { hasPool := true, poolBytes := 0x80000000 }
        [.writeReg 0 0x80000000, .exec HighCommand.alloc.code 0]).allocate 0x80000000).2) = some 1 := by
    decide +kernel
  obtain rfl := Option.some.inj (hi.symm.trans hslot)
  exact absurd hin (by decide +kernel)

end Device

end GekkoPak
