import GekkoPak.Basis.Span
import GekkoPak.Device.Invariant
import GekkoPak.Device.Correctness.Parser

/-!
# `Device.Correctness.Alloc` — the allocation table and the bounds of every pool access

`TableInv` is the invariant of the table: every live entry is aligned, non-empty, inside the pool and not
marked past its end, and live entries do not overlap. Offsets and sizes are 32-bit words; with a pool below
2 GiB none of the sums the code forms wraps, so the words can be read as numbers (`search_spec` is the loop of
`Allocate` against `Basis.Span`'s first fit). `TableInv` in turn bounds every access the device makes.
-/

namespace GekkoPak

open Basis

namespace Device

/-! ## Words -/

theorem alignUp4_toNat (v : UInt32) : (alignUp4 v).toNat = (v.toNat + 3) % 2 ^ 32 / 4 * 4 := by
  unfold alignUp4
  rw [UInt32.toNat_and, UInt32.toNat_add, show (~~~3 : UInt32).toNat = 4294967292 from rfl]
  exact and_highMask (k := 2) (n := 30) (Nat.mod_lt _ (by decide))

/-- A word that is a multiple of four already is its own rounding. -/
theorem alignUp4_of_dvd {v : UInt32} (h : 4 ∣ v.toNat) : alignUp4 v = v := by
  have hlt := v.toNat_lt
  apply UInt32.toNat_inj.mp
  rw [alignUp4_toNat]
  omega

/-- The least multiple of four that is not below `n`, in unbounded integers. -/
def roundUp4 (n : Nat) : Nat := (n + 3) / 4 * 4

/-- `AlignUp4` is the rounding, unless that needs the 33rd bit. -/
theorem alignUp4_eq_roundUp4 {v : UInt32} (h : roundUp4 v.toNat < 2 ^ 32) :
    (alignUp4 v).toNat = roundUp4 v.toNat := by
  rw [alignUp4_toNat]
  unfold roundUp4 at h ⊢
  omega

theorem max32_toNat (a b : UInt32) : (max32 a b).toNat = max a.toNat b.toNat := by
  unfold max32
  split
  · rename_i h
    rw [gt_iff_lt, UInt32.lt_iff_toNat_lt] at h
    omega
  · rename_i h
    rw [gt_iff_lt, UInt32.lt_iff_toNat_lt] at h
    omega

/-- The bounds check of UPLOAD and of descriptors, read as numbers: no wrap, and the range is inside. -/
theorem range_check {off len size : UInt32} (hoff : off ≤ size) (hlen : len ≤ size - off) :
    (off + len).toNat = off.toNat + len.toNat ∧ off.toNat + len.toNat ≤ size.toNat := by
  have hs := size.toNat_lt
  rw [UInt32.le_iff_toNat_le, UInt32.toNat_sub_of_le _ _ hoff] at hlen
  rw [UInt32.le_iff_toNat_le] at hoff
  rw [UInt32.toNat_add]
  omega

end Device

/-! ## The table -/

namespace Allocation

/-- The pool bytes an entry owns. -/
def span (a : Allocation) : Span := ⟨a.offset.toNat, a.offset.toNat + a.size.toNat⟩

/-- What every live entry satisfies. -/
structure Valid (poolBytes : Nat) (a : Allocation) : Prop where
  offset_aligned : 4 ∣ a.offset.toNat
  size_aligned   : 4 ∣ a.size.toNat
  size_pos       : 0 < a.size.toNat
  in_pool        : a.offset.toNat + a.size.toNat ≤ poolBytes
  uploaded_le    : a.uploaded.toNat ≤ a.size.toNat

/-- The end of a valid entry, as the code computes it. -/
theorem Valid.stop_toNat {poolBytes : Nat} {a : Allocation} (h : a.Valid poolBytes) (hpool : poolBytes < 2 ^ 32) :
    (a.offset + a.size).toNat = a.span.stop := by
  have hin := h.in_pool
  rw [UInt32.toNat_add]
  show _ = a.offset.toNat + a.size.toNat
  omega

end Allocation

/-- **The table invariant.** -/
structure TableInv (poolBytes : Nat) (table : Fin kMaxAllocations → Allocation) : Prop where
  valid : ∀ i, (table i).live = true → (table i).Valid poolBytes
  apart : ∀ i j, i ≠ j → (table i).live = true → (table j).live = true →
    (table i).span.Apart (table j).span

namespace TableInv

variable {poolBytes : Nat} {table : Fin kMaxAllocations → Allocation}

theorem zero : TableInv poolBytes (fun _ => Allocation.zero) := by
  constructor
  · intro i h; cases h
  · intro i j _ h; cases h

/-- Replacing one entry keeps the invariant if the new entry, when live, is valid and clear of the others. -/
theorem update (h : TableInv poolBytes table) {i : Fin kMaxAllocations} {a : Allocation}
    (hvalid : a.live = true → a.Valid poolBytes)
    (hapart : a.live = true → ∀ j, j ≠ i → (table j).live = true → a.span.Apart (table j).span) :
    TableInv poolBytes (Function.update table i a) := by
  constructor
  · intro j hj
    by_cases hji : j = i
    · subst hji
      rw [Function.update_self] at hj ⊢
      exact hvalid hj
    · rw [Function.update_of_ne hji] at hj ⊢
      exact h.valid j hj
  · intro j k hjk hj hk
    by_cases hji : j = i
    · subst hji
      rw [Function.update_self] at hj ⊢
      rw [Function.update_of_ne (Ne.symm hjk)] at hk ⊢
      exact hapart hj k (Ne.symm hjk) hk
    · rw [Function.update_of_ne hji] at hj ⊢
      by_cases hki : k = i
      · subst hki
        rw [Function.update_self] at hk ⊢
        exact (hapart hk j hji hj).symm
      · rw [Function.update_of_ne hki] at hk ⊢
        exact h.apart j k hjk hj hk

/-- FREE keeps the invariant. -/
theorem free (h : TableInv poolBytes table) (i : Fin kMaxAllocations) :
    TableInv poolBytes (Function.update table i { table i with live := false, uploaded := 0 }) :=
  h.update (fun hl => by cases hl) (fun hl => by cases hl)

/-- Moving an entry's mark, within its size, keeps the invariant. -/
theorem mark (h : TableInv poolBytes table) {i : Fin kMaxAllocations} {m : UInt32}
    (hlive : (table i).live = true) (hm : m.toNat ≤ (table i).size.toNat) :
    TableInv poolBytes (Function.update table i { table i with uploaded := m }) := by
  refine h.update ?_ ?_
  · intro _
    have hv := h.valid i hlive
    exact ⟨hv.offset_aligned, hv.size_aligned, hv.size_pos, hv.in_pool, hm⟩
  · intro _ j hj hjl
    exact h.apart i j (Ne.symm hj) hlive hjl

end TableInv

/-! ## The search -/

/-- The spans of the live entries among `slots`, in order. -/
def occupied (table : Fin kMaxAllocations → Allocation) (slots : List (Fin kMaxAllocations)) : List Span :=
  (slots.filter (fun i => (table i).live)).map (fun i => (table i).span)

theorem mem_occupied {table : Fin kMaxAllocations → Allocation} {slots : List (Fin kMaxAllocations)} {x : Span} :
    x ∈ occupied table slots ↔ ∃ i ∈ slots, (table i).live = true ∧ (table i).span = x := by
  simp [occupied, and_assoc]

namespace Device

section Search

variable {poolBytes : UInt32} {table : Fin kMaxAllocations → Allocation}

/-- The overlap test of the scan is `Span.Apart`, as long as the candidate's end does not wrap. -/
theorem scanEntry_live {poolBytes : Nat} (hpool : poolBytes < 2 ^ 32) {c b : UInt32}
    (hcb : c.toNat + b.toNat < 2 ^ 32) {a : Allocation} (hlive : a.live = true) (ha : a.Valid poolBytes)
    (acc : Bool × UInt32) :
    scanEntry c b acc a =
      if (Span.mk c.toNat (c.toNat + b.toNat)).Apart a.span then acc
      else (true, max32 acc.2 (a.offset + a.size)) := by
  have hend : (c + b).toNat = c.toNat + b.toNat := by rw [UInt32.toNat_add]; omega
  have htest : (c + b ≤ a.offset ∨ c ≥ a.offset + a.size) ↔
      (Span.mk c.toNat (c.toNat + b.toNat)).Apart a.span := by
    rw [UInt32.le_iff_toNat_le, ge_iff_le, UInt32.le_iff_toNat_le, hend, ha.stop_toNat hpool]
    exact Iff.rfl
  unfold scanEntry
  rw [hlive]
  simp only [Bool.not_true, Bool.false_eq_true, if_false, htest]

/-- **One pass over part of the table**: the flag says whether something overlaps, the word is the skip. -/
theorem scanList_spec {poolBytes : Nat} (hpool : poolBytes < 2 ^ 32)
    (hvalid : ∀ i, (table i).live = true → (table i).Valid poolBytes) {c b : UInt32}
    (hcb : c.toNat + b.toNat < 2 ^ 32) (slots : List (Fin kMaxAllocations)) :
    ∀ acc : Bool × UInt32,
      let r := slots.foldl (fun acc i => scanEntry c b acc (table i)) acc
      (r.1 = true ↔ acc.1 = true ∨ ¬ Clear (occupied table slots) c.toNat b.toNat) ∧
      r.2.toNat = skipFrom c.toNat b.toNat (occupied table slots) acc.2.toNat := by
  induction slots with
  | nil => intro acc; simp [occupied, Clear, skipFrom]
  | cons i slots ih =>
    intro acc
    simp only [List.foldl_cons]
    cases hlive : (table i).live with
    | false =>
      have hocc : occupied table (i :: slots) = occupied table slots := by simp [occupied, hlive]
      have hentry : scanEntry c b acc (table i) = acc := by simp [scanEntry, hlive]
      rw [hocc, hentry]
      exact ih acc
    | true =>
      have hocc : occupied table (i :: slots) = (table i).span :: occupied table slots := by
        simp [occupied, hlive]
      rw [hocc, scanEntry_live hpool hcb hlive (hvalid i hlive)]
      by_cases hapart : (Span.mk c.toNat (c.toNat + b.toNat)).Apart (table i).span
      · rw [if_pos hapart, skipFrom_apart hapart]
        obtain ⟨hflag, hfar⟩ := ih acc
        refine ⟨hflag.trans ?_, hfar⟩
        simp [Clear, hapart]
      · -- an overlap sets the flag for good; only the skip depends on the rest of the table
        rw [if_neg hapart, skipFrom_overlap hapart]
        obtain ⟨hflag, hfar⟩ := ih (true, max32 acc.2 ((table i).offset + (table i).size))
        refine ⟨hflag.trans ?_, ?_⟩
        · simp [Clear, hapart]
        · rw [hfar, max32_toNat, (hvalid i hlive).stop_toNat hpool]

/-- The spans first fit has to avoid. -/
def liveSpans (table : Fin kMaxAllocations → Allocation) : List Span :=
  occupied table (List.finRange kMaxAllocations)

theorem mem_liveSpans {x : Span} :
    x ∈ liveSpans table ↔ ∃ i, (table i).live = true ∧ (table i).span = x := by
  simp [liveSpans, mem_occupied]

/-- **Where a pass sends the search**, wrapped or not: to the end of some live entry past the candidate. -/
theorem scan_bump (hinv : TableInv poolBytes.toNat table) {c b bump : UInt32}
    (hscan : scan table c b = (true, bump)) :
    c.toNat < bump.toNat ∧ ∃ x ∈ liveSpans table, bump.toNat = x.stop := by
  have hpool := poolBytes.toNat_lt
  -- what the scan has found so far, entry by entry
  have hlist : ∀ (slots : List (Fin kMaxAllocations)) (acc : Bool × UInt32),
      (acc.1 = true → c.toNat < acc.2.toNat ∧ ∃ x ∈ liveSpans table, acc.2.toNat = x.stop) →
      (acc.1 = false → acc.2 = c) →
      let r := slots.foldl (fun acc i => scanEntry c b acc (table i)) acc
      r.1 = true → c.toNat < r.2.toNat ∧ ∃ x ∈ liveSpans table, r.2.toNat = x.stop := by
    intro slots
    induction slots with
    | nil => intro acc hfound _; exact hfound
    | cons i slots ih =>
      intro acc hfound hnone
      rw [List.foldl_cons]
      by_cases hhit : (table i).live = true ∧
          ¬ (c + b ≤ (table i).offset ∨ c ≥ (table i).offset + (table i).size)
      · obtain ⟨hlive, hover⟩ := hhit
        have hentry : scanEntry c b acc (table i) = (true, max32 acc.2 ((table i).offset + (table i).size)) := by
          unfold scanEntry
          rw [hlive]
          simp only [Bool.not_true, Bool.false_eq_true, if_false, if_neg hover]
        have hpast : c.toNat < (table i).span.stop := by
          rw [not_or] at hover
          have hlt := hover.2
          rw [ge_iff_le, UInt32.le_iff_toNat_le, (hinv.valid i hlive).stop_toNat hpool] at hlt
          omega
        have hmem : (table i).span ∈ liveSpans table := mem_liveSpans.mpr ⟨i, hlive, rfl⟩
        rw [hentry]
        refine ih _ (fun _ => ?_) (fun h => by cases h)
        simp only [max32_toNat, (hinv.valid i hlive).stop_toNat hpool]
        refine ⟨by omega, ?_⟩
        rcases Nat.le_total acc.2.toNat (table i).span.stop with hle | hle
        · exact ⟨_, hmem, Nat.max_eq_right hle⟩
        · cases hacc : acc.1 with
          | true =>
            obtain ⟨-, x, hx, hstop⟩ := hfound hacc
            exact ⟨x, hx, (Nat.max_eq_left hle).trans hstop⟩
          | false =>
            rw [hnone hacc] at hle
            omega
      · have hentry : scanEntry c b acc (table i) = acc := by
          unfold scanEntry
          cases hlive : (table i).live with
          | false => rfl
          | true =>
            simp only [Bool.not_true, Bool.false_eq_true, if_false]
            exact if_pos (not_not.mp (fun hover => hhit ⟨hlive, hover⟩))
        rw [hentry]
        exact ih acc hfound hnone
  have hall := hlist (List.finRange kMaxAllocations) (false, c) (fun h => by cases h) (fun _ => rfl)
  have hfold : (List.finRange kMaxAllocations).foldl (fun acc i => scanEntry c b acc (table i)) (false, c)
      = (true, bump) := hscan
  simp only [hfold] at hall
  exact hall trivial

/-- A live entry ends aligned and inside the pool. -/
theorem liveSpans_stop (hinv : TableInv poolBytes.toNat table) {x : Span} (hx : x ∈ liveSpans table) :
    4 ∣ x.stop ∧ x.stop ≤ poolBytes.toNat := by
  obtain ⟨i, hlive, rfl⟩ := mem_liveSpans.mp hx
  have hv := hinv.valid i hlive
  have h1 := hv.offset_aligned
  have h2 := hv.size_aligned
  have h3 := hv.in_pool
  show 4 ∣ (table i).offset.toNat + (table i).size.toNat ∧ (table i).offset.toNat + (table i).size.toNat ≤ _
  omega

/-- The positions `Allocate` looks at are aligned and inside the pool. -/
theorem visited_bounds (hinv : TableInv poolBytes.toNat table) {len c : Nat}
    (h : Visited (liveSpans table) len poolBytes.toNat c) : 4 ∣ c ∧ c ≤ poolBytes.toNat := by
  rcases h.cases with rfl | ⟨x, hx, rfl⟩
  · exact ⟨⟨0, rfl⟩, Nat.zero_le _⟩
  · exact liveSpans_stop hinv hx

/-- One pass at a visited candidate whose end does not wrap: the flag says whether something overlaps, and the
    search goes on at the skip. -/
theorem scan_spec (hinv : TableInv poolBytes.toNat table) {c b : UInt32} (hcb : c.toNat + b.toNat < 2 ^ 32) :
    ((scan table c b).1 = true ↔ ¬ Clear (liveSpans table) c.toNat b.toNat) ∧
      (scan table c b).2.toNat = skip (liveSpans table) c.toNat b.toNat := by
  have h := scanList_spec poolBytes.toNat_lt hinv.valid hcb (List.finRange kMaxAllocations) (false, c)
  simpa [scan, liveSpans, skip] using h

/-- What the loop of `Allocate` promises from candidate `c` on, given what it returned. -/
def SearchSpec (poolBytes : Nat) (table : Fin kMaxAllocations → Allocation) (b c : Nat) :
    Option (Option UInt32) → Prop
  | none            => False
  | some none       => ∀ d, c ≤ d → d + b ≤ poolBytes → ¬ Clear (liveSpans table) d b
  | some (some c')  => 4 ∣ c'.toNat ∧ c'.toNat + b ≤ poolBytes ∧ Clear (liveSpans table) c'.toNat b ∧
      ∀ d, c ≤ d → d < c'.toNat → ¬ Clear (liveSpans table) d b

/-- **The loop of `Allocate` is first fit**, as long as no position it looks at ends past the 32-bit range. With
    more fuel than the pool has bytes left, it ends; what it finds is the least clear position, and it gives up
    only if there is none. Each turn that does not end moves the candidate up, so the fuel is never short. -/
theorem search_spec (hinv : TableInv poolBytes.toNat table) {b : UInt32}
    (hwrap : ∀ d, Visited (liveSpans table) b.toNat poolBytes.toNat d → d + b.toNat < 2 ^ 32) :
    ∀ (fuel : Nat) (c : UInt32), Visited (liveSpans table) b.toNat poolBytes.toNat c.toNat →
      poolBytes.toNat < c.toNat + fuel →
      SearchSpec poolBytes.toNat table b.toNat c.toNat (search table poolBytes b fuel c) := by
  intro fuel
  induction fuel with
  | zero =>
    intro c hvis hfuel
    have hc := (visited_bounds hinv hvis).2
    omega
  | succ fuel ih =>
    intro c hvis hfuel
    obtain ⟨halign, hc⟩ := visited_bounds hinv hvis
    have hcb := hwrap c.toNat hvis
    have hadd : (c + b).toNat = c.toNat + b.toNat := by rw [UInt32.toNat_add]; omega
    unfold search
    by_cases hfit : c + b ≤ poolBytes
    · rw [if_pos hfit]
      rw [UInt32.le_iff_toNat_le, hadd] at hfit
      obtain ⟨hflag, hbump⟩ := scan_spec hinv hcb
      cases hov : scan table c b with
      | mk overlap bump =>
        rw [hov] at hflag hbump
        cases overlap with
        | false =>
          have hclear : Clear (liveSpans table) c.toNat b.toNat := by
            by_contra hno
            exact absurd (hflag.mpr hno) (by simp)
          exact ⟨halign, hfit, hclear, fun d h1 h2 => absurd h1 (by omega)⟩
        | true =>
          have hno := hflag.mp rfl
          simp only at hbump
          have hvis' : Visited (liveSpans table) b.toNat poolBytes.toNat bump.toNat := by
            rw [hbump]
            exact hvis.next hfit hno
          -- the skip ends at the end of a live entry, so it is aligned and still in the pool
          obtain ⟨hlt, x, hx, hstop⟩ := scan_bump hinv hov
          have hself : alignUp4 bump = bump := alignUp4_of_dvd (hstop ▸ (liveSpans_stop hinv hx).1)
          have hrec := ih bump hvis' (by omega)
          simp only [hself]
          generalize search table poolBytes b fuel bump = res at hrec
          -- what lies between `c` and the skip was occupied, so the promise from the skip on is enough
          have hbetween : ∀ d, c.toNat ≤ d → d < bump.toNat → ¬ Clear (liveSpans table) d b.toNat :=
            fun d h1 h2 => not_clear_below_skip h1 (hbump ▸ h2)
          match res, hrec with
          | some none, hrec =>
            intro d h1 h2
            rcases Nat.lt_or_ge d bump.toNat with h | h
            · exact hbetween d h1 h
            · exact hrec d h h2
          | some (some c'), ⟨h1, h2, h3, h4⟩ =>
            refine ⟨h1, h2, h3, ?_⟩
            intro d hd hlt'
            rcases Nat.lt_or_ge d bump.toNat with h | h
            · exact hbetween d hd h
            · exact h4 d h hlt'
    · -- past the end of the pool nothing fits
      rw [if_neg hfit]
      rw [UInt32.le_iff_toNat_le, hadd] at hfit
      intro d h1 h2
      omega

end Search

/-! ## The invariant along runs -/

/-- No position the search for `bytes` looks at ends past the 32-bit range. -/
def NoWrap (s : Device) (bytes : UInt32) : Prop :=
  ∀ c, Visited (liveSpans s.allocations) (roundUp4 bytes.toNat) s.config.poolBytes.toNat c →
    c + roundUp4 bytes.toNat < 2 ^ 32

/-- A request `Allocate` can handle in 32 bits: the search is not entered, or it does not wrap. -/
def AllocFits (s : Device) (bytes : UInt32) : Prop :=
  s.config.poolBytes < bytes ∨ (∀ i, (s.allocations i).live = true) ∨ s.NoWrap bytes

/-- Under `NoWrap` the code's rounding is the true one. -/
theorem NoWrap.alignUp4_toNat {s : Device} {bytes : UInt32} (h : s.NoWrap bytes) :
    (alignUp4 bytes).toNat = roundUp4 bytes.toNat := by
  have hstart := h 0 Visited.start
  rw [Nat.zero_add] at hstart
  exact alignUp4_eq_roundUp4 hstart

/-- Under `NoWrap` the search `Allocate` makes is first fit. -/
theorem NoWrap.searchSpec {s : Device} {bytes : UInt32} (h : s.NoWrap bytes)
    (hinv : TableInv s.config.poolBytes.toNat s.allocations) :
    SearchSpec s.config.poolBytes.toNat s.allocations (roundUp4 bytes.toNat) 0
      (search s.allocations s.config.poolBytes (alignUp4 bytes) searchFuel 0) := by
  have hpool := s.config.poolBytes.toNat_lt
  rw [← h.alignUp4_toNat]
  exact search_spec hinv (by rw [h.alignUp4_toNat]; exact h) searchFuel 0 Visited.start
    (show _ < 0 + 2 ^ 32 by omega)

/-- Below 2 GiB nothing the search forms can wrap. -/
theorem allocFits_of_small {s : Device} (hpool : s.config.poolBytes.toNat < 2 ^ 31)
    (hinv : TableInv s.config.poolBytes.toNat s.allocations) (bytes : UInt32) : s.AllocFits bytes := by
  rcases UInt32.lt_or_le s.config.poolBytes bytes with hlt | hle
  · exact Or.inl hlt
  · refine Or.inr (Or.inr ?_)
    intro c hvis
    have hc := (visited_bounds hinv hvis).2
    rw [UInt32.le_iff_toNat_le] at hle
    unfold roundUp4
    omega

/-- The entry ALLOC writes is valid and clear of every live one. -/
theorem tableInv_allocated {s : Device} {bytes c : UInt32} (hfits : s.NoWrap bytes)
    (hinv : TableInv s.config.poolBytes.toNat s.allocations) (slot : Fin kMaxAllocations) (hne : bytes ≠ 0)
    (hsearch : search s.allocations s.config.poolBytes (alignUp4 bytes) searchFuel 0 = some (some c)) :
    TableInv s.config.poolBytes.toNat
      (Function.update s.allocations slot ⟨c, alignUp4 bytes, 0, true⟩) := by
  have hspec := hfits.searchSpec hinv
  rw [hsearch] at hspec
  obtain ⟨halign, hin, hclear, -⟩ := hspec
  have hpos : bytes.toNat ≠ 0 := fun h0 => hne (UInt32.toNat_inj.mp h0)
  have hsize := hfits.alignUp4_toNat
  rw [← hsize] at hin hclear
  refine hinv.update ?_ ?_
  · intro _
    unfold roundUp4 at hsize
    refine ⟨halign, ?_, ?_, hin, Nat.zero_le _⟩
    · show 4 ∣ (alignUp4 bytes).toNat
      omega
    · show 0 < (alignUp4 bytes).toNat
      omega
  · intro _ j _ hj
    exact hclear _ (mem_liveSpans.mpr ⟨j, hj, rfl⟩)

/-- An accepted write moves a mark no further than the size. -/
theorem mark_le {table : Fin kMaxAllocations → Allocation} {poolBytes : Nat} (hinv : TableInv poolBytes table)
    {i : Fin kMaxAllocations} (hlive : (table i).live = true) {off len : UInt32} (hoff : off ≤ (table i).size)
    (hlen : len ≤ (table i).size - off) :
    (max32 (table i).uploaded (off + len)).toNat ≤ (table i).size.toNat := by
  obtain ⟨hadd, hin⟩ := range_check hoff hlen
  have hup := (hinv.valid i hlive).uploaded_le
  rw [max32_toNat, hadd]
  exact Nat.max_le.mpr ⟨hup, hin⟩

theorem tableInv_staged {s : Device} {poolBytes : Nat} (hinv : TableInv poolBytes s.allocations)
    {p : ParsedDescriptor} {i : Fin kMaxAllocations} (hin : s.inputSlot p.desc = some i) :
    TableInv poolBytes (s.staged i p).allocations := by
  obtain ⟨hslot, hoff, hlen⟩ := inputSlot_some hin
  obtain ⟨-, hlive⟩ := allocationForHandle_some hslot
  unfold staged
  cases p.input with
  | none => exact hinv
  | some bs => exact hinv.mark hlive (mark_le hinv hlive hoff hlen)

/-- The table invariant, for a device working on `poolBytes` bytes of pool. -/
def Sound (poolBytes : UInt32) (s : Device) : Prop :=
  s.config.poolBytes = poolBytes ∧ TableInv poolBytes.toNat s.allocations

/-- The request of an ALLOC fits in 32 bits; other operations are none of this. -/
def OpFits (s : Device) (op : WireOp) : Prop :=
  ∀ command sequence, op = .exec command sequence → HighCommand.ofCode command = some .alloc →
    s.AllocFits (s.stage kArg0)

theorem sound_exec {poolBytes : UInt32} {s t : Device} {c : Option HighCommand} (hstep : ExecStep s c t)
    (hfits : c = some .alloc → s.AllocFits (s.stage kArg0)) (hs : Sound poolBytes s) : Sound poolBytes t := by
  obtain ⟨rfl, hinv⟩ := hs
  refine ⟨by cases hstep <;> rfl, ?_⟩
  cases hstep with
  | refused | hello | getCaps | submitted | polled | collected | completed => exact hinv
  | allocated slot c hne hle hfit hslot hsearch =>
    rcases hfits rfl with hlt | hfull | hwrap
    · exact absurd hle (UInt32.not_le.mpr hlt)
    · have hfree := firstSlot_some hslot
      rw [hfull slot] at hfree
      cases hfree
    · exact tableInv_allocated hwrap hinv slot hne hsearch
  | uploaded i _ hslot _ hoff hfit =>
    obtain ⟨-, hlive⟩ := allocationForHandle_some hslot
    exact hinv.mark hlive (mark_le hinv hlive hoff hfit)
  | freed i => exact hinv.free i

/-- **Every operation keeps the table invariant**, an ALLOC as long as its request fits. -/
theorem sound_step_of {poolBytes : UInt32} {s : Device} (op : WireOp) (hfits : s.OpFits op)
    (hs : Sound poolBytes s) : Sound poolBytes (s.step op).1 := by
  refine step_keeps_at ?_ ?_ ?_ op ?_ hs
  · -- F0, F2, F3 and the RESULT write after a block do not touch the table
    rintro u t hq ⟨hc, hinv⟩
    exact ⟨by rw [hq.config]; exact hc, by rw [hq.allocations]; exact hinv⟩
  · rintro u b share p t r hd ⟨hc, hinv⟩
    cases hd with
    | badInput | notUploaded => exact ⟨hc, hinv⟩
    | badOutput i hin | noSlot i hin | accepted i _ hin =>
      exact ⟨(congrArg Config.poolBytes (staged_config u i p)).trans hc, tableInv_staged hinv hin⟩
  · rintro u q k - hu   -- the drained queue
    exact hu
  · intro command sequence hop
    exact sound_exec (exec_step s command sequence) (fun hc => hfits command sequence hop hc) hs

/-- With a pool below 2 GiB every operation keeps the table invariant. -/
theorem sound_step {poolBytes : UInt32} (hpool : poolBytes.toNat < 2 ^ 31) {s : Device} (op : WireOp)
    (hs : Sound poolBytes s) : Sound poolBytes (s.step op).1 := by
  obtain ⟨rfl, hinv⟩ := hs
  exact sound_step_of op (fun _ _ _ _ => allocFits_of_small hpool hinv _) ⟨rfl, hinv⟩

/-- The table invariant holds after every run. -/
theorem tableInv_after {config : Config} (hpool : config.poolBytes.toNat < 2 ^ 31) (ops : List WireOp) :
    TableInv config.poolBytes.toNat (after config ops).allocations := by
  have hsound : Sound config.poolBytes (after config ops) := by
    refine Machine.invariant (M := machine config) ?_ ?_ (Machine.reachable_run _ ops)
    · exact ⟨after_poolBytes config [], TableInv.zero⟩
    · intro s op hs
      exact sound_step hpool op hs
  exact hsound.2

/-! ## The shape of the table

A block write moves marks only. Where the allocations lie, and so what every handle and every range in the
block resolves to, is decided by the state before it. -/

/-- The tables of `s` and `t` differ in marks at most. -/
def SameShape (s t : Device) : Prop :=
  ∀ i, (t.allocations i).offset = (s.allocations i).offset ∧ (t.allocations i).size = (s.allocations i).size ∧
    (t.allocations i).live = (s.allocations i).live

theorem SameShape.refl (s : Device) : SameShape s s := fun _ => ⟨rfl, rfl, rfl⟩

theorem SameShape.trans {s t u : Device} (h : SameShape s t) (h' : SameShape t u) : SameShape s u := by
  intro i
  obtain ⟨h1, h2, h3⟩ := h i
  obtain ⟨h1', h2', h3'⟩ := h' i
  exact ⟨h1'.trans h1, h2'.trans h2, h3'.trans h3⟩

theorem SameShape.span {s t : Device} (h : SameShape s t) (i : Fin kMaxAllocations) :
    (t.allocations i).span = (s.allocations i).span := by
  obtain ⟨ho, hs, -⟩ := h i
  unfold Allocation.span
  rw [ho, hs]

theorem SameShape.allocationForHandle {s t : Device} (h : SameShape s t) (handle : UInt32) :
    t.allocationForHandle handle = s.allocationForHandle handle := by
  unfold Device.allocationForHandle
  split
  · rfl
  · simp only [(h _).2.2]

theorem SameShape.inputSlot {s t : Device} (h : SameShape s t) (desc : JobDescriptorV1) :
    t.inputSlot desc = s.inputSlot desc := by
  unfold Device.inputSlot
  rw [h.allocationForHandle]
  cases s.allocationForHandle desc.inputHandle with
  | none => rfl
  | some i => simp only [(h i).2.1]

theorem sameShape_staged (s : Device) (i : Fin kMaxAllocations) (p : ParsedDescriptor) :
    SameShape s (s.staged i p) := by
  intro j
  unfold staged
  cases p.input with
  | none => exact ⟨rfl, rfl, rfl⟩
  | some bs =>
    have hother : ∀ k, k ≠ i → (s.stageInline i p.desc bs).allocations k = s.allocations k :=
      fun k hk => Function.update_of_ne hk _ _
    have hself : (s.stageInline i p.desc bs).allocations i = { s.allocations i with
        uploaded := max32 (s.allocations i).uploaded (p.desc.inputOffset + p.desc.inputLength) } :=
      Function.update_self _ _ _
    by_cases hj : j = i
    · subst hj
      simp only [hself, and_self]
    · simp only [hother j hj, and_self]

/-- A settled descriptor has moved marks at most. -/
theorem sameShape_descriptor {s t : Device} {batchSize share : UInt32} {p : ParsedDescriptor}
    {r : CompletionRecordV1} (h : DescriptorStep s batchSize share p t r) : SameShape s (t.pushCompletion r).1 := by
  cases h with
  | badInput | notUploaded => exact SameShape.refl s
  | badOutput i | noSlot i | accepted i => exact sameShape_staged s i p

/-! ## Every access is inside the allocation it names -/

/-- `t`'s history is `s`'s with events added that all satisfy `P`. -/
def Extends (P : Event → Prop) (s t : Device) : Prop := ∃ es, t.trace = s.trace ++ es ∧ ∀ e ∈ es, P e

theorem Extends.refl {P : Event → Prop} {s t : Device} (h : t.trace = s.trace) : Extends P s t :=
  ⟨[], by rw [h, List.append_nil], by simp⟩

theorem Extends.snoc {P : Event → Prop} {s t u : Device} (h : Extends P s t) {e : Event} (he : P e)
    (hu : u.trace = t.trace ++ [e]) : Extends P s u := by
  obtain ⟨es, htrace, hes⟩ := h
  refine ⟨es ++ [e], by rw [hu, htrace, List.append_assoc], ?_⟩
  intro e' he'
  rcases List.mem_append.mp he' with hmem | hmem
  · exact hes e' hmem
  · rw [List.mem_singleton.mp hmem]; exact he

/-- The handles an operation names: ARG0 for F1, the input handles of its descriptors for F4. -/
def Names (s : Device) : WireOp → UInt32 → Prop
  | .exec _ _, h => h = s.stage kArg0
  | .writeBlock _ word (some bytes), h =>
    ∃ parsed, parse bytes (blockLength word) = .ok parsed ∧ ∃ p ∈ parsed, h = p.desc.inputHandle
  | _, _ => False

/-- An access on behalf of a handle of the kind `named`, inside the live allocation of that handle in `s`. -/
def AccessWithin (s : Device) (named : UInt32 → Prop) : Event → Prop
  | .access handle start len =>
    named handle ∧ ∃ i, s.allocationForHandle handle = some i ∧
      (Span.mk start (start + len)).Inside (s.allocations i).span
  | _ => True

/-- An in-range window of an allocation is inside its span. -/
theorem window_inside {a : Allocation} (off len : Nat) (h : off + len ≤ a.size.toNat) :
    (Span.mk (a.offset.toNat + off) (a.offset.toNat + off + len)).Inside a.span := by
  constructor
  · exact Nat.le_add_right _ _
  · show a.offset.toNat + off + len ≤ a.offset.toNat + a.size.toNat
    omega

theorem exec_accesses {s : Device} {poolBytes : Nat} (hinv : TableInv poolBytes s.allocations)
    {c : Option HighCommand} {t : Device} (hstep : ExecStep s c t) :
    Extends (AccessWithin s (fun h => h = s.stage kArg0)) s t := by
  cases hstep with
  | refused | hello | getCaps | allocated | polled | collected | freed | completed => exact Extends.refl rfl
  | uploaded i checksum hslot _ hoff hfit =>
    obtain ⟨-, hlive⟩ := allocationForHandle_some hslot
    obtain ⟨-, hin⟩ := range_check hoff hfit
    have hmark := mark_le hinv hlive hoff hfit
    -- the copy of the payload, then the hash up to the new mark
    refine Extends.snoc (Extends.snoc (Extends.refl rfl)
      (e := .access (s.stage kArg0) ((s.allocations i).offset.toNat + (s.stage kArg1).toNat)
        (s.payload.read 0 (s.stage kPayloadLen).toNat).length) ?_ rfl)
      (e := .access (s.stage kArg0) (s.allocations i).offset.toNat
        (max32 (s.allocations i).uploaded (s.stage kArg1 + s.stage kPayloadLen)).toNat) ?_ rfl
    · refine ⟨rfl, i, hslot, ?_⟩
      rw [Mem.read_length]
      exact window_inside _ _ hin
    · exact ⟨rfl, i, hslot, window_inside 0 _ (by omega)⟩
  | submitted i slot hslot hfree =>
    obtain ⟨-, hlive⟩ := allocationForHandle_some hslot
    have hup := (hinv.valid i hlive).uploaded_le
    refine Extends.snoc (Extends.snoc (Extends.refl rfl)
      (e := .access (s.stage kArg0) (s.allocations i).offset.toNat (s.allocations i).uploaded.toNat) ?_ rfl)
      (e := .issued (s.submitJob i)) trivial rfl
    exact ⟨rfl, i, hslot, window_inside 0 _ (by omega)⟩

/-- The inline copy of a well-formed descriptor. -/
theorem staged_accesses {s t : Device} {named : UInt32 → Prop} (hshape : SameShape s t) {p : ParsedDescriptor}
    (hp : p.WellFormed) (hname : named p.desc.inputHandle) {i : Fin kMaxAllocations}
    (hin : t.inputSlot p.desc = some i) (h : Extends (AccessWithin s named) s t) :
    Extends (AccessWithin s named) s (t.staged i p) := by
  obtain ⟨hslot, hoff, hlen⟩ := inputSlot_some hin
  obtain ⟨-, hrange⟩ := range_check hoff hlen
  unfold staged
  cases hbs : p.input with
  | none => exact h
  | some bs =>
    refine h.snoc (e := .access p.desc.inputHandle
      ((t.allocations i).offset.toNat + p.desc.inputOffset.toNat) bs.length) ?_ rfl
    refine ⟨hname, i, (hshape.allocationForHandle _).symm.trans hslot, ?_⟩
    rw [← hshape.span i, hp.input_length hbs]
    exact window_inside _ _ hrange

theorem descriptor_accesses {s t u : Device} {named : UInt32 → Prop} {batchSize share : UInt32}
    {p : ParsedDescriptor} {r : CompletionRecordV1} (hshape : SameShape s t) (hp : p.WellFormed)
    (hname : named p.desc.inputHandle) (h : Extends (AccessWithin s named) s t)
    (hd : DescriptorStep t batchSize share p u r) :
    Extends (AccessWithin s named) s (u.pushCompletion r).1 := by
  -- the record pushed last is no access
  suffices hu : Extends (AccessWithin s named) s u from
    hu.snoc (e := .completion r _) trivial rfl
  cases hd with
  | badInput | notUploaded => exact h
  | badOutput i hin | noSlot i hin => exact staged_accesses hshape hp hname hin h
  | accepted i slot hin =>
    have hst := staged_accesses hshape hp hname hin h
    have hshape' := hshape.trans (sameShape_staged t i p)
    obtain ⟨hslot, hoff, hlen⟩ := inputSlot_some hin
    obtain ⟨-, hrange⟩ := range_check hoff hlen
    have hhash : AccessWithin s named (.access p.desc.inputHandle
        (((t.staged i p).allocations i).offset.toNat + p.desc.inputOffset.toNat) p.desc.inputLength.toNat) := by
      refine ⟨hname, i, (hshape.allocationForHandle _).symm.trans hslot, ?_⟩
      rw [← hshape'.span i]
      apply window_inside
      rw [(sameShape_staged t i p i).2.1]
      exact hrange
    exact (hst.snoc hhash (u := ((t.staged i p).poolHash _ _ _).1) rfl).snoc (e := .issued _) trivial rfl

/-- **Every access of an operation is inside the allocation it names.** -/
theorem step_accesses {s : Device} {poolBytes : Nat} (hinv : TableInv poolBytes s.allocations) (op : WireOp) :
    Extends (AccessWithin s (s.Names op)) s (s.step op).1 := by
  cases op with
  | writeReg index value => exact Extends.refl (quiet_writeReg s index value).trace
  | exec command sequence => exact exec_accesses hinv (exec_step s command sequence)
  | readReg index => exact Extends.refl rfl
  | writePayloadWord index value => exact Extends.refl (quiet_writePayloadWord s index value).trace
  | writeBlock selector word data =>
    show Extends _ s (s.writeBlock selector word data).1
    rcases writeBlock_cases s selector word data with
      ⟨heq, -⟩ | ⟨bytes, rfl, hacc, ⟨st, -, heq⟩ | ⟨parsed, hparse, heq⟩⟩
    · rw [heq]; exact Extends.refl rfl
    · rw [heq]; exact Extends.refl rfl
    · have hwf := parse_wellFormed hacc.2.2.2 hacc.2.2.1 hparse
      -- shape and history go through the loop together
      have hloop : SameShape s (s.runBlock parsed).1 ∧
          Extends (AccessWithin s (s.Names (.writeBlock selector word (some bytes)))) s (s.runBlock parsed).1 := by
        refine processDescriptors_invariant
          (I := fun t => SameShape s t ∧
            Extends (AccessWithin s (s.Names (.writeBlock selector word (some bytes)))) s t) ?_
          ⟨SameShape.refl s, Extends.refl rfl⟩
        rintro p hp t u r ⟨hshape, hext⟩ hd
        refine ⟨hshape.trans (sameShape_descriptor hd), ?_⟩
        exact descriptor_accesses hshape (hwf p hp) ⟨parsed, hparse, p, hp, rfl⟩ hext hd
      rw [heq]
      obtain ⟨es, htrace, hes⟩ := hloop.2
      exact ⟨es, htrace, hes⟩
  | readBlock selector word out =>
    show Extends _ s (s.readBlock selector word out).1
    rcases readBlock_cases s selector word out with ⟨heq, -⟩ | ⟨outBytes, q, -, -, -, heq⟩
    · rw [heq]; exact Extends.refl rfl
    · rw [heq]; exact Extends.refl rfl

/-- What an operation adds to the history. -/
def newEvents (s : Device) (op : WireOp) : List Event := (s.step op).1.trace.drop s.trace.length

theorem newEvents_of_extends {P : Event → Prop} {s : Device} {op : WireOp} (h : Extends P s (s.step op).1) :
    ∀ e ∈ s.newEvents op, P e := by
  obtain ⟨es, htrace, hes⟩ := h
  unfold newEvents
  rw [htrace, List.drop_left]
  exact hes

/-- **Allocation-table invariant and memory bounds.** With a pool below 2 GiB, after every run: every live
    entry is aligned, non-empty, inside the pool and marked no further than its size; live entries do not
    overlap; and whatever operation comes next, every copy and every hash it makes in the pool is on behalf of a
    handle it names and lies inside the one live allocation of that handle. -/
theorem memory_bounds (config : Config) (hbytes : config.poolBytes.toNat < 2 ^ 31) (ops : List WireOp) :
    TableInv config.poolBytes.toNat (after config ops).allocations ∧
    ∀ op handle start len, Event.access handle start len ∈ (after config ops).newEvents op →
      (after config ops).Names op handle ∧
      ∃ i, (after config ops).allocationForHandle handle = some i ∧
        ((after config ops).allocations i).offset.toNat ≤ start ∧
        start + len ≤ ((after config ops).allocations i).offset.toNat + ((after config ops).allocations i).size.toNat := by
  have hinv := tableInv_after hbytes ops
  refine ⟨hinv, ?_⟩
  intro op handle start len hmem
  obtain ⟨hname, i, hslot, hlo, hhi⟩ := newEvents_of_extends (step_accesses hinv op) _ hmem
  exact ⟨hname, i, hslot, hlo, hhi⟩

/-- The adapters' 64 KiB pool, after an ALLOC of 16 bytes: an UPLOAD of four bytes makes two accesses. -/
theorem memory_bounds_upload :
    let config : Config := { hasPool := true, poolBytes := 65536 }
    let ops : List WireOp := [.writeReg 0 16, .exec HighCommand.alloc.code 0, .writeReg 0 1, .writeReg 4 4]
    TableInv 65536 (after config ops).allocations ∧
    (after config ops).newEvents (.exec HighCommand.upload.code 0) = [.access 1 0 4, .access 1 0 4] := by
  constructor
  · exact (memory_bounds { hasPool := true, poolBytes := 65536 } (by decide) _).1
  · decide +kernel

end Device

end GekkoPak
