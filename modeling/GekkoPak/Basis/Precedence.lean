import Mathlib.Data.List.Basic

/-!
# `Basis.Precedence` — what comes before what in a sequence

`Preceded q p l`: every `p` in `l` has a `q` somewhere before it. A program that checks this usually looks at first
occurrences only; `preceded_iff_idxOf` says that this is enough, and what it leaves to be said about a sequence without
any `q`.
-/

namespace Basis

variable {α β : Type}

/-- Every `p` has a `q` before it. -/
def Preceded (q p : α → Prop) (l : List α) : Prop :=
  ∀ before x after, l = before ++ x :: after → p x → ∃ y ∈ before, q y

/-- Where nothing is `p` there is nothing to say. -/
theorem preceded_of_none {q p : α → Prop} {l : List α} (h : ∀ x ∈ l, ¬ p x) : Preceded q p l := by
  intro before x after hl hx
  exact absurd hx (h x (by rw [hl]; simp))

/-- A first `p` with a `q` before it is enough for those that follow. -/
theorem preceded_of_first {q p : α → Prop} {before after : List α} {y : α} (hnone : ∀ x ∈ before, ¬ p x)
    (hq : ∃ z ∈ before, q z) : Preceded q p (before ++ y :: after) := by
  intro before' x after' hsplit hx
  obtain ⟨z, hz, hqz⟩ := hq
  have hlen : before.length ≤ before'.length := by
    -- were it shorter, `x` would stand among those that are not `p`
    by_contra hlt
    have hget : (before ++ y :: after)[before'.length]? = some x := by rw [hsplit]; simp
    rw [List.getElem?_append_left (Nat.not_le.mp hlt)] at hget
    exact hnone x (List.mem_of_getElem? hget) hx
  refine ⟨z, ?_, hqz⟩
  have hpre' : before' <+: before ++ y :: after := by
    rw [hsplit]
    exact List.prefix_append _ _
  have hpre : before <+: before' := List.prefix_of_prefix_length_le (List.prefix_append _ _) hpre' hlen
  exact hpre.subset hz

/-- A head that is `p` has nothing before it. -/
theorem not_preceded_cons {q p : α → Prop} {x : α} {l : List α} (hx : p x) : ¬ Preceded q p (x :: l) := by
  intro h
  obtain ⟨y, hy, -⟩ := h [] x l rfl hx
  cases hy

/-- Seen through a partial function that picks out both. -/
theorem preceded_filterMap {f : α → Option β} {q p : β → Prop} {l : List α} :
    Preceded q p (l.filterMap f) ↔
      Preceded (fun x => ∃ y, f x = some y ∧ q y) (fun x => ∃ y, f x = some y ∧ p y) l := by
  constructor
  · rintro h before x after rfl ⟨y, hy, hp⟩
    obtain ⟨z, hz, hq⟩ := h (before.filterMap f) y (after.filterMap f)
      (by rw [List.filterMap_append, List.filterMap_cons_some hy]) hp
    obtain ⟨w, hw, hfw⟩ := List.mem_filterMap.mp hz
    exact ⟨w, hw, z, hfw, hq⟩
  · intro h before y after hsplit hp
    obtain ⟨l₁, l₂, rfl, hbefore, hafter⟩ := List.filterMap_eq_append_iff.mp hsplit
    obtain ⟨l₃, x, l₄, rfl, hnone, hy, -⟩ := List.filterMap_eq_cons_iff.mp hafter
    obtain ⟨w, hw, z, hfw, hq⟩ := h (l₁ ++ l₃) x l₄ (by simp) ⟨y, hy, hp⟩
    rcases List.mem_append.mp hw with hw | hw
    · exact ⟨z, hbefore ▸ List.mem_filterMap.mpr ⟨w, hw, hfw⟩, hq⟩
    · rw [hnone w hw] at hfw
      cases hfw

/-- **First occurrences decide.** -/
theorem preceded_iff_idxOf [DecidableEq α] {a b : α} {l : List α} :
    Preceded (· = b) (· = a) l ↔ (a ∈ l → b ∈ l ∧ l.idxOf b < l.idxOf a) := by
  constructor
  · intro h ha
    have hlt := List.idxOf_lt_length_of_mem ha
    have hsplit : l = l.take (l.idxOf a) ++ a :: l.drop (l.idxOf a + 1) := by
      have hget : l[l.idxOf a] = a := List.getElem_idxOf hlt
      calc l = l.take (l.idxOf a) ++ l.drop (l.idxOf a) := (List.take_append_drop _ _).symm
        _ = l.take (l.idxOf a) ++ l[l.idxOf a] :: l.drop (l.idxOf a + 1) := by rw [List.drop_eq_getElem_cons hlt]
        _ = l.take (l.idxOf a) ++ a :: l.drop (l.idxOf a + 1) := by rw [hget]
    obtain ⟨y, hy, rfl⟩ := h _ a _ hsplit rfl
    have hmem := List.mem_of_mem_take hy
    exact ⟨hmem, (List.mem_take_iff_idxOf_lt hmem).mp hy⟩
  · rintro h before x after hsplit rfl
    obtain ⟨hb, hlt⟩ := h (by rw [hsplit]; simp)
    have hle : l.idxOf x ≤ before.length := by
      rw [hsplit, List.idxOf_append]
      split
      · exact Nat.le_of_lt (List.idxOf_lt_length_of_mem (by assumption))
      · simp
    have htake := (List.mem_take_iff_idxOf_lt hb).mpr (Nat.lt_of_lt_of_le hlt hle)
    rw [hsplit, List.take_left] at htake
    exact ⟨b, htake, rfl⟩

end Basis
