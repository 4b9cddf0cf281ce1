import Mathlib.Data.List.FinRange
import Mathlib.Logic.Function.Basic

/-!
# `Basis.Table` — scanning a fixed table for the first slot of a kind

`firstSlot p` is the search loop `for i in 0 .. n-1: if p i then return i`. Its specification is the obvious
one: the slot found satisfies `p` and none before it does; nothing is found exactly when nothing satisfies `p`.
-/

namespace Basis

variable {n : Nat} {α : Type}

/-- The lowest slot satisfying `p`. -/
def firstSlot (p : Fin n → Bool) : Option (Fin n) := (List.finRange n).find? p

theorem firstSlot_eq_none {p : Fin n → Bool} : firstSlot p = none ↔ ∀ i, p i = false := by
  simp [firstSlot, List.find?_eq_none]

theorem firstSlot_some {p : Fin n → Bool} {i : Fin n} (h : firstSlot p = some i) : p i = true :=
  List.find?_some h

theorem firstSlot_isSome {p : Fin n → Bool} {i : Fin n} (h : p i = true) : ∃ j, firstSlot p = some j := by
  cases hf : firstSlot p with
  | none =>
    have := firstSlot_eq_none.mp hf i
    rw [h] at this
    cases this
  | some j => exact ⟨j, rfl⟩

/-- Every slot before the one found was passed over. -/
theorem firstSlot_lt {p : Fin n → Bool} {i j : Fin n} (h : firstSlot p = some i) (hj : j < i) :
    p j = false := by
  obtain ⟨-, k, hk, hki, hbefore⟩ := List.find?_eq_some_iff_getElem.mp h
  have hik : i.val = k := by rw [← hki]; simp
  have hjk : j.val < k := by
    have : j.val < i.val := hj
    omega
  have := hbefore j.val hjk
  simpa using this

/-- A slot that is the only one of its kind is the one found. -/
theorem firstSlot_eq_of_unique {p : Fin n → Bool} {i : Fin n} (hi : p i = true)
    (hu : ∀ j, p j = true → j = i) : firstSlot p = some i := by
  obtain ⟨j, hj⟩ := firstSlot_isSome hi
  rw [hj, hu j (firstSlot_some hj)]

end Basis
