import Mathlib.Data.List.Basic
import Mathlib.Logic.Function.Basic

/-!
# `Basis.Ring` — a bounded FIFO in a circular array

The usual representation: `n` slots, a read index, a write index and a count, indices advancing modulo `n`.
The structure carries its own well-formedness (`count_le`, `write_eq`), so a ring whose indices disagree
with its count cannot be built. `contents` is what the ring means, oldest first; `contents_push` and
`contents_pop` say that the two operations are the list operations.
-/

namespace Basis

/-- A ring of `n` slots. `write` always sits `count` slots after `read`. -/
structure Ring (α : Type) (n : Nat) where
  slots : Fin n → α
  read  : Fin n
  write : Fin n
  count : Nat
  count_le : count ≤ n
  write_eq : write.val = (read.val + count) % n

namespace Ring

variable {α : Type} {n : Nat}

/-- The slot `k` places after `i`. -/
def after (i : Fin n) (k : Nat) : Fin n := ⟨(i.val + k) % n, Nat.mod_lt _ (Fin.pos i)⟩

theorem after_zero (i : Fin n) : after i 0 = i := Fin.ext (Nat.mod_eq_of_lt i.isLt)

theorem after_after (i : Fin n) (j k : Nat) : after (after i j) k = after i (j + k) := by
  apply Fin.ext
  show ((i.val + j) % n + k) % n = (i.val + (j + k)) % n
  rw [Nat.mod_add_mod, Nat.add_assoc]

/-- Slots at different distances, both below `n`, are different slots. -/
theorem after_inj {i : Fin n} {j k : Nat} (hj : j < n) (hk : k < n) (h : after i j = after i k) : j = k := by
  have hv : (i.val + j) % n = (i.val + k) % n := congrArg Fin.val h
  have hi := i.isLt
  rcases Nat.lt_or_ge (i.val + j) n with h1 | h1 <;> rcases Nat.lt_or_ge (i.val + k) n with h2 | h2
  · rw [Nat.mod_eq_of_lt h1, Nat.mod_eq_of_lt h2] at hv; omega
  · rw [Nat.mod_eq_of_lt h1, Nat.mod_eq_sub_mod h2, Nat.mod_eq_of_lt (by omega)] at hv; omega
  · rw [Nat.mod_eq_sub_mod h1, Nat.mod_eq_of_lt (by omega), Nat.mod_eq_of_lt h2] at hv; omega
  · rw [Nat.mod_eq_sub_mod h1, Nat.mod_eq_of_lt (by omega), Nat.mod_eq_sub_mod h2,
      Nat.mod_eq_of_lt (by omega)] at hv; omega

theorem write_eq_after (r : Ring α n) : r.write = after r.read r.count := Fin.ext r.write_eq

/-- What the ring holds, oldest first. -/
def contents (r : Ring α n) : List α := (List.range r.count).map (fun k => r.slots (after r.read k))

@[simp] theorem contents_length (r : Ring α n) : r.contents.length = r.count := by simp [contents]

/-- The ring with every slot `x` and nothing in it. -/
def empty (x : α) (h : 0 < n) : Ring α n where
  slots := fun _ => x
  read := ⟨0, h⟩
  write := ⟨0, h⟩
  count := 0
  count_le := Nat.zero_le n
  write_eq := (Nat.zero_mod n).symm

/-! ## Push -/

/-- Append `x`, unless the ring is full; `true` iff it was appended. -/
def push (r : Ring α n) (x : α) : Ring α n × Bool :=
  if h : r.count ≥ n then (r, false)
  else
    ({ slots := Function.update r.slots r.write x
       read := r.read
       write := after r.write 1
       count := r.count + 1
       count_le := by omega
       write_eq := by
         rw [write_eq_after, after_after]
         rfl }, true)

theorem push_full {r : Ring α n} (h : n ≤ r.count) (x : α) : r.push x = (r, false) := dif_pos h

theorem push_accepted {r : Ring α n} {x : α} : (r.push x).2 = true ↔ r.count < n := by
  unfold push
  split <;> simp <;> omega

theorem contents_push {r : Ring α n} (h : r.count < n) (x : α) :
    (r.push x).1.contents = r.contents ++ [x] := by
  unfold push contents
  rw [dif_neg (by omega)]
  simp only [List.range_succ, List.map_append, List.map_cons, List.map_nil]
  congr 1
  · apply List.map_congr_left
    intro k hk
    have hk' : k < r.count := List.mem_range.mp hk
    apply Function.update_of_ne
    rw [write_eq_after]
    intro he
    have := after_inj (by omega) (by omega) he
    omega
  · rw [write_eq_after, Function.update_self]

/-! ## Pop -/

/-- Take the oldest element, if there is one. -/
def pop (r : Ring α n) : Option (α × Ring α n) :=
  if h : r.count = 0 then none
  else some (r.slots r.read,
    { slots := r.slots
      read := after r.read 1
      write := r.write
      count := r.count - 1
      count_le := by have := r.count_le; omega
      write_eq := by
        show r.write.val = (after (after r.read 1) (r.count - 1)).val
        rw [after_after, write_eq_after, show 1 + (r.count - 1) = r.count by omega] })

theorem pop_eq_none {r : Ring α n} : r.pop = none ↔ r.count = 0 := by
  unfold pop
  split <;> simp_all

theorem contents_pop {r r' : Ring α n} {x : α} (h : r.pop = some (x, r')) :
    r.contents = x :: r'.contents := by
  unfold pop at h
  split at h
  · cases h
  · rename_i hc
    obtain ⟨rfl, rfl⟩ : r.slots r.read = x ∧ _ = r' := by simpa using h
    have hcount : r.count = (r.count - 1) + 1 := by omega
    unfold contents
    conv_lhs => rw [hcount, List.range_succ_eq_map]
    simp only [List.map_cons, List.map_map, after_zero]
    congr 1
    apply List.map_congr_left
    intro k _
    simp only [Function.comp, after_after]
    rw [Nat.add_comm 1 k]

end Ring

end Basis
