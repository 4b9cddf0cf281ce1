import GekkoPak.Basis.Mem

/-!
# `Basis.Chunks` — a length cut into blocks

`total` units are moved in blocks of `b`, all full but the last. Nothing at all still counts as one block, an empty
one: `chunkCount` is never zero.
-/

namespace Basis

/-- How many blocks of `b` carry `total`. -/
def chunkCount (b total : Nat) : Nat := (total - 1) / b + 1

/-- The length of block `k`. -/
def chunkLen (b total k : Nat) : Nat := min b (total - b * k)

theorem succ_lt_chunkCount {b : Nat} (hb : 0 < b) (total k : Nat) :
    k + 1 < chunkCount b total ↔ b * (k + 1) < total := by
  have hdiv : k + 1 ≤ (total - 1) / b ↔ (k + 1) * b ≤ total - 1 := Nat.le_div_iff_mul_le hb
  have hpos : b ≤ b * (k + 1) := Nat.le_mul_of_pos_right b (Nat.succ_pos k)
  rw [Nat.mul_comm] at hdiv
  unfold chunkCount
  omega

/-- The blocks up to `k` make up the part of the whole below the next one. -/
theorem min_add_chunkLen (b total k : Nat) :
    min total (b * k) + chunkLen b total k = min total (b * (k + 1)) := by
  rw [chunkLen, Nat.mul_succ]
  omega

/-- The first `k` blocks of the `total` bytes at `start`. -/
def Mem.chunks (m : Mem) (b start total k : Nat) : List (List UInt8) :=
  (List.range k).map (fun j => m.read (start + b * j) (chunkLen b total j))

theorem Mem.chunks_succ (m : Mem) (b start total k : Nat) :
    m.chunks b start total (k + 1) =
      m.chunks b start total k ++ [m.read (start + b * k) (chunkLen b total k)] := by
  simp [chunks, List.range_succ]

/-- Blocks in order are the bytes in order. -/
theorem Mem.chunks_flatten (m : Mem) (b start total k : Nat) :
    (m.chunks b start total k).flatten = m.read start (min total (b * k)) := by
  induction k with
  | zero => simp [chunks, read]
  | succ k ih =>
    rw [chunks_succ, List.flatten_append, ih, List.flatten_singleton, ← min_add_chunkLen, read_add]
    rcases Nat.le_total total (b * k) with hle | hle
    · -- past the end there is nothing left to read
      have hnone : chunkLen b total k = 0 := by
        rw [chunkLen, Nat.sub_eq_zero_of_le hle, Nat.min_zero]
      rw [hnone]
      rfl
    · rw [Nat.min_eq_right hle]

theorem Mem.chunks_all (m : Mem) {b : Nat} (hb : 0 < b) (start total : Nat) :
    (m.chunks b start total (chunkCount b total)).flatten = m.read start total := by
  have hlast : total ≤ b * chunkCount b total := by
    have h := (succ_lt_chunkCount hb total ((total - 1) / b)).not.mp (Nat.lt_irrefl _)
    exact Nat.not_lt.mp h
  rw [chunks_flatten, Nat.min_eq_left hlast]

end Basis
