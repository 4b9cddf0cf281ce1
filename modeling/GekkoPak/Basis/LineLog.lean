import Mathlib.Algebra.Order.Ring.Nat
import GekkoPak.Basis.Bytes

/-!
# `Basis.LineLog` — a bounded log that keeps a line whole or not at all

A line is appended when it fits below the capacity and dropped otherwise. As long as the log stays a line's length
below the capacity nothing has been dropped, so its length is the length of everything logged
(`length_logAll_le_iff`). What a reader has read of a log stays read of it as it grows (`Passes.mono`), and without
going back it is one stretch of it (`Passes.straight`).
-/

namespace Basis

variable {α : Type}

/-- `log` with `line` appended, when the two together stay below `cap`. -/
def keepLine (cap : Nat) (log line : List α) : List α :=
  if log.length + line.length < cap then log ++ line else log

theorem keepLine_length_lt {cap : Nat} {log : List α} (h : log.length < cap) (line : List α) :
    (keepLine cap log line).length < cap := by
  rw [keepLine]
  split
  · rwa [List.length_append]
  · exact h

/-- A log that ends a line's length below the capacity has dropped nothing, and the other way round. -/
theorem length_logAll_le_iff {cap longest n : Nat} {lines : List (List α)} (hlines : ∀ line ∈ lines, line.length ≤ longest)
    (hroom : n + longest < cap) (log : List α) :
    (lines.foldl (keepLine cap) log).length ≤ n ↔ log.length + (lines.map List.length).sum ≤ n := by
  induction lines generalizing log with
  | nil => simp
  | cons line lines ih =>
    have hline := hlines line List.mem_cons_self
    have hrest : ∀ other ∈ lines, other.length ≤ longest := fun other hmem =>
      hlines other (List.mem_cons_of_mem line hmem)
    rw [List.foldl_cons, ih hrest, List.map_cons, List.sum_cons]
    by_cases hfits : log.length + line.length < cap
    · rw [keepLine, if_pos hfits, List.length_append, Nat.add_assoc]
    · -- a dropped line leaves a log already past `n`
      rw [keepLine, if_neg hfits]
      omega

/-- A log only grows. -/
theorem prefix_keepLine (cap : Nat) (log line : List α) : log <+: keepLine cap log line := by
  rw [keepLine]
  split
  · exact List.prefix_append _ _
  · exact List.prefix_refl _

/-! ## Reading a log while it grows -/

/-- `w` is what a reader of `t` has read who began at `start`, has gone back to the beginning `restarts` times since, and
    stands at `n`. -/
inductive Passes (t : List α) (start : Nat) : Nat → Nat → List α → Prop
  | fresh : start ≤ t.length → Passes t start 0 start []
  | again {restarts n : Nat} {w : List α} : Passes t start restarts n w → Passes t start (restarts + 1) 0 w
  | on {restarts n k : Nat} {w : List α} :
      Passes t start restarts n w → n + k ≤ t.length → Passes t start restarts (n + k) (w ++ slice t n k)

theorem Passes.mono {t t' w : List α} {start restarts n : Nat} (h : Passes t start restarts n w) (hgrown : t <+: t') :
    Passes t' start restarts n w := by
  induction h with
  | fresh hn => exact .fresh (hn.trans hgrown.length_le)
  | again _ ih => exact ih.again
  | @on restarts n k w _ hk ih =>
    have hlonger := hgrown.length_le
    obtain ⟨more, rfl⟩ := hgrown
    have hsame : slice t n k = slice (t ++ more) n k := by
      rw [slice, slice, List.drop_append_of_le_length (by omega), List.take_append_of_le_length]
      rw [List.length_drop]
      omega
    rw [hsame]
    exact ih.on (hk.trans hlonger)

/-- **One pass.** A reader who has not gone back has read everything between where they began and where they stand. -/
theorem Passes.straight {t w : List α} {start restarts n : Nat} (h : Passes t start restarts n w) (hone : restarts = 0) :
    start ≤ n ∧ w = slice t start (n - start) := by
  induction h with
  | fresh => exact ⟨Nat.le_refl _, by rw [Nat.sub_self, slice, List.take_zero]⟩
  | again => cases hone
  | @on restarts n k w _ _ ih =>
    obtain ⟨hle, rfl⟩ := ih hone
    refine ⟨hle.trans (Nat.le_add_right n k), ?_⟩
    have hlen : n + k - start = n - start + k := by omega
    have hhere : t.drop n = (t.drop start).drop (n - start) := by rw [List.drop_drop, Nat.add_sub_cancel' hle]
    rw [hlen, slice, slice, slice, hhere, List.take_add]

end Basis
