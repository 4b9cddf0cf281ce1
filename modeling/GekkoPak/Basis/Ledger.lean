import Mathlib.Data.List.AList
import Mathlib.Tactic.Ring

/-!
# `Basis.Ledger` — finite maps whose entries have a size

An allocation table that keeps a running total beside itself: entries are put in under keys that should be new, and
taken out by key. `total` is what the running total should be; `total_emplace` and `total_erase` say how it moves.
-/

namespace Basis

variable {κ ν : Type} [DecidableEq κ]

/-- `emplace`: nothing happens if the key is there. -/
def emplace (m : AList (fun _ : κ => ν)) (k : κ) (v : ν) : AList (fun _ : κ => ν) :=
  if k ∈ m then m else m.insert k v

omit [DecidableEq κ] in
/-- The sizes of the entries, added up. -/
def total (size : ν → Nat) (m : AList (fun _ : κ => ν)) : Nat := (m.entries.map (fun e => size e.2)).sum

variable {m : AList (fun _ : κ => ν)} {k : κ} {v : ν} (size : ν → Nat)

theorem total_emplace (h : k ∉ m) : total size (emplace m k v) = size v + total size m := by
  rw [emplace, if_neg h, total, AList.entries_insert_of_notMem h, List.map_cons, List.sum_cons, total]

theorem mem_emplace (h : k ∉ m) {k' : κ} : k' ∈ emplace m k v ↔ k' = k ∨ k' ∈ m := by
  rw [emplace, if_neg h, AList.mem_insert]

theorem total_erase (h : m.lookup k = some v) : total size m = size v + total size (m.erase k) := by
  have hmem : k ∈ m.entries.keys := AList.lookup_isSome.mp (by rw [h]; rfl)
  obtain ⟨v', before, after, -, hentries, herase⟩ := List.exists_of_kerase hmem
  have hv : (⟨k, v'⟩ : Sigma fun _ : κ => ν) ∈ m.entries := by rw [hentries]; simp
  have hsame : v' = v := by
    have hlookup : m.lookup k = some v' := AList.mem_lookup_iff.mpr hv
    rw [h] at hlookup
    exact (Option.some.inj hlookup).symm
  have hsplit : total size (m.erase k) = ((before ++ after).map (fun e => size e.2)).sum := by
    rw [← herase]
    rfl
  rw [hsplit, total, hentries, hsame]
  simp only [List.map_append, List.map_cons, List.sum_append, List.sum_cons]
  omega

/-- Every entry is a part of the total. -/
theorem size_le_total (h : m.lookup k = some v) : size v ≤ total size m := by
  rw [total_erase size h]
  exact Nat.le_add_right _ _

omit [DecidableEq κ] in
/-- Without keys there is nothing to add up. -/
theorem total_of_keys_nil (h : m.keys = []) : total size m = 0 := by
  have hentries : m.entries = [] := List.map_eq_nil_iff.mp h
  rw [total, hentries, List.map_nil, List.sum_nil]

end Basis
