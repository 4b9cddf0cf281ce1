import GekkoPak.Basis.Mem

/-!
# `Basis.Circle` — a memory read and written around a circle

The first `n` bytes of a memory, taken as a circle: position `p` is byte `p % n`. `lap` reads from any position on;
`copyIn` and `copyOut` are the two copies, up to the end of the array and on from its start, that such a transfer is made
of. A copy in is what is read back at its position, and leaves everything else on the circle alone.
-/

namespace Basis

namespace Mem

variable {m : Mem} {n : Nat}

/-- The `len` bytes from position `pos` on. -/
def lap (m : Mem) (n pos len : Nat) : List UInt8 := (List.range len).map (fun i => m ((pos + i) % n))

@[simp] theorem lap_length (m : Mem) (n pos len : Nat) : (m.lap n pos len).length = len := by simp [lap]

theorem lap_getElem? (m : Mem) (n pos len i : Nat) :
    (m.lap n pos len)[i]? = if i < len then some (m ((pos + i) % n)) else none := by
  unfold lap
  rw [List.getElem?_map]
  by_cases hi : i < len
  · simp [hi]
  · simp [hi]

theorem lap_add (m : Mem) (n pos len k : Nat) : m.lap n pos (len + k) = m.lap n pos len ++ m.lap n (pos + len) k := by
  unfold lap
  rw [List.range_add, List.map_append, List.map_map]
  congr 1
  apply List.map_congr_left
  intro i _
  simp [Nat.add_assoc]

/-- Positions a whole turn apart are one. -/
theorem lap_congr {p q : Nat} (h : p % n = q % n) (m : Mem) (len : Nat) : m.lap n p len = m.lap n q len := by
  apply List.map_congr_left
  intro i _
  show m ((p + i) % n) = m ((q + i) % n)
  rw [Nat.add_mod, h, ← Nat.add_mod]

theorem take_lap (m : Mem) (n pos len k : Nat) : (m.lap n pos len).take k = m.lap n pos (min k len) := by
  rw [lap, ← List.map_take, List.take_range]
  rfl

theorem drop_lap (m : Mem) (n pos len k : Nat) : (m.lap n pos len).drop k = m.lap n (pos + k) (len - k) := by
  rcases Nat.le_total k len with hk | hk
  · have hsplit : m.lap n pos len = m.lap n pos k ++ m.lap n (pos + k) (len - k) := by
      rw [← lap_add, Nat.add_sub_cancel' hk]
    rw [hsplit, List.drop_left' (lap_length m n pos k)]
  · rw [List.drop_of_length_le (by rw [lap_length]; exact hk), Nat.sub_eq_zero_of_le hk]
    rfl

/-! ## The two copies -/

/-- `bs`, copied in at byte `pos`. -/
def copyIn (m : Mem) (n pos : Nat) (bs : List UInt8) : Mem :=
  if bs.length ≤ n - pos then m.write pos bs
  else (m.write pos (bs.take (n - pos))).write 0 (bs.drop (n - pos))

/-- `len` bytes, copied out from byte `pos` on. -/
def copyOut (m : Mem) (n pos len : Nat) : List UInt8 :=
  if len ≤ n - pos then m.read pos len else m.read pos (n - pos) ++ m.read 0 (len - (n - pos))

/-- The byte `i` places on, before or past the end of the array. -/
theorem position_cases {pos i : Nat} (hpos : pos < n) (hi : i < n) :
    (i < n - pos ∧ (pos + i) % n = pos + i) ∨ (n - pos ≤ i ∧ (pos + i) % n = i - (n - pos)) := by
  rcases Nat.lt_or_ge (pos + i) n with h | h
  · exact Or.inl ⟨by omega, Nat.mod_eq_of_lt h⟩
  · refine Or.inr ⟨by omega, ?_⟩
    rw [Nat.mod_eq_sub_mod h, Nat.mod_eq_of_lt (by omega)]
    omega

theorem copyOut_eq_lap {pos len : Nat} (hpos : pos < n) (hlen : len ≤ n) : m.copyOut n pos len = m.lap n pos len := by
  apply List.ext_getElem?
  intro i
  unfold copyOut
  split
  · rename_i hlin
    rw [read_getElem?, lap_getElem?]
    split
    · rcases position_cases hpos (show i < n by omega) with ⟨_, hp⟩ | ⟨hge, _⟩
      · rw [hp]
      · omega
    · rfl
  · rw [List.getElem?_append, read_length, read_getElem?, read_getElem?, lap_getElem?]
    by_cases hi : i < len
    · rw [if_pos hi]
      rcases position_cases hpos (show i < n by omega) with ⟨hlt, hp⟩ | ⟨hge, hp⟩
      · rw [if_pos hlt, if_pos hlt, hp]
      · rw [if_neg (by omega), if_pos (by omega), hp, Nat.zero_add]
    · rw [if_neg hi, if_neg (by omega), if_neg (by omega)]

/-- What the circle holds after a copy, seen from where the copy began. -/
theorem copyIn_apply {pos i : Nat} {bs : List UInt8} (hpos : pos < n) (hlen : bs.length ≤ n) (hi : i < n) :
    m.copyIn n pos bs ((pos + i) % n) = (bs[i]?).getD (m ((pos + i) % n)) := by
  unfold copyIn
  rcases position_cases hpos hi with ⟨hlt, hp⟩ | ⟨hge, hp⟩ <;> rw [hp]
  · split
    · rw [write, if_pos (Nat.le_add_right pos i), Nat.add_sub_cancel_left]
    · have hshort : (bs.drop (n - pos)).length ≤ pos + i := by rw [List.length_drop]; omega
      rw [write, if_pos (Nat.zero_le _), Nat.sub_zero, List.getElem?_eq_none hshort, Option.getD_none, write,
        if_pos (Nat.le_add_right pos i), Nat.add_sub_cancel_left, List.getElem?_take, if_pos hlt]
  · split
    · rw [write, if_neg (by omega), List.getElem?_eq_none (by omega), Option.getD_none]
    · rw [write, if_pos (Nat.zero_le _), Nat.sub_zero, List.getElem?_drop, show n - pos + (i - (n - pos)) = i by omega, write,
        if_neg (by omega)]

/-- What was copied in is what is read there. -/
theorem lap_copyIn_same {pos : Nat} {bs : List UInt8} (hpos : pos < n) (hlen : bs.length ≤ n) :
    (m.copyIn n pos bs).lap n pos bs.length = bs := by
  apply List.ext_getElem?
  intro i
  rw [lap_getElem?]
  split
  · rename_i hi
    rw [copyIn_apply hpos hlen (by omega), List.getElem?_eq_getElem hi, Option.getD_some]
  · rename_i hi
    exact (List.getElem?_eq_none (by omega)).symm

/-- A stretch that ends where the copy begins, and does not reach round to its end, is left alone. -/
theorem lap_copyIn_before {start len pos : Nat} {bs : List UInt8} (hpos : pos < n) (hend : (start + len) % n = pos)
    (hroom : len + bs.length ≤ n) : (m.copyIn n pos bs).lap n start len = m.lap n start len := by
  apply List.map_congr_left
  intro i hi
  have hi' : i < len := List.mem_range.mp hi
  -- `n - (len - i)` places on from `pos` is where this byte lies
  have hplace : (start + i) % n = (pos + (n - (len - i))) % n := by
    rw [← hend, Nat.mod_add_mod, show start + len + (n - (len - i)) = start + i + n by omega, Nat.add_mod_right]
  rw [hplace, copyIn_apply hpos (by omega) (by omega), List.getElem?_eq_none (by omega), Option.getD_none]

end Mem

end Basis
