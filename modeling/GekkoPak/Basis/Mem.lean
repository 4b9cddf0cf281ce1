import GekkoPak.Basis.Bytes

/-!
# `Basis.Mem` — byte memories

A memory is a total map from addresses to bytes; which addresses a program may touch is the program's
business, not the memory's. `read` copies a run of bytes out, `write` copies one in. The two facts clients
use: a write that misses a window leaves what is read there alone (`read_write_disjoint`), and a write
inside a window is a `splice` of what was read there (`read_write_inside`).
-/

namespace Basis

/-- Byte contents, address by address. -/
def Mem : Type := Nat → UInt8

namespace Mem

/-- The memory that is zero everywhere. -/
def zero : Mem := fun _ => 0

/-- The `len` bytes from `start` on. -/
def read (m : Mem) (start len : Nat) : List UInt8 := (List.range len).map (fun i => m (start + i))

/-- `m` with `bs` copied to `start`. -/
def write (m : Mem) (start : Nat) (bs : List UInt8) : Mem :=
  fun a => if start ≤ a then (bs[a - start]?).getD (m a) else m a

@[simp] theorem read_length (m : Mem) (start len : Nat) : (m.read start len).length = len := by
  simp [read]

theorem read_getElem? (m : Mem) (start len i : Nat) :
    (m.read start len)[i]? = if i < len then some (m (start + i)) else none := by
  unfold read
  rw [List.getElem?_map]
  by_cases hi : i < len
  · simp [hi]
  · simp [hi]

/-- Reads depend only on the bytes read. -/
theorem read_congr {m m' : Mem} {start len : Nat}
    (h : ∀ a, start ≤ a → a < start + len → m a = m' a) : m.read start len = m'.read start len := by
  apply List.map_congr_left
  intro i hi
  have hlt : i < len := List.mem_range.mp hi
  exact h _ (by omega) (by omega)

theorem read_eq_iff {m m' : Mem} {start len : Nat} :
    m.read start len = m'.read start len ↔ ∀ a, start ≤ a → a < start + len → m a = m' a := by
  refine ⟨?_, read_congr⟩
  intro h a hlow hhigh
  have hbyte := congrArg (·[a - start]?) h
  simp only [read_getElem?, if_pos (show a - start < len by omega), Option.some.injEq,
    show start + (a - start) = a by omega] at hbyte
  exact hbyte

/-- A read splits at any inner point. -/
theorem read_add (m : Mem) (start n k : Nat) :
    m.read start (n + k) = m.read start n ++ m.read (start + n) k := by
  unfold read
  rw [List.range_add, List.map_append, List.map_map]
  congr 1
  apply List.map_congr_left
  intro i _
  simp [Nat.add_assoc]

/-- A slice of a read is a shorter read. -/
theorem slice_read {m : Mem} {start len off n : Nat} (h : off + n ≤ len) :
    slice (m.read start len) off n = m.read (start + off) n := by
  apply List.ext_getElem?
  intro i
  simp only [slice, List.getElem?_take, List.getElem?_drop, read_getElem?]
  by_cases hi : i < n
  · simp only [hi, if_true, show off + i < len by omega, Nat.add_assoc]
  · simp [hi]

theorem take_read {m : Mem} {start n len : Nat} (h : n ≤ len) : (m.read start len).take n = m.read start n := by
  have hslice := @slice_read m start len 0 n (by omega)
  exact hslice

theorem write_apply (m : Mem) (start : Nat) (bs : List UInt8) (a : Nat) :
    m.write start bs a = if start ≤ a then (bs[a - start]?).getD (m a) else m a := rfl

theorem write_of_outside {m : Mem} {start : Nat} {bs : List UInt8} {a : Nat}
    (h : a < start ∨ start + bs.length ≤ a) : m.write start bs a = m a := by
  unfold write
  rcases h with h | h
  · rw [if_neg (by omega)]
  · by_cases hs : start ≤ a
    · rw [if_pos hs, List.getElem?_eq_none (by omega)]; rfl
    · rw [if_neg hs]

theorem write_nil (m : Mem) (start : Nat) : m.write start [] = m := by
  funext a
  exact write_of_outside (by rw [List.length_nil]; omega)

/-- A write that misses the window read leaves the reading alone. -/
theorem read_write_disjoint {m : Mem} {start len at' : Nat} {bs : List UInt8}
    (h : at' + bs.length ≤ start ∨ start + len ≤ at') :
    (m.write at' bs).read start len = m.read start len := by
  apply read_congr
  intro a h1 h2
  exact write_of_outside (by omega)

/-- A write inside the window read splices it. -/
theorem read_write_inside {m : Mem} {start len off : Nat} {bs : List UInt8}
    (h : off + bs.length ≤ len) :
    (m.write (start + off) bs).read start len = splice (m.read start len) off bs := by
  apply List.ext_getElem?
  intro i
  rw [splice_getElem? (by simpa using h), read_getElem?, read_getElem?]
  by_cases hi : i < len
  · by_cases hw : off ≤ i ∧ i < off + bs.length
    · rw [if_pos hi, if_pos hw, write_apply, if_pos (by omega),
        show start + i - (start + off) = i - off by omega, List.getElem?_eq_getElem (by omega)]
      rfl
    · rw [if_pos hi, if_neg hw, if_pos hi, write_of_outside (by omega)]
  · rw [if_neg hi, if_neg (by omega), if_neg hi]

/-- Reading back exactly what was written. -/
theorem read_write_same (m : Mem) (start : Nat) (bs : List UInt8) :
    (m.write start bs).read start bs.length = bs := by
  have h : (m.write (start + 0) bs).read start bs.length = splice (m.read start bs.length) 0 bs :=
    read_write_inside (by omega)
  rw [Nat.add_zero] at h
  rw [h, splice]
  simp

/-- Two writes end to end are one write of the two strings joined. -/
theorem write_write_append (m : Mem) (start : Nat) (xs ys : List UInt8) :
    (m.write start xs).write (start + xs.length) ys = m.write start (xs ++ ys) := by
  funext a
  rcases Nat.lt_or_ge a (start + xs.length) with ha | ha
  · rw [write_of_outside (Or.inl ha)]
    by_cases hs : start ≤ a
    · rw [write_apply, write_apply, if_pos hs, if_pos hs, List.getElem?_append_left (by omega)]
    · rw [write_of_outside (Or.inl (by omega)), write_of_outside (Or.inl (by omega))]
  · have hold : m.write start xs a = m a := write_of_outside (Or.inr ha)
    rw [write_apply (m.write start xs), hold, write_apply, if_pos ha, if_pos (by omega),
      List.getElem?_append_right (by omega), Nat.sub_sub]

/-- Reading a prefix of what was written. -/
theorem read_write_prefix {m : Mem} {start : Nat} {xs bs : List UInt8} (h : xs <+: bs) :
    (m.write start bs).read start xs.length = xs := by
  obtain ⟨rest, rfl⟩ := h
  rw [← write_write_append, read_write_disjoint (Or.inr (Nat.le_refl _)), read_write_same]

/-- Writing what is there already is the only write that changes nothing. -/
theorem write_eq_self {m : Mem} {start : Nat} {bs : List UInt8} :
    m.write start bs = m ↔ m.read start bs.length = bs := by
  constructor
  · intro h
    have hsame := read_write_same m start bs
    rw [h] at hsame
    exact hsame
  · intro h
    funext a
    by_cases hin : start ≤ a ∧ a < start + bs.length
    · have hbyte : bs[a - start]? = some (m a) := by
        rw [← h, read_getElem?, if_pos (by omega), show start + (a - start) = a by omega]
      rw [write_apply, if_pos hin.1, hbyte]
      rfl
    · exact write_of_outside (by omega)

/-! ## A memory and what lies around it -/

/-- `m` below `limit`, `outside` from there on. -/
def within (m : Mem) (limit : Nat) (outside : Mem) : Mem := fun a => if a < limit then m a else outside a

/-- A read below the limit does not see what lies past it. -/
theorem read_within {m outside : Mem} {limit start len : Nat} (h : start + len ≤ limit) :
    (m.within limit outside).read start len = m.read start len := by
  apply read_congr
  intro a _ ha
  exact if_pos (by omega)

/-- A write below the limit leaves what lies past it alone. -/
theorem write_within {m outside : Mem} {limit start : Nat} {bs : List UInt8} (h : start + bs.length ≤ limit) :
    (m.within limit outside).write start bs = (m.write start bs).within limit outside := by
  funext a
  by_cases ha : a < limit
  · simp only [within, write_apply, if_pos ha]
  · have hfree : (m.within limit outside).write start bs a = m.within limit outside a :=
      write_of_outside (Or.inr (by omega))
    rw [hfree, within, within, if_neg ha, if_neg ha]

end Mem

end Basis
