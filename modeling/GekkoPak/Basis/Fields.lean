import GekkoPak.Basis.Bytes

/-!
# `Basis.Fields` — little-endian fields of a byte image

An image is edited in place, a `k`-byte little-endian field at a time. A field set reads back (`field_setField`), leaves
the fields it does not overlap alone (`field_setField_of_disjoint`), and setting a field to what it holds is no edit at
all (`setField_field`).
-/

namespace Basis

variable {k off : Nat} {l : List UInt8}

/-- The `k`-byte field at `off`. -/
def field (k : Nat) (l : List UInt8) (off : Nat) : Nat := leNat (slice l off k)

/-- The image with the `k`-byte field at `off` set to `v`. -/
def setField (k : Nat) (l : List UInt8) (off v : Nat) : List UInt8 := splice l off (leBytes k v)

theorem setField_length (h : off + k ≤ l.length) (v : Nat) : (setField k l off v).length = l.length :=
  splice_length_inside (leBytes_length k v) h

theorem field_setField (h : off + k ≤ l.length) {v : Nat} (hv : v < 256 ^ k) : field k (setField k l off v) off = v := by
  rw [field, setField, slice_splice_same (leBytes_length k v) h, leNat_leBytes hv]

/-- What a field set leaves alone. -/
theorem slice_setField (h : off + k ≤ l.length) (v : Nat) {start len : Nat} (hd : off + k ≤ start ∨ start + len ≤ off) :
    slice (setField k l off v) start len = slice l start len :=
  slice_splice_of_disjoint (leBytes_length k v) h hd

theorem field_setField_of_disjoint (h : off + k ≤ l.length) (v : Nat) {j start : Nat}
    (hd : off + k ≤ start ∨ start + j ≤ off) : field j (setField k l off v) start = field j l start := by
  rw [field, slice_setField h v hd, field]

/-- A field is a number of its width. -/
theorem field_lt (h : off + k ≤ l.length) : field k l off < 256 ^ k := by
  have hlt := leNat_lt (slice l off k)
  rw [slice_length h] at hlt
  exact hlt

/-- Setting a field to what it holds. -/
theorem setField_field (h : off + k ≤ l.length) : setField k l off (field k l off) = l := by
  have hbytes : leBytes k (field k l off) = slice l off k := leBytes_eq_of_leNat (slice_length h) rfl
  rw [setField, hbytes]
  exact splice_eq_self (slice_length h) h rfl

/-- Setting a field only where it differs. -/
theorem setField_unless (h : off + k ≤ l.length) (v : Nat) :
    (if field k l off = v then l else setField k l off v) = setField k l off v := by
  by_cases hv : field k l off = v
  · subst hv
    rw [if_pos rfl, setField_field h]
  · rw [if_neg hv]

end Basis
