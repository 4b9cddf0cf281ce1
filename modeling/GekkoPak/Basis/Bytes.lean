import Mathlib.Data.List.Basic
import Mathlib.Tactic.Ring

/-!
# `Basis.Bytes` — little-endian digits and slices of byte strings

`leBytes k v` is the `k`-byte little-endian image of `v` and `leNat` reads such an image back; the two are
inverse to each other on images of the right length. `slice` cuts `len` bytes out of a string, and `splice`
overwrites part of one, leaving its length alone.
-/

namespace Basis

/-! ## Little-endian digits -/

/-- The low `k` bytes of `v`, least significant first. -/
def leBytes : Nat → Nat → List UInt8
  | 0,     _ => []
  | k + 1, v => UInt8.ofNat v :: leBytes k (v / 256)

/-- The number a little-endian byte string denotes. -/
def leNat : List UInt8 → Nat
  | []      => 0
  | b :: bs => b.toNat + 256 * leNat bs

@[simp] theorem leBytes_length (k v : Nat) : (leBytes k v).length = k := by
  induction k generalizing v with
  | zero => rfl
  | succ k ih => simp [leBytes, ih]

theorem leNat_lt (bs : List UInt8) : leNat bs < 256 ^ bs.length := by
  induction bs with
  | nil => simp [leNat]
  | cons b bs ih =>
    have hb : b.toNat < 256 := b.toNat_lt
    simp only [leNat, List.length_cons, Nat.pow_succ]
    omega

theorem leNat_append (bs cs : List UInt8) : leNat (bs ++ cs) = leNat bs + 256 ^ bs.length * leNat cs := by
  induction bs with
  | nil => simp [leNat]
  | cons b bs ih =>
    simp only [List.cons_append, leNat, ih, List.length_cons]
    ring

theorem leNat_leBytes {k v : Nat} (h : v < 256 ^ k) : leNat (leBytes k v) = v := by
  induction k generalizing v with
  | zero =>
    have hv : v = 0 := by simpa using h
    simp [leBytes, leNat, hv]
  | succ k ih =>
    have hq : v / 256 < 256 ^ k := by
      rw [Nat.pow_succ] at h
      omega
    have hd : (UInt8.ofNat v).toNat = v % 256 := by simp
    simp only [leBytes, leNat, ih hq, hd]
    omega

theorem leBytes_leNat (bs : List UInt8) : leBytes bs.length (leNat bs) = bs := by
  induction bs with
  | nil => rfl
  | cons b bs ih =>
    have hb : b.toNat < 256 := b.toNat_lt
    have hhead : UInt8.ofNat (b.toNat + 256 * leNat bs) = b := by
      apply UInt8.toNat_inj.mp
      rw [UInt8.toNat_ofNat']
      omega
    have htail : (b.toNat + 256 * leNat bs) / 256 = leNat bs := by omega
    simp only [List.length_cons, leNat, leBytes, hhead, htail, ih]

/-- A fixed-length string is determined by the number it denotes. -/
theorem leBytes_eq_of_leNat {bs : List UInt8} {k v : Nat} (hlen : bs.length = k) (hv : leNat bs = v) :
    leBytes k v = bs := by
  subst hlen hv
  exact leBytes_leNat bs

/-- The `k`-byte number with its bytes in the opposite order. -/
def byteSwap (k v : Nat) : Nat := leNat (leBytes k v).reverse

theorem byteSwap_lt (k v : Nat) : byteSwap k v < 256 ^ k := by
  have h := leNat_lt (leBytes k v).reverse
  rw [List.length_reverse, leBytes_length] at h
  exact h

theorem leBytes_byteSwap (k v : Nat) : leBytes k (byteSwap k v) = (leBytes k v).reverse :=
  leBytes_eq_of_leNat (by simp) rfl

/-! ## Slices -/

variable {α : Type}

/-- `len` elements of `l` from position `off` on (fewer if `l` ends before). -/
def slice (l : List α) (off len : Nat) : List α := (l.drop off).take len

theorem slice_length {l : List α} {off len : Nat} (h : off + len ≤ l.length) :
    (slice l off len).length = len := by
  simp only [slice, List.length_take, List.length_drop]
  omega

/-- Adjacent slices join. -/
theorem slice_append_slice (l : List α) (off n m : Nat) :
    slice l off n ++ slice l (off + n) m = slice l off (n + m) := by
  simp only [slice]
  rw [List.take_add, List.drop_drop]

/-- Adjacent slices join, with the second offset computed. -/
theorem slice_join {l : List α} {off n off' m : Nat} (h : off + n = off') :
    slice l off n ++ slice l off' m = slice l off (n + m) := by
  subst h
  exact slice_append_slice l off n m

theorem slice_eq_self {l : List α} {len : Nat} (h : l.length = len) : slice l 0 len = l := by
  subst h
  simp [slice]

/-- The slice that is exactly the left part of a concatenation. -/
theorem slice_append_eq_left {l r : List α} {len : Nat} (h : l.length = len) :
    slice (l ++ r) 0 len = l := by
  subst h
  simp [slice]

/-- A slice past the left part of a concatenation is a slice of the right part. -/
theorem slice_of_length_le {l r : List α} {off len : Nat} (h : l.length ≤ off) :
    slice (l ++ r) off len = slice r (off - l.length) len := by
  simp only [slice]
  rw [List.drop_append, List.drop_eq_nil_of_le h, List.nil_append]

/-! ## Overwriting part of a string -/

/-- `l` with the elements from `off` on overwritten by `bs`. -/
def splice (l : List α) (off : Nat) (bs : List α) : List α :=
  l.take off ++ bs ++ l.drop (off + bs.length)

/-- Reading a spliced string: the new elements inside the window, the old ones outside. -/
theorem splice_getElem? {l : List α} {off : Nat} {bs : List α} (h : off + bs.length ≤ l.length) (i : Nat) :
    (splice l off bs)[i]? = if off ≤ i ∧ i < off + bs.length then bs[i - off]? else l[i]? := by
  have hoff : (l.take off).length = off := by simp; omega
  simp only [splice, List.append_assoc]
  rcases Nat.lt_or_ge i off with hi | hi
  · rw [List.getElem?_append_left (by omega), if_neg (by omega), List.getElem?_take_of_lt hi]
  · rw [List.getElem?_append_right (by omega), hoff]
    rcases Nat.lt_or_ge i (off + bs.length) with hj | hj
    · rw [List.getElem?_append_left (by omega), if_pos ⟨hi, hj⟩]
    · rw [List.getElem?_append_right (by omega), if_neg (by omega), List.getElem?_drop]
      congr 1
      omega

/-- A splice that starts inside reaches to the end of what it writes, or of what was there. -/
theorem splice_length {l bs : List α} {off : Nat} (h : off ≤ l.length) :
    (splice l off bs).length = max l.length (off + bs.length) := by
  simp only [splice, List.length_append, List.length_take, List.length_drop]
  omega

theorem slice_getElem? (l : List α) (off len i : Nat) :
    (slice l off len)[i]? = if i < len then l[off + i]? else none := by
  rw [slice, List.getElem?_take]
  split
  · rw [List.getElem?_drop]
  · rfl

/-- A splice inside a string keeps its length. -/
theorem splice_length_inside {l bs : List α} {off n : Nat} (hn : bs.length = n) (h : off + n ≤ l.length) :
    (splice l off bs).length = l.length := by
  subst hn
  rw [splice_length (Nat.le_trans (Nat.le_add_right _ _) h), Nat.max_eq_left h]

/-- Reading back exactly what was spliced in. -/
theorem slice_splice_same {l bs : List α} {off n : Nat} (hn : bs.length = n) (h : off + n ≤ l.length) :
    slice (splice l off bs) off n = bs := by
  subst hn
  apply List.ext_getElem?
  intro i
  rw [slice_getElem?]
  by_cases hi : i < bs.length
  · rw [if_pos hi, splice_getElem? h, if_pos (by omega), Nat.add_sub_cancel_left]
  · rw [if_neg hi, List.getElem?_eq_none (Nat.not_lt.mp hi)]

/-- A splice that misses the window read leaves the reading alone. -/
theorem slice_splice_of_disjoint {l bs : List α} {off n start len : Nat} (hn : bs.length = n) (h : off + n ≤ l.length)
    (hd : off + n ≤ start ∨ start + len ≤ off) : slice (splice l off bs) start len = slice l start len := by
  subst hn
  apply List.ext_getElem?
  intro i
  rw [slice_getElem?, slice_getElem?]
  by_cases hi : i < len
  · rw [if_pos hi, if_pos hi, splice_getElem? h, if_neg (by omega)]
  · rw [if_neg hi, if_neg hi]

/-- Splicing in what is there already changes nothing. -/
theorem splice_eq_self {l bs : List α} {off n : Nat} (hn : bs.length = n) (h : off + n ≤ l.length)
    (hsame : slice l off n = bs) : splice l off bs = l := by
  subst hn
  apply List.ext_getElem?
  intro i
  rw [splice_getElem? h]
  split
  · rename_i hi
    rw [← hsame, slice_getElem?, if_pos (by omega)]
    congr 1
    omega
  · rfl

/-- A slice that ends inside the left part of a concatenation. -/
theorem slice_append_left {l : List α} {off len : Nat} (h : off + len ≤ l.length) (r : List α) :
    slice (l ++ r) off len = slice l off len := by
  rw [slice, slice, List.drop_append_of_le_length (by omega),
    List.take_append_of_le_length (by rw [List.length_drop]; omega)]

/-- Overwriting a whole string. -/
theorem splice_all {l bs : List α} (h : l.length ≤ bs.length) : splice l 0 bs = bs := by
  simp [splice, List.drop_eq_nil_of_le h]

/-- Splicing at the end of what is already there, over padding. -/
theorem splice_append (l pad bs : List α) :
    splice (l ++ pad) l.length bs = l ++ bs ++ pad.drop bs.length := by
  simp [splice, List.drop_append]

end Basis
