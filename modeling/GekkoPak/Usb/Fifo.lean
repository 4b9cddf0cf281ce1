import GekkoPak.Basis.Circle
import GekkoPak.Basis.Machine

/-!
# `Usb.Fifo` — the byte queue between the application and an endpoint

`ds-test/usb/tinyusb/common/tusb_fifo.c`, with items of one byte and copies to increasing addresses, as every
`tu_fifo_config` of this program sets them up. The two indices run over twice the depth, so that an overflow of up to one
more depth can be told from an empty queue; a reader corrects it.
-/

namespace GekkoPak

namespace Usb

open Basis

/-! ## Indices -/

/-- `_ff_count`. -/
def ffCount (depth wrIdx rdIdx : UInt16) : UInt16 :=
  if wrIdx ≥ rdIdx then wrIdx - rdIdx else 2 * depth - (rdIdx - wrIdx)

/-- `_ff_remaining`. -/
def ffRemaining (depth wrIdx rdIdx : UInt16) : UInt16 :=
  let count := ffCount depth wrIdx rdIdx
  if depth > count then depth - count else 0

/-- `tu_min16`. -/
def tuMin16 (x y : UInt16) : UInt16 := if x < y then x else y

theorem tuMin16_toNat (x y : UInt16) : (tuMin16 x y).toNat = min x.toNat y.toNat := by
  unfold tuMin16
  simp only [UInt16.lt_iff_toNat_lt]
  split <;> omega

theorem ffRemaining_toNat (depth wrIdx rdIdx : UInt16) :
    (ffRemaining depth wrIdx rdIdx).toNat = depth.toNat - (ffCount depth wrIdx rdIdx).toNat := by
  simp only [ffRemaining, gt_iff_lt]
  split
  · rename_i hlt
    exact UInt16.toNat_sub_of_le _ _ (UInt16.le_of_lt hlt)
  · rename_i hle
    rw [UInt16.lt_iff_toNat_lt] at hle
    rw [UInt16.toNat_zero]
    omega

/-- `advance_index`. The comparison with twice the depth is between `int`s. -/
def advanceIndex (depth idx offset : UInt16) : UInt16 :=
  let newIdx := idx + offset
  if idx > newIdx ∨ newIdx.toNat ≥ 2 * depth.toNat then
    let nonUsedIndexSpace := 0xFFFF - (2 * depth - 1)
    newIdx + nonUsedIndexSpace
  else newIdx

/-- `idx2ptr`, for the turns its loop may take. -/
def idx2ptrLoop (depth : UInt16) : Nat → UInt16 → UInt16
  | 0,          idx => idx
  | turns + 1, idx => if idx ≥ depth then idx2ptrLoop depth turns (idx - depth) else idx

/-- `idx2ptr`: "only run at most 3 times". -/
def idx2ptr (depth idx : UInt16) : UInt16 := idx2ptrLoop depth 3 idx

theorem advanceIndex_toNat {depth idx offset : UInt16} (hdepth : depth.toNat ≤ 0x8000) (hidx : idx.toNat < 2 * depth.toNat)
    (hoffset : offset ≤ depth) : (advanceIndex depth idx offset).toNat = (idx.toNat + offset.toNat) % (2 * depth.toNat) := by
  have hoffset' : offset.toNat ≤ depth.toNat := UInt16.le_iff_toNat_le.mp hoffset
  have hspace : (0xFFFF - (2 * depth - 1) : UInt16).toNat = (0x10000 - 2 * depth.toNat) % 0x10000 := by
    simp only [UInt16.toNat_sub, UInt16.toNat_mul, UInt16.reduceToNat]
    omega
  have hsum : (idx + offset).toNat = (idx.toNat + offset.toNat) % 0x10000 := UInt16.toNat_add idx offset
  unfold advanceIndex
  simp only [gt_iff_lt, UInt16.lt_iff_toNat_lt, hsum]
  split
  · rename_i hwrap
    rw [UInt16.toNat_add, hsum, hspace, Nat.mod_eq_sub_mod (a := idx.toNat + offset.toNat) (b := 2 * depth.toNat) (by omega),
      Nat.mod_eq_of_lt (a := idx.toNat + offset.toNat - 2 * depth.toNat) (by omega)]
    omega
  · rename_i hwrap
    rw [hsum, Nat.mod_eq_of_lt (a := idx.toNat + offset.toNat) (b := 2 * depth.toNat) (by omega)]
    omega

theorem advanceIndex_lt {depth idx offset : UInt16} (hpos : 0 < depth) (hdepth : depth.toNat ≤ 0x8000)
    (hidx : idx.toNat < 2 * depth.toNat) (hoffset : offset ≤ depth) :
    (advanceIndex depth idx offset).toNat < 2 * depth.toNat := by
  have hpos' : 0 < depth.toNat := UInt16.lt_iff_toNat_lt.mp hpos
  rw [advanceIndex_toNat hdepth hidx hoffset]
  exact Nat.mod_lt _ (by omega)

theorem idx2ptr_toNat {depth idx : UInt16} (hidx : idx.toNat < 2 * depth.toNat) :
    (idx2ptr depth idx).toNat = idx.toNat % depth.toNat := by
  have hle : ∀ x : UInt16, x ≥ depth ↔ depth.toNat ≤ x.toNat := fun x => UInt16.le_iff_toNat_le
  simp only [idx2ptr, idx2ptrLoop]
  by_cases hge : idx ≥ depth
  · have hsub : (idx - depth).toNat = idx.toNat - depth.toNat := UInt16.toNat_sub_of_le _ _ hge
    have hlow : ¬idx - depth ≥ depth := by rw [hle, hsub]; omega
    rw [if_pos hge, if_neg hlow, hsub, Nat.mod_eq_sub_mod ((hle idx).mp hge), Nat.mod_eq_of_lt (by omega)]
  · rw [if_neg hge, Nat.mod_eq_of_lt (by rw [hle] at hge; omega)]

/-! ## The queue -/

/-- `tu_fifo_t`. The depth is what `tu_fifo_config` lets pass, and both indices stay below twice the depth. -/
structure TuFifo where
  buffer       : Mem
  depth        : UInt16
  overwritable : Bool
  rdIdx        : UInt16
  wrIdx        : UInt16
  depth_pos    : 0 < depth
  depth_le     : depth.toNat ≤ 0x8000
  rd_lt        : rdIdx.toNat < 2 * depth.toNat
  wr_lt        : wrIdx.toNat < 2 * depth.toNat

/-- `tu_fifo_config`, for a depth that is not zero. -/
def tuFifoConfig (buffer : Mem) (depth : UInt16) (overwritable : Bool) (hpos : 0 < depth) : Option TuFifo :=
  if hle : depth > 0x8000 then none
  else
    have hpos' : 0 < depth.toNat := UInt16.lt_iff_toNat_lt.mp hpos
    some
      { buffer := buffer
        depth := depth
        overwritable := overwritable
        rdIdx := 0
        wrIdx := 0
        depth_pos := hpos
        depth_le := by
          have hle' : depth ≤ 0x8000 := UInt16.not_lt.mp hle
          exact UInt16.le_iff_toNat_le.mp hle'
        rd_lt := by rw [UInt16.toNat_zero]; omega
        wr_lt := by rw [UInt16.toNat_zero]; omega }

namespace TuFifo

/-- What `_ff_count` says of the queue. -/
def count (f : TuFifo) : UInt16 := ffCount f.depth f.wrIdx f.rdIdx

/-! ### Writing -/

/-- `_ff_push_n`. -/
def ffPushN (f : TuFifo) (appBuf : List UInt8) (n wrPtr : UInt16) : Mem :=
  let linCount := f.depth - wrPtr
  let wrapCount := n - linCount
  if n ≤ linCount then f.buffer.write wrPtr.toNat (appBuf.take n.toNat)
  else (f.buffer.write wrPtr.toNat (appBuf.take linCount.toNat)).write 0 ((appBuf.drop linCount.toNat).take wrapCount.toNat)

/-- What a write of `n` bytes copies, how many, and from which index on. -/
structure Placed (f : TuFifo) where
  buf8  : List UInt8
  n     : UInt16
  wrIdx : UInt16
  n_le  : n ≤ f.depth
  wr_lt : wrIdx.toNat < 2 * f.depth.toNat

/-- The cases of `_tu_fifo_write_n`. -/
def place (f : TuFifo) (data : List UInt8) (n : UInt16) : f.Placed :=
  if !f.overwritable then
    -- limit up to full
    { buf8 := data, n := tuMin16 n (ffRemaining f.depth f.wrIdx f.rdIdx), wrIdx := f.wrIdx
      n_le := by
        rw [UInt16.le_iff_toNat_le, tuMin16_toNat, ffRemaining_toNat]
        omega
      wr_lt := f.wr_lt }
  else if hn : n ≥ f.depth then
    -- only copy last part, at the read position
    { buf8 := data.drop (n - f.depth).toNat, n := f.depth, wrIdx := f.rdIdx
      n_le := UInt16.le_refl _
      wr_lt := f.rd_lt }
  else if (ffCount f.depth f.wrIdx f.rdIdx).toNat + n.toNat ≥ 2 * f.depth.toNat then
    -- double overflowed: re-position the write index to have a full queue
    { buf8 := data, n := n, wrIdx := advanceIndex f.depth f.rdIdx (f.depth - n)
      n_le := UInt16.le_of_lt (UInt16.not_le.mp hn)
      wr_lt := by
        refine advanceIndex_lt f.depth_pos f.depth_le f.rd_lt ?_
        rw [UInt16.le_iff_toNat_le, UInt16.toNat_sub_of_le _ _ (UInt16.le_of_lt (UInt16.not_le.mp hn))]
        exact Nat.sub_le _ _ }
  else
    { buf8 := data, n := n, wrIdx := f.wrIdx
      n_le := UInt16.le_of_lt (UInt16.not_le.mp hn)
      wr_lt := f.wr_lt }

/-- The copy, and the index moved on. -/
def store (f : TuFifo) (p : f.Placed) : TuFifo where
  buffer       := f.ffPushN p.buf8 p.n (idx2ptr f.depth p.wrIdx)
  depth        := f.depth
  overwritable := f.overwritable
  rdIdx        := f.rdIdx
  wrIdx        := advanceIndex f.depth p.wrIdx p.n
  depth_pos    := f.depth_pos
  depth_le     := f.depth_le
  rd_lt        := f.rd_lt
  wr_lt        := advanceIndex_lt f.depth_pos f.depth_le p.wr_lt p.n_le

/-- `tu_fifo_write_n`: the queue afterwards and how many bytes went in. `data` is what the pointer points to, `n` bytes
    at least. -/
def tuFifoWriteN (f : TuFifo) (data : List UInt8) (n : UInt16) : TuFifo × UInt16 :=
  if n = 0 then (f, 0)
  else
    let p := f.place data n
    if p.n = 0 then (f, 0) else (f.store p, p.n)

theorem one_le_depth (f : TuFifo) : 1 ≤ f.depth := by
  have hpos : 0 < f.depth.toNat := UInt16.lt_iff_toNat_lt.mp f.depth_pos
  rw [UInt16.le_iff_toNat_le]
  exact hpos

/-- `tu_fifo_full`. -/
def tuFifoFull (f : TuFifo) : Bool := f.count ≥ f.depth

/-- `tu_fifo_write`. -/
def tuFifoWrite (f : TuFifo) (data : UInt8) : TuFifo × Bool :=
  if f.tuFifoFull ∧ !f.overwritable then (f, false)
  else
    ({ f with
       buffer := f.buffer.write (idx2ptr f.depth f.wrIdx).toNat [data]
       wrIdx := advanceIndex f.depth f.wrIdx 1
       wr_lt := advanceIndex_lt f.depth_pos f.depth_le f.wr_lt f.one_le_depth }, true)

/-! ### Reading -/

/-- `_ff_pull_n`. -/
def ffPullN (f : TuFifo) (n rdPtr : UInt16) : List UInt8 :=
  let linCount := f.depth - rdPtr
  let wrapCount := n - linCount
  if n ≤ linCount then f.buffer.read rdPtr.toNat n.toNat
  else f.buffer.read rdPtr.toNat linCount.toNat ++ f.buffer.read 0 wrapCount.toNat

/-- `_ff_correct_read_index`, of the queue's own write index. -/
def ffCorrectReadIndex (f : TuFifo) : TuFifo :=
  { f with
    rdIdx := if f.wrIdx ≥ f.depth then f.wrIdx - f.depth else f.wrIdx + f.depth
    rd_lt := by
      have hwr := f.wr_lt
      have hle := f.depth_le
      split
      · rename_i hge
        rw [UInt16.toNat_sub_of_le _ _ hge]
        omega
      · rename_i hlt
        have hlt' : f.wrIdx.toNat < f.depth.toNat := UInt16.lt_iff_toNat_lt.mp (UInt16.not_le.mp hlt)
        rw [UInt16.toNat_add]
        omega }

/-- An overflow, corrected as a reader finds it. -/
def corrected (f : TuFifo) : TuFifo := if f.count > f.depth then f.ffCorrectReadIndex else f

theorem corrected_depth (f : TuFifo) : f.corrected.depth = f.depth := by
  unfold corrected
  split <;> rfl

/-- The number of bytes to be read, once an overflow is corrected. -/
def readable (f : TuFifo) : UInt16 := if f.count > f.depth then f.depth else f.count

theorem readable_le (f : TuFifo) : f.readable ≤ f.depth := by
  unfold readable
  split
  · exact UInt16.le_refl _
  · rename_i hle
    exact UInt16.not_lt.mp hle

/-- `_tu_fifo_peek_n`: the queue, how many bytes, and the bytes. -/
def tuFifoPeekN (f : TuFifo) (n : UInt16) : TuFifo × UInt16 × List UInt8 :=
  if f.count = 0 then (f, 0, [])
  else
    let n := if f.readable < n then f.readable else n
    (f.corrected, n, f.corrected.ffPullN n (idx2ptr f.depth f.corrected.rdIdx))

theorem tuFifoPeekN_le (f : TuFifo) (n : UInt16) : (f.tuFifoPeekN n).2.1 ≤ (f.tuFifoPeekN n).1.depth := by
  unfold tuFifoPeekN
  split
  · exact UInt16.zero_le
  · show (if f.readable < n then f.readable else n) ≤ f.corrected.depth
    rw [corrected_depth]
    split
    · exact f.readable_le
    · rename_i hle
      exact UInt16.le_trans (UInt16.not_lt.mp hle) f.readable_le

/-- `tu_fifo_read_n`. -/
def tuFifoReadN (f : TuFifo) (n : UInt16) : TuFifo × UInt16 × List UInt8 :=
  let p := f.tuFifoPeekN n
  ({ p.1 with
     rdIdx := advanceIndex p.1.depth p.1.rdIdx p.2.1
     rd_lt := advanceIndex_lt p.1.depth_pos p.1.depth_le p.1.rd_lt (f.tuFifoPeekN_le n) }, p.2)

/-- `tu_fifo_peek`. -/
def tuFifoPeek (f : TuFifo) : TuFifo × Option UInt8 :=
  if f.count = 0 then (f, none)
  else
    let f := f.corrected
    (f, some (f.buffer (idx2ptr f.depth f.rdIdx).toNat))

/-- `tu_fifo_read`. -/
def tuFifoRead (f : TuFifo) : TuFifo × Option UInt8 :=
  let p := f.tuFifoPeek
  ({ p.1 with
     rdIdx := advanceIndex p.1.depth p.1.rdIdx (if p.2.isSome then 1 else 0)
     rd_lt := by
       refine advanceIndex_lt p.1.depth_pos p.1.depth_le p.1.rd_lt ?_
       split
       · exact p.1.one_le_depth
       · exact UInt16.zero_le }, p.2)

/-! ### The rest -/

/-- `tu_fifo_count`. -/
def tuFifoCount (f : TuFifo) : UInt16 := tuMin16 f.count f.depth

/-- `tu_fifo_empty`. -/
def tuFifoEmpty (f : TuFifo) : Bool := f.wrIdx = f.rdIdx

/-- `tu_fifo_remaining`. -/
def tuFifoRemaining (f : TuFifo) : UInt16 := ffRemaining f.depth f.wrIdx f.rdIdx

/-- `tu_fifo_overflowed`. -/
def tuFifoOverflowed (f : TuFifo) : Bool := f.count > f.depth

/-- `tu_fifo_clear`. -/
def tuFifoClear (f : TuFifo) : TuFifo :=
  have hpos : 0 < f.depth.toNat := UInt16.lt_iff_toNat_lt.mp f.depth_pos
  { f with
    rdIdx := 0
    wrIdx := 0
    rd_lt := by rw [UInt16.toNat_zero]; omega
    wr_lt := by rw [UInt16.toNat_zero]; omega }

/-- `tu_fifo_set_overwritable`. -/
def tuFifoSetOverwritable (f : TuFifo) (overwritable : Bool) : TuFifo := { f with overwritable := overwritable }

end TuFifo

end Usb

end GekkoPak
