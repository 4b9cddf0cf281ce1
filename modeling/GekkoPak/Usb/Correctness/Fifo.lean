import GekkoPak.Usb.Fifo
import Mathlib.Data.List.DropRight

/-!
# `Usb.Correctness.Fifo` — the queue against lists

`TuFifo.queue` is what a reader would find, and `TuFifo.missed` how many bytes were overwritten since one last looked.
Every operation is one on that pair (`Pending`), down to what a write does that overflows the queue twice: it keeps the
wrong bytes. While no write does that, an overwritable queue holds the newest bytes of everything unread (`Unread`).
-/

namespace GekkoPak

namespace Usb

open Basis

/-! ## What the indices say -/

namespace TuFifo

variable {f : TuFifo}

/-- The bytes between the indices, overwritten ones included. -/
def raw (f : TuFifo) : Nat := f.count.toNat

theorem depth_pos' (f : TuFifo) : 0 < f.depth.toNat := UInt16.lt_iff_toNat_lt.mp f.depth_pos

theorem raw_eq (f : TuFifo) :
    f.raw = if f.rdIdx.toNat ≤ f.wrIdx.toNat then f.wrIdx.toNat - f.rdIdx.toNat
      else 2 * f.depth.toNat - (f.rdIdx.toNat - f.wrIdx.toNat) := by
  have hrd := f.rd_lt
  have hle := f.depth_le
  simp only [raw, count, ffCount, ge_iff_le, UInt16.le_iff_toNat_le]
  split
  · rename_i hge
    exact UInt16.toNat_sub_of_le _ _ (UInt16.le_iff_toNat_le.mpr hge)
  · rename_i hlt
    have hback : (f.rdIdx - f.wrIdx).toNat = f.rdIdx.toNat - f.wrIdx.toNat :=
      UInt16.toNat_sub_of_le _ _ (UInt16.le_iff_toNat_le.mpr (by omega))
    rw [UInt16.toNat_sub, UInt16.toNat_mul, hback]
    simp only [UInt16.reduceToNat]
    omega

theorem raw_lt (f : TuFifo) : f.raw < 2 * f.depth.toNat := by
  have hrd := f.rd_lt
  have hwr := f.wr_lt
  rw [raw_eq]
  split <;> omega

/-- The write index is `raw` places on from the read index. -/
theorem wrIdx_eq (f : TuFifo) : f.wrIdx.toNat = (f.rdIdx.toNat + f.raw) % (2 * f.depth.toNat) := by
  have hrd := f.rd_lt
  have hwr := f.wr_lt
  rw [raw_eq]
  split
  · rw [Nat.mod_eq_of_lt (by omega)]
    omega
  · rw [Nat.mod_eq_sub_mod (by omega), Nat.mod_eq_of_lt (by omega)]
    omega

theorem raw_of_wrIdx {k : Nat} (hk : k < 2 * f.depth.toNat)
    (h : f.wrIdx.toNat = (f.rdIdx.toNat + k) % (2 * f.depth.toNat)) : f.raw = k := by
  have hrd := f.rd_lt
  rcases Nat.lt_or_ge (f.rdIdx.toNat + k) (2 * f.depth.toNat) with hlow | hhigh
  · rw [Nat.mod_eq_of_lt hlow] at h
    rw [raw_eq, if_pos (by omega)]
    omega
  · rw [Nat.mod_eq_sub_mod hhigh, Nat.mod_eq_of_lt (by omega)] at h
    rw [raw_eq, if_neg (by omega)]
    omega

/-- The bytes a reader would find: the last `depth` places before the write index, or what there is. -/
def queue (f : TuFifo) : List UInt8 :=
  f.buffer.lap f.depth.toNat (f.rdIdx.toNat + (f.raw - f.depth.toNat)) (min f.raw f.depth.toNat)

/-- The bytes a reader will never find. -/
def missed (f : TuFifo) : Nat := f.raw - f.depth.toNat

theorem queue_length (f : TuFifo) : f.queue.length = min f.raw f.depth.toNat := Mem.lap_length _ _ _ _

theorem queue_eq_nil (hraw : f.raw = 0) : f.queue = [] :=
  List.length_eq_zero_iff.mp (by rw [queue_length, hraw, Nat.zero_min])

theorem queue_length_add_missed (f : TuFifo) : f.queue.length + f.missed = f.raw := by
  rw [queue_length, missed]
  omega

theorem queue_length_le (f : TuFifo) : f.queue.length ≤ f.depth.toNat := by
  rw [queue_length]
  exact Nat.min_le_right _ _

/-- An index names the slot that its remainder by the depth names. -/
theorem mod_depth (f : TuFifo) (x : Nat) : x % (2 * f.depth.toNat) % f.depth.toNat = x % f.depth.toNat :=
  Nat.mod_mul_left_mod x 2 f.depth.toNat

/-! ## Copies -/

theorem ffPushN_eq {buf8 : List UInt8} {n wrPtr : UInt16} (hwr : wrPtr.toNat < f.depth.toNat) (hn : n.toNat ≤ buf8.length) :
    f.ffPushN buf8 n wrPtr = f.buffer.copyIn f.depth.toNat wrPtr.toNat (buf8.take n.toNat) := by
  have hlin : (f.depth - wrPtr).toNat = f.depth.toNat - wrPtr.toNat :=
    UInt16.toNat_sub_of_le _ _ (UInt16.le_iff_toNat_le.mpr (by omega))
  have hlen : (buf8.take n.toNat).length = n.toNat := by
    rw [List.length_take]
    omega
  simp only [ffPushN, Mem.copyIn, UInt16.le_iff_toNat_le, hlin, hlen]
  split
  · rfl
  · rename_i hwrap
    have hwrap' : (n - (f.depth - wrPtr)).toNat = n.toNat - (f.depth.toNat - wrPtr.toNat) := by
      rw [UInt16.toNat_sub_of_le _ _ (UInt16.le_iff_toNat_le.mpr (by omega)), hlin]
    rw [hwrap', List.take_take, Nat.min_eq_left (by omega), List.drop_take]

theorem ffPullN_eq {n rdPtr : UInt16} (hrd : rdPtr.toNat < f.depth.toNat) (hn : n.toNat ≤ f.depth.toNat) :
    f.ffPullN n rdPtr = f.buffer.lap f.depth.toNat rdPtr.toNat n.toNat := by
  have hlin : (f.depth - rdPtr).toNat = f.depth.toNat - rdPtr.toNat :=
    UInt16.toNat_sub_of_le _ _ (UInt16.le_iff_toNat_le.mpr (by omega))
  rw [← Mem.copyOut_eq_lap hrd hn]
  simp only [ffPullN, Mem.copyOut, UInt16.le_iff_toNat_le, hlin]
  split
  · rfl
  · rw [UInt16.toNat_sub_of_le _ _ (UInt16.le_iff_toNat_le.mpr (by omega)), hlin]

/-! ## Writing -/

/-- **A copy into the queue**, `k` places on from the read index: what is kept of the bytes before it, and the bytes
    written. -/
theorem queue_store {p : f.Placed} {k : Nat} (hk : p.wrIdx.toNat = (f.rdIdx.toNat + k) % (2 * f.depth.toNat))
    (hdata : p.n.toNat ≤ p.buf8.length) (hlt : k + p.n.toNat < 2 * f.depth.toNat) :
    (f.store p).raw = k + p.n.toNat ∧
      (f.store p).queue = f.buffer.lap f.depth.toNat (f.rdIdx.toNat + (k + p.n.toNat - f.depth.toNat))
          (min (k + p.n.toNat) f.depth.toNat - p.n.toNat) ++ p.buf8.take p.n.toNat := by
  have hpos := f.depth_pos'
  have hn : p.n.toNat ≤ f.depth.toNat := UInt16.le_iff_toNat_le.mp p.n_le
  have hraw : (f.store p).raw = k + p.n.toNat := by
    refine raw_of_wrIdx hlt ?_
    show (advanceIndex f.depth p.wrIdx p.n).toNat = (f.rdIdx.toNat + (k + p.n.toNat)) % (2 * f.depth.toNat)
    rw [advanceIndex_toNat f.depth_le p.wr_lt p.n_le, hk, Nat.mod_add_mod, Nat.add_assoc]
  refine ⟨hraw, ?_⟩
  have hptr : (idx2ptr f.depth p.wrIdx).toNat = (f.rdIdx.toNat + k) % f.depth.toNat := by
    rw [idx2ptr_toNat p.wr_lt, hk, mod_depth]
  have hptrLt : (idx2ptr f.depth p.wrIdx).toNat < f.depth.toNat := by
    rw [hptr]
    exact Nat.mod_lt _ hpos
  have htake : (p.buf8.take p.n.toNat).length = p.n.toNat := by
    rw [List.length_take]
    omega
  have hbuffer : (f.store p).buffer
      = f.buffer.copyIn f.depth.toNat (idx2ptr f.depth p.wrIdx).toNat (p.buf8.take p.n.toNat) :=
    ffPushN_eq hptrLt hdata
  obtain ⟨kept, hkept⟩ : ∃ kept, kept = min (k + p.n.toNat) f.depth.toNat - p.n.toNat := ⟨_, rfl⟩
  obtain ⟨start, hstart⟩ : ∃ start, start = f.rdIdx.toNat + (k + p.n.toNat - f.depth.toNat) := ⟨_, rfl⟩
  have hend : start + kept = f.rdIdx.toNat + k := by omega
  have hplace : (start + kept) % f.depth.toNat = (idx2ptr f.depth p.wrIdx).toNat := by rw [hend, hptr]
  show (f.store p).buffer.lap f.depth.toNat (f.rdIdx.toNat + ((f.store p).raw - f.depth.toNat))
    (min (f.store p).raw f.depth.toNat) = _
  rw [hraw, hbuffer, ← hkept, ← hstart, show min (k + p.n.toNat) f.depth.toNat = kept + p.n.toNat by omega, Mem.lap_add,
    Mem.lap_copyIn_before hptrLt hplace (by rw [htake]; omega)]
  congr 1
  have hsame := @Mem.lap_copyIn_same f.buffer f.depth.toNat _ (p.buf8.take p.n.toNat) hptrLt (by rw [htake]; exact hn)
  rw [htake] at hsame
  have hcircle : (start + kept) % f.depth.toNat = (idx2ptr f.depth p.wrIdx).toNat % f.depth.toNat :=
    hplace.trans (Nat.mod_eq_of_lt hptrLt).symm
  exact (Mem.lap_congr hcircle _ _).trans hsame

/-! ## Reading -/

/-- An overflow corrected: nothing missed any more, and nothing else changed for a reader. -/
theorem corrected_buffer (f : TuFifo) : f.corrected.buffer = f.buffer := by
  unfold corrected
  split <;> rfl

theorem corrected_spec (f : TuFifo) :
    f.corrected.raw = min f.raw f.depth.toNat ∧ f.corrected.queue = f.queue ∧
      f.corrected.rdIdx.toNat % f.depth.toNat = (f.rdIdx.toNat + (f.raw - f.depth.toNat)) % f.depth.toNat := by
  have hpos := f.depth_pos'
  have hle := f.depth_le
  have hwr := f.wr_lt
  have hover : f.count > f.depth ↔ f.depth.toNat < f.raw := UInt16.lt_iff_toNat_lt
  unfold corrected
  split
  · rename_i hgt
    rw [hover] at hgt
    have hindex : f.ffCorrectReadIndex.rdIdx.toNat = (f.wrIdx.toNat + f.depth.toNat) % (2 * f.depth.toNat) := by
      simp only [ffCorrectReadIndex, ge_iff_le, UInt16.le_iff_toNat_le]
      split
      · rename_i hge
        rw [UInt16.toNat_sub_of_le _ _ (UInt16.le_iff_toNat_le.mpr hge), Nat.mod_eq_sub_mod (by omega),
          Nat.mod_eq_of_lt (by omega)]
        omega
      · rw [UInt16.toNat_add, Nat.mod_eq_of_lt (a := f.wrIdx.toNat + f.depth.toNat) (b := 2 * f.depth.toNat) (by omega)]
        omega
    have hraw : f.ffCorrectReadIndex.raw = f.depth.toNat := by
      refine raw_of_wrIdx (show f.depth.toNat < 2 * f.depth.toNat by omega) ?_
      show f.wrIdx.toNat = (f.ffCorrectReadIndex.rdIdx.toNat + f.depth.toNat) % (2 * f.depth.toNat)
      rw [hindex, Nat.mod_add_mod, show f.wrIdx.toNat + f.depth.toNat + f.depth.toNat = f.wrIdx.toNat + 2 * f.depth.toNat by omega,
        Nat.add_mod_right, Nat.mod_eq_of_lt hwr]
    have hplace : f.ffCorrectReadIndex.rdIdx.toNat % f.depth.toNat
        = (f.rdIdx.toNat + (f.raw - f.depth.toNat)) % f.depth.toNat := by
      rw [hindex, mod_depth, Nat.add_mod_right, wrIdx_eq, mod_depth,
        show f.rdIdx.toNat + f.raw = f.rdIdx.toNat + (f.raw - f.depth.toNat) + f.depth.toNat by omega, Nat.add_mod_right]
    refine ⟨by rw [hraw]; omega, ?_, hplace⟩
    show f.buffer.lap f.depth.toNat (f.ffCorrectReadIndex.rdIdx.toNat + (f.ffCorrectReadIndex.raw - f.depth.toNat))
      (min f.ffCorrectReadIndex.raw f.depth.toNat) = f.queue
    rw [hraw, Nat.sub_self, Nat.add_zero, Nat.min_self, queue, Nat.min_eq_right (Nat.le_of_lt hgt)]
    exact Mem.lap_congr hplace _ _
  · rename_i hng
    rw [hover] at hng
    refine ⟨by omega, rfl, ?_⟩
    rw [Nat.sub_eq_zero_of_le (by omega), Nat.add_zero]

theorem readable_toNat (f : TuFifo) : f.readable.toNat = min f.raw f.depth.toNat := by
  unfold readable
  split
  · rename_i hgt
    rw [gt_iff_lt, UInt16.lt_iff_toNat_lt] at hgt
    exact (Nat.min_eq_right (Nat.le_of_lt hgt)).symm
  · rename_i hle
    rw [gt_iff_lt, UInt16.lt_iff_toNat_lt] at hle
    exact (Nat.min_eq_left (by omega)).symm

theorem count_eq_zero (f : TuFifo) : f.count = 0 ↔ f.raw = 0 := by
  rw [← UInt16.toNat_inj]
  exact Iff.rfl

/-- **A look at the queue** shows its first bytes, and takes the overflow back. -/
theorem tuFifoPeekN_spec (f : TuFifo) (n : UInt16) :
    (f.tuFifoPeekN n).2.1.toNat = min n.toNat f.queue.length ∧ (f.tuFifoPeekN n).2.2 = f.queue.take n.toNat ∧
      (f.tuFifoPeekN n).1.queue = f.queue ∧ (f.tuFifoPeekN n).1.raw = f.queue.length ∧
      (f.tuFifoPeekN n).1 = f.corrected := by
  obtain ⟨hraw, hqueue, hplace⟩ := f.corrected_spec
  have hlen := f.queue_length
  unfold tuFifoPeekN
  split
  · rename_i hzero
    rw [count_eq_zero] at hzero
    have hnil := queue_eq_nil hzero
    have hsame : f = f.corrected := by
      unfold corrected
      rw [if_neg]
      rw [gt_iff_lt, UInt16.lt_iff_toNat_lt]
      show ¬f.depth.toNat < f.raw
      omega
    refine ⟨?_, ?_, rfl, ?_, hsame⟩
    · show (0 : UInt16).toNat = min n.toNat f.queue.length
      rw [hnil, UInt16.toNat_zero, List.length_nil, Nat.min_zero]
    · rw [hnil, List.take_nil]
    · rw [hnil, hzero, List.length_nil]
  · have hn : (if f.readable < n then f.readable else n).toNat = min n.toNat f.queue.length := by
      have hread := f.readable_toNat
      split
      · rename_i hlt
        rw [UInt16.lt_iff_toNat_lt] at hlt
        omega
      · rename_i hge
        rw [UInt16.lt_iff_toNat_lt] at hge
        omega
    refine ⟨hn, ?_, hqueue, by rw [hraw, hlen], rfl⟩
    have hptr : (idx2ptr f.depth f.corrected.rdIdx).toNat = f.corrected.rdIdx.toNat % f.depth.toNat :=
      idx2ptr_toNat (f.corrected_depth ▸ f.corrected.rd_lt)
    show f.corrected.ffPullN _ (idx2ptr f.depth f.corrected.rdIdx) = _
    rw [ffPullN_eq, hn, corrected_depth, corrected_buffer, hptr, hlen, queue, Mem.take_lap]
    · exact Mem.lap_congr (by rw [Nat.mod_mod, hplace]) _ _
    · rw [hptr, corrected_depth]
      exact Nat.mod_lt _ f.depth_pos'
    · rw [hn, corrected_depth, hlen]
      omega

/-- The read index moved on by some of the bytes there are. -/
theorem queue_advance {f g : TuFifo} {n : UInt16} (hbuffer : g.buffer = f.buffer) (hdepth : g.depth = f.depth)
    (hwr : g.wrIdx = f.wrIdx) (hrd : g.rdIdx = advanceIndex f.depth f.rdIdx n) (hn : n.toNat ≤ f.raw)
    (hraw : f.raw ≤ f.depth.toNat) : g.queue = f.queue.drop n.toNat ∧ g.raw = f.raw - n.toNat := by
  have hpos := f.depth_pos'
  have hindex : g.rdIdx.toNat = (f.rdIdx.toNat + n.toNat) % (2 * f.depth.toNat) := by
    rw [hrd, advanceIndex_toNat f.depth_le f.rd_lt (UInt16.le_iff_toNat_le.mpr (by omega))]
  have hleft : g.raw = f.raw - n.toNat := by
    refine raw_of_wrIdx (by rw [hdepth]; omega) ?_
    rw [hwr, hdepth, hindex, Nat.mod_add_mod, wrIdx_eq]
    congr 1
    omega
  refine ⟨?_, hleft⟩
  rw [queue, queue, hleft, hbuffer, hdepth, Nat.sub_eq_zero_of_le (show f.raw - n.toNat ≤ f.depth.toNat by omega),
    Nat.sub_eq_zero_of_le hraw, Nat.add_zero, Nat.add_zero, Nat.min_eq_left (show f.raw - n.toNat ≤ f.depth.toNat by omega),
    Nat.min_eq_left hraw, Mem.drop_lap]
  exact Mem.lap_congr (by rw [hindex, mod_depth]) _ _

end TuFifo

/-! ## The queue as a list -/

/-- What a queue is to its users: the bytes a reader would find, how many were overwritten since one last looked, and
    whether a write may overwrite. -/
structure Pending where
  queue        : List UInt8
  missed       : Nat
  overwritable : Bool

namespace Pending

/-- A write into a queue of `cap` bytes. One that does not overwrite stops at the capacity. One that does keeps the
    newest `cap` bytes, unless everything since the last look comes to twice the capacity: then, of the bytes that came in
    after the queue was full, the oldest are kept, and the ones between them and the write are gone. -/
def write (cap : Nat) (s : Pending) (data : List UInt8) : Pending × Nat :=
  if !s.overwritable then
    let kept := data.take (cap - s.queue.length)
    ({ s with queue := s.queue ++ kept }, kept.length)
  else if cap ≤ data.length then ({ s with queue := data.rtake cap, missed := 0 }, cap)
  else if 2 * cap ≤ s.queue.length + s.missed + data.length then
    let oldest := (s.queue.drop (cap - s.missed)).take (cap - data.length)
    ({ s with queue := oldest ++ data, missed := 0 }, data.length)
  else
    ({ s with
       queue := (s.queue ++ data).rtake cap
       missed := s.queue.length + s.missed + data.length - cap }, data.length)

variable {cap : Nat} {s : Pending} {data : List UInt8}

theorem write_bounded (how : s.overwritable = false) : s.write cap data
    = ({ s with queue := s.queue ++ data.take (cap - s.queue.length) }, (data.take (cap - s.queue.length)).length) := by
  rw [write, if_pos (by rw [how]; rfl)]

theorem write_all (how : s.overwritable = true) (hall : cap ≤ data.length) :
    s.write cap data = ({ s with queue := data.rtake cap, missed := 0 }, cap) := by
  rw [write, if_neg (by rw [how]; decide), if_pos hall]

theorem write_twice (how : s.overwritable = true) (hall : data.length < cap)
    (hover : 2 * cap ≤ s.queue.length + s.missed + data.length) : s.write cap data
    = ({ s with queue := (s.queue.drop (cap - s.missed)).take (cap - data.length) ++ data, missed := 0 }, data.length) := by
  rw [write, if_neg (by rw [how]; decide), if_neg (by omega), if_pos hover]

theorem write_onwards (how : s.overwritable = true) (hall : data.length < cap)
    (hover : s.queue.length + s.missed + data.length < 2 * cap) : s.write cap data
    = ({ s with
         queue := (s.queue ++ data).rtake cap
         missed := s.queue.length + s.missed + data.length - cap }, data.length) := by
  rw [write, if_neg (by rw [how]; decide), if_neg (by omega), if_neg (by omega)]

/-- One byte. Nothing is kept of a queue that has overflowed all the way. -/
def writeOne (cap : Nat) (s : Pending) (x : UInt8) : Pending × Bool :=
  if cap ≤ s.queue.length ∧ !s.overwritable then (s, false)
  else if s.queue.length + s.missed + 1 = 2 * cap then ({ s with queue := [], missed := 0 }, true)
  else
    ({ s with
       queue := (s.queue ++ [x]).rtake cap
       missed := s.queue.length + s.missed + 1 - cap }, true)

end Pending

namespace TuFifo

variable {f : TuFifo}

/-- The queue as its users see it. -/
def pending (f : TuFifo) : Pending := ⟨f.queue, f.missed, f.overwritable⟩

/-- A full queue's newest bytes, when some more come in. -/
theorem rtake_append {α : Type} {xs ys : List α} {cap : Nat} (h : ys.length ≤ cap) :
    (xs ++ ys).rtake cap = xs.drop (xs.length + ys.length - cap) ++ ys := by
  rw [List.rtake, List.length_append, List.drop_append_of_le_length (by omega)]

theorem store_depth (p : f.Placed) : (f.store p).depth = f.depth := rfl

/-- A copy that begins at the write index: what was there, less what it overflows, and the bytes written. -/
theorem pending_store_onwards {p : f.Placed} (hp : p.wrIdx = f.wrIdx) (hdata : p.n.toNat ≤ p.buf8.length)
    (hlt : f.raw + p.n.toNat < 2 * f.depth.toNat) :
    (f.store p).pending = ⟨(f.queue ++ p.buf8.take p.n.toNat).rtake f.depth.toNat,
      f.queue.length + f.missed + p.n.toNat - f.depth.toNat, f.overwritable⟩ := by
  have hn : p.n.toNat ≤ f.depth.toNat := UInt16.le_iff_toNat_le.mp p.n_le
  have hlen := f.queue_length
  have htake : (p.buf8.take p.n.toNat).length = p.n.toNat := by
    rw [List.length_take]
    omega
  obtain ⟨hraw, hqueue⟩ := queue_store (by rw [hp]; exact f.wrIdx_eq) hdata hlt
  have hkept : f.queue.drop (f.queue.length + p.n.toNat - f.depth.toNat)
      = f.buffer.lap f.depth.toNat (f.rdIdx.toNat + (f.raw + p.n.toNat - f.depth.toNat))
          (min (f.raw + p.n.toNat) f.depth.toNat - p.n.toNat) := by
    rw [hlen, queue, Mem.drop_lap]
    congr 1 <;> omega
  have hmissed : (f.store p).missed = f.queue.length + f.missed + p.n.toNat - f.depth.toNat := by
    rw [f.queue_length_add_missed, missed, hraw, store_depth]
  rw [pending, hmissed, hqueue, rtake_append (by rw [htake]; exact hn), htake, hkept]
  rfl

/-! ### The four cases of a write -/

variable {data : List UInt8} {n : UInt16}

theorem tuFifoWriteN_stored (hn : n ≠ 0) (hp : (f.place data n).n ≠ 0) :
    f.tuFifoWriteN data n = (f.store (f.place data n), (f.place data n).n) := by
  rw [tuFifoWriteN, if_neg hn]
  exact if_neg hp

theorem place_bounded (how : f.overwritable = false) : (f.place data n).buf8 = data ∧
    (f.place data n).n.toNat = min n.toNat (f.depth.toNat - f.raw) ∧ (f.place data n).wrIdx = f.wrIdx := by
  rw [place, if_pos (by rw [how]; rfl)]
  refine ⟨rfl, ?_, rfl⟩
  show (tuMin16 n (ffRemaining f.depth f.wrIdx f.rdIdx)).toNat = _
  rw [tuMin16_toNat, ffRemaining_toNat]
  rfl

theorem place_all (how : f.overwritable = true) (hall : f.depth ≤ n) :
    (f.place data n).buf8 = data.drop (n.toNat - f.depth.toNat) ∧ (f.place data n).n = f.depth ∧
      (f.place data n).wrIdx = f.rdIdx := by
  rw [place, if_neg (by rw [how]; decide), dif_pos hall]
  refine ⟨?_, rfl, rfl⟩
  show data.drop (n - f.depth).toNat = _
  rw [UInt16.toNat_sub_of_le _ _ hall]

theorem place_twice (how : f.overwritable = true) (hall : n < f.depth) (hover : 2 * f.depth.toNat ≤ f.raw + n.toNat) :
    (f.place data n).buf8 = data ∧ (f.place data n).n = n ∧
      (f.place data n).wrIdx.toNat = (f.rdIdx.toNat + (f.depth.toNat - n.toNat)) % (2 * f.depth.toNat) := by
  have hover' : (ffCount f.depth f.wrIdx f.rdIdx).toNat + n.toNat ≥ 2 * f.depth.toNat := hover
  have hback : (f.depth - n).toNat = f.depth.toNat - n.toNat := UInt16.toNat_sub_of_le _ _ (UInt16.le_of_lt hall)
  rw [place, if_neg (by rw [how]; decide), dif_neg (UInt16.not_le.mpr hall), if_pos hover']
  refine ⟨rfl, rfl, ?_⟩
  show (advanceIndex f.depth f.rdIdx (f.depth - n)).toNat = _
  rw [advanceIndex_toNat f.depth_le f.rd_lt (by rw [UInt16.le_iff_toNat_le, hback]; exact Nat.sub_le _ _), hback]

theorem place_onwards (how : f.overwritable = true) (hall : n < f.depth) (hover : f.raw + n.toNat < 2 * f.depth.toNat) :
    (f.place data n).buf8 = data ∧ (f.place data n).n = n ∧ (f.place data n).wrIdx = f.wrIdx := by
  have hover' : ¬(ffCount f.depth f.wrIdx f.rdIdx).toNat + n.toNat ≥ 2 * f.depth.toNat := Nat.not_le.mpr hover
  rw [place, if_neg (by rw [how]; decide), dif_neg (UInt16.not_le.mpr hall), if_neg hover']
  exact ⟨rfl, rfl, rfl⟩

/-- Up to full. -/
theorem write_bounded (how : f.overwritable = false) (hn : n ≠ 0) (hdata : data.length = n.toNat) :
    (f.tuFifoWriteN data n).1.pending = (f.pending.write f.depth.toNat data).1 ∧
      (f.tuFifoWriteN data n).2.toNat = (f.pending.write f.depth.toNat data).2 := by
  have hrawLt := f.raw_lt
  have hsum := f.queue_length_add_missed
  have hlen := f.queue_length
  obtain ⟨hbuf, hfit, hwr⟩ := @place_bounded f data n how
  have hkept : data.take (f.depth.toNat - f.queue.length) = data.take (f.place data n).n.toNat := by
    rcases Nat.le_total n.toNat (f.depth.toNat - f.raw) with hle | hle
    · rw [List.take_of_length_le (by omega), List.take_of_length_le (by omega)]
    · rw [hfit, Nat.min_eq_right hle, hlen]
      congr 1
      omega
  have hkeptLen : (data.take (f.place data n).n.toNat).length = (f.place data n).n.toNat := by
    rw [List.length_take]
    omega
  rw [Pending.write_bounded how]
  show (f.tuFifoWriteN data n).1.pending = ⟨f.queue ++ data.take (f.depth.toNat - f.queue.length), f.missed, f.overwritable⟩ ∧
    (f.tuFifoWriteN data n).2.toNat = (data.take (f.depth.toNat - f.queue.length)).length
  rw [hkept, hkeptLen]
  by_cases hp : (f.place data n).n = 0
  · have hnone : f.tuFifoWriteN data n = (f, 0) := by
      rw [tuFifoWriteN, if_neg hn]
      exact if_pos hp
    rw [hnone, hp, UInt16.toNat_zero, List.take_zero, List.append_nil]
    exact ⟨rfl, rfl⟩
  · have hne : (f.place data n).n.toNat ≠ 0 := fun h => hp (UInt16.toNat_inj.mp h)
    rw [tuFifoWriteN_stored hn hp]
    refine ⟨?_, rfl⟩
    rw [pending_store_onwards hwr (by rw [hbuf]; omega) (by omega), hbuf, List.rtake, List.length_append, hkeptLen,
      Nat.sub_eq_zero_of_le (by omega), List.drop_zero]
    congr 1
    rw [missed]
    omega

/-- The last bytes of the write, from the read index on. -/
theorem write_all (how : f.overwritable = true) (hall : f.depth ≤ n) (hdata : data.length = n.toNat) :
    (f.tuFifoWriteN data n).1.pending = (f.pending.write f.depth.toNat data).1 ∧
      (f.tuFifoWriteN data n).2.toNat = (f.pending.write f.depth.toNat data).2 := by
  have hpos := f.depth_pos'
  have hall' : f.depth.toNat ≤ n.toNat := UInt16.le_iff_toNat_le.mp hall
  have hne : ∀ {x : UInt16}, f.depth.toNat ≤ x.toNat → x ≠ 0 := fun hx h => by
    rw [h, UInt16.toNat_zero] at hx
    omega
  obtain ⟨hbuf, hfit, hwr⟩ := @place_all f data n how hall
  obtain ⟨hraw, hqueue⟩ := @queue_store f (f.place data n) 0 (by rw [hwr, Nat.add_zero, Nat.mod_eq_of_lt f.rd_lt])
    (by rw [hfit, hbuf, List.length_drop]; omega) (by rw [hfit]; omega)
  have hnewest : (data.drop (n.toNat - f.depth.toNat)).take f.depth.toNat = data.rtake f.depth.toNat := by
    rw [List.rtake, hdata, List.take_of_length_le (by rw [List.length_drop]; omega)]
  rw [Pending.write_all how (by rw [hdata]; exact hall'), tuFifoWriteN_stored (hne hall') (by rw [hfit]; exact hne (Nat.le_refl _))]
  refine ⟨?_, by rw [hfit]⟩
  rw [pending, hqueue, missed, hraw, store_depth, hfit, hbuf, hnewest, Nat.zero_add, Nat.min_self, Nat.sub_self]
  rfl

/-- Over the end a second time: the write index goes back to a depth on from the read index. -/
theorem write_twice (how : f.overwritable = true) (hall : n < f.depth) (hover : 2 * f.depth.toNat ≤ f.raw + n.toNat)
    (hdata : data.length = n.toNat) : (f.tuFifoWriteN data n).1.pending = (f.pending.write f.depth.toNat data).1 ∧
      (f.tuFifoWriteN data n).2.toNat = (f.pending.write f.depth.toNat data).2 := by
  have hrawLt := f.raw_lt
  have hsum := f.queue_length_add_missed
  have hall' : n.toNat < f.depth.toNat := UInt16.lt_iff_toNat_lt.mp hall
  have hmissed : f.missed = f.raw - f.depth.toNat := rfl
  have hne : n ≠ 0 := fun h => by
    rw [h, UInt16.toNat_zero] at hover
    omega
  obtain ⟨hbuf, hfit, hwr⟩ := @place_twice f data n how hall hover
  obtain ⟨hraw, hqueue⟩ := @queue_store f (f.place data n) (f.depth.toNat - n.toNat) hwr (by rw [hfit, hbuf, hdata])
    (by rw [hfit]; omega)
  have hfull : f.depth.toNat - n.toNat + n.toNat = f.depth.toNat := by omega
  -- a depth on from the read index lies what the reader was to find from `depth - missed` on
  have holdest : (f.queue.drop (f.depth.toNat - f.missed)).take (f.depth.toNat - n.toNat)
      = f.buffer.lap f.depth.toNat f.rdIdx.toNat (f.depth.toNat - n.toNat) := by
    have hcircle : (f.rdIdx.toNat + (f.raw - f.depth.toNat) + (f.depth.toNat - f.missed)) % f.depth.toNat
        = f.rdIdx.toNat % f.depth.toNat := by
      rw [show f.rdIdx.toNat + (f.raw - f.depth.toNat) + (f.depth.toNat - f.missed) = f.rdIdx.toNat + f.depth.toNat by omega,
        Nat.add_mod_right]
    rw [queue, Mem.drop_lap, Mem.take_lap, Nat.min_eq_left (by omega)]
    exact Mem.lap_congr hcircle _ _
  rw [Pending.write_twice how (by rw [hdata]; exact hall') (by show _ ≤ f.queue.length + f.missed + data.length; omega),
    tuFifoWriteN_stored hne (by rw [hfit]; exact hne)]
  refine ⟨?_, by rw [hfit, hdata]⟩
  show _ = (⟨(f.queue.drop (f.depth.toNat - f.missed)).take (f.depth.toNat - data.length) ++ data, 0, f.overwritable⟩ : Pending)
  rw [pending, hqueue, missed, hraw, store_depth, hfit, hbuf, hfull, Nat.sub_self, Nat.add_zero, Nat.min_self, hdata, holdest,
    List.take_of_length_le (Nat.le_of_eq hdata)]
  rfl

/-- Past the end once at most, for a reader to correct. -/
theorem write_onwards (how : f.overwritable = true) (hall : n < f.depth) (hover : f.raw + n.toNat < 2 * f.depth.toNat)
    (hn : n ≠ 0) (hdata : data.length = n.toNat) :
    (f.tuFifoWriteN data n).1.pending = (f.pending.write f.depth.toNat data).1 ∧
      (f.tuFifoWriteN data n).2.toNat = (f.pending.write f.depth.toNat data).2 := by
  have hsum := f.queue_length_add_missed
  have hall' : n.toNat < f.depth.toNat := UInt16.lt_iff_toNat_lt.mp hall
  obtain ⟨hbuf, hfit, hwr⟩ := @place_onwards f data n how hall hover
  rw [Pending.write_onwards how (by rw [hdata]; exact hall') (by show f.queue.length + f.missed + data.length < _; omega),
    tuFifoWriteN_stored hn (by rw [hfit]; exact hn)]
  refine ⟨?_, by rw [hfit, hdata]⟩
  rw [pending_store_onwards hwr (by rw [hfit, hbuf, hdata]) (by rw [hfit]; exact hover), hfit, hbuf,
    List.take_of_length_le (Nat.le_of_eq hdata), hdata]
  rfl

/-- Nothing to write, nothing changed. -/
theorem write_nil (f : TuFifo) : f.pending.write f.depth.toNat [] = (f.pending, 0) := by
  have hpos := f.depth_pos'
  have hrawLt := f.raw_lt
  have hsum := f.queue_length_add_missed
  cases how : f.overwritable with
  | false =>
    rw [Pending.write_bounded how, List.take_nil]
    simp only [List.append_nil, List.length_nil]
  | true =>
    rw [Pending.write_onwards how hpos (by show f.queue.length + f.missed + 0 < _; omega), List.append_nil, List.length_nil,
      Nat.add_zero]
    show ((⟨f.queue.rtake f.depth.toNat, f.queue.length + f.missed - f.depth.toNat, f.overwritable⟩ : Pending), 0) = _
    rw [List.rtake, Nat.sub_eq_zero_of_le f.queue_length_le, List.drop_zero, hsum]
    rfl

/-- **A write** is a write into the list. -/
theorem tuFifoWriteN_spec (f : TuFifo) (hdata : data.length = n.toNat) :
    (f.tuFifoWriteN data n).1.pending = (f.pending.write f.depth.toNat data).1 ∧
      (f.tuFifoWriteN data n).2.toNat = (f.pending.write f.depth.toNat data).2 := by
  by_cases hn : n = 0
  · have hnil : data = [] := List.length_eq_zero_iff.mp (by rw [hdata, hn, UInt16.toNat_zero])
    rw [tuFifoWriteN, if_pos hn, hnil, write_nil]
    exact ⟨rfl, rfl⟩
  cases how : f.overwritable with
  | false => exact write_bounded how hn hdata
  | true =>
    rcases UInt16.lt_or_le n f.depth with hall | hall
    · rcases Nat.lt_or_ge (f.raw + n.toNat) (2 * f.depth.toNat) with hover | hover
      · exact write_onwards how hall hover hn hdata
      · exact write_twice how hall hover hdata
    · exact write_all how hall hdata

/-- One byte is a copy of one byte from the write index on. -/
def one (f : TuFifo) (x : UInt8) : f.Placed := ⟨[x], 1, f.wrIdx, f.one_le_depth, f.wr_lt⟩

theorem tuFifoFull_iff (f : TuFifo) : f.tuFifoFull = true ↔ f.depth.toNat ≤ f.queue.length := by
  have hlen := f.queue_length
  rw [tuFifoFull, decide_eq_true_eq, ge_iff_le, UInt16.le_iff_toNat_le]
  show f.depth.toNat ≤ f.raw ↔ _
  omega

theorem tuFifoWrite_stored {x : UInt8} (h : ¬(f.tuFifoFull = true ∧ (!f.overwritable) = true)) :
    f.tuFifoWrite x = (f.store (f.one x), true) := by
  have hptr : (idx2ptr f.depth f.wrIdx).toNat < f.depth.toNat := by
    rw [idx2ptr_toNat f.wr_lt]
    exact Nat.mod_lt _ f.depth_pos'
  have hbuffer : f.ffPushN [x] 1 (idx2ptr f.depth f.wrIdx) = f.buffer.write (idx2ptr f.depth f.wrIdx).toNat [x] := by
    rw [ffPushN_eq hptr (show (1 : UInt16).toNat ≤ [x].length from Nat.le_refl 1), Mem.copyIn]
    exact if_pos (by show 1 ≤ _; omega)
  rw [tuFifoWrite, if_neg h, store, one, hbuffer]

/-- **A write of one byte.** -/
theorem tuFifoWrite_spec (f : TuFifo) (x : UInt8) : (f.tuFifoWrite x).1.pending = (f.pending.writeOne f.depth.toNat x).1 ∧
    (f.tuFifoWrite x).2 = (f.pending.writeOne f.depth.toNat x).2 := by
  have hrawLt := f.raw_lt
  have hsum := f.queue_length_add_missed
  by_cases hfull : f.tuFifoFull = true ∧ (!f.overwritable) = true
  · have hfull' : f.depth.toNat ≤ f.pending.queue.length ∧ (!f.pending.overwritable) = true :=
      ⟨f.tuFifoFull_iff.mp hfull.1, hfull.2⟩
    rw [tuFifoWrite, if_pos hfull, Pending.writeOne, if_pos hfull']
    exact ⟨rfl, rfl⟩
  · have hfull' : ¬(f.depth.toNat ≤ f.pending.queue.length ∧ (!f.pending.overwritable) = true) := fun h =>
      hfull ⟨f.tuFifoFull_iff.mpr h.1, h.2⟩
    rw [tuFifoWrite_stored hfull, Pending.writeOne, if_neg hfull']
    by_cases hround : f.raw + 1 = 2 * f.depth.toNat
    · -- the write index meets the read index
      have hempty : (f.store (f.one x)).raw = 0 := by
        refine raw_of_wrIdx (by rw [store_depth]; omega) ?_
        show (advanceIndex f.depth f.wrIdx 1).toNat = (f.rdIdx.toNat + 0) % (2 * f.depth.toNat)
        rw [advanceIndex_toNat f.depth_le f.wr_lt f.one_le_depth, wrIdx_eq, Nat.mod_add_mod, Nat.add_assoc,
          show f.raw + (1 : UInt16).toNat = 2 * f.depth.toNat from hround, Nat.add_mod_right, Nat.add_zero]
      rw [if_pos (by show f.queue.length + f.missed + 1 = _; omega)]
      refine ⟨?_, rfl⟩
      rw [pending, queue, missed, hempty, Nat.zero_min, Nat.zero_sub]
      rfl
    · rw [if_neg (by show ¬f.queue.length + f.missed + 1 = _; omega)]
      have honwards := @pending_store_onwards f (f.one x) rfl (Nat.le_refl 1) (by show f.raw + 1 < _; omega)
      exact ⟨honwards, rfl⟩

/-! ## Reading the list -/

theorem corrected_pending (f : TuFifo) : f.corrected.pending = { f.pending with missed := 0 } := by
  obtain ⟨hraw, hqueue, _⟩ := f.corrected_spec
  have hmode : f.corrected.overwritable = f.overwritable := by
    unfold corrected
    split <;> rfl
  have hmissed : f.corrected.missed = 0 := by
    rw [missed, hraw, corrected_depth]
    omega
  rw [pending, hqueue, hmissed, hmode]
  rfl

theorem tuFifoPeekN_pending (f : TuFifo) (n : UInt16) : (f.tuFifoPeekN n).1.pending = { f.pending with missed := 0 } := by
  rw [(f.tuFifoPeekN_spec n).2.2.2.2, corrected_pending]

/-- **A read** takes bytes off the front of the list. -/
theorem tuFifoReadN_spec (f : TuFifo) (n : UInt16) :
    (f.tuFifoReadN n).1.pending = { f.pending with queue := f.queue.drop n.toNat, missed := 0 } ∧
      (f.tuFifoReadN n).2.1.toNat = min n.toNat f.queue.length ∧ (f.tuFifoReadN n).2.2 = f.queue.take n.toNat := by
  obtain ⟨hn, hbytes, hqueue, hraw, hcorrected⟩ := f.tuFifoPeekN_spec n
  have hdepth : (f.tuFifoPeekN n).1.depth = f.depth := by rw [hcorrected, corrected_depth]
  have hmode : (f.tuFifoPeekN n).1.overwritable = f.overwritable := congrArg Pending.overwritable (f.tuFifoPeekN_pending n)
  obtain ⟨hleft, hrawLeft⟩ := @queue_advance (f.tuFifoPeekN n).1 (f.tuFifoReadN n).1 (f.tuFifoPeekN n).2.1 rfl rfl rfl rfl
    (by rw [hn, hraw]; omega) (by rw [hraw, hdepth]; exact f.queue_length_le)
  refine ⟨?_, hn, hbytes⟩
  have hmissed : (f.tuFifoReadN n).1.missed = 0 := by
    rw [missed, hrawLeft, hraw]
    show f.queue.length - _ - (f.tuFifoPeekN n).1.depth.toNat = 0
    have hlen := f.queue_length_le
    rw [hdepth]
    omega
  have hdrop : f.queue.drop (min n.toNat f.queue.length) = f.queue.drop n.toNat := by
    rcases Nat.le_total n.toNat f.queue.length with hle | hle
    · rw [Nat.min_eq_left hle]
    · rw [Nat.min_eq_right hle, List.drop_length, List.drop_of_length_le hle]
  rw [pending, hleft, hqueue, hn, hdrop, hmissed]
  show (⟨_, _, (f.tuFifoPeekN n).1.overwritable⟩ : Pending) = _
  rw [hmode]
  rfl

/-- A look at one byte. -/
theorem tuFifoPeek_eq (f : TuFifo) : f.tuFifoPeek = ((f.tuFifoPeekN 1).1, f.queue.head?) := by
  have hspec := f.tuFifoPeekN_spec 1
  by_cases hzero : f.count = 0
  · have hnil := queue_eq_nil (f.count_eq_zero.mp hzero)
    rw [tuFifoPeek, if_pos hzero, tuFifoPeekN, if_pos hzero, hnil]
    rfl
  · have hlen : 0 < f.queue.length := by
      have hraw : f.raw ≠ 0 := fun h => hzero (f.count_eq_zero.mpr h)
      have hpos := f.depth_pos'
      rw [queue_length]
      omega
    have hplace := f.corrected_spec.2.2
    have hptr : (idx2ptr f.corrected.depth f.corrected.rdIdx).toNat
        = (f.rdIdx.toNat + (f.raw - f.depth.toNat)) % f.depth.toNat := by
      rw [idx2ptr_toNat f.corrected.rd_lt, corrected_depth, hplace]
    have hhead : f.queue.head? = some (f.buffer ((f.rdIdx.toNat + (f.raw - f.depth.toNat)) % f.depth.toNat)) := by
      rw [List.head?_eq_getElem?, queue, Mem.lap_getElem?, if_pos (by rw [← queue_length]; exact hlen), Nat.add_zero]
    rw [hspec.2.2.2.2, hhead, tuFifoPeek, if_neg hzero]
    show (f.corrected, some (f.corrected.buffer (idx2ptr f.corrected.depth f.corrected.rdIdx).toNat)) = _
    rw [hptr, corrected_buffer]

/-- A read of one byte is a read of a run of one. -/
theorem tuFifoRead_eq (f : TuFifo) : f.tuFifoRead = ((f.tuFifoReadN 1).1, f.queue.head?) := by
  obtain ⟨hn, -⟩ := f.tuFifoPeekN_spec 1
  have hret : (if f.queue.head?.isSome then 1 else 0 : UInt16) = (f.tuFifoPeekN 1).2.1 := by
    rw [← UInt16.toNat_inj, hn]
    cases f.queue with
    | nil => rfl
    | cons x xs => exact (Nat.min_eq_left (Nat.le_add_left 1 xs.length)).symm
  simp only [tuFifoRead, tuFifoPeek_eq, tuFifoReadN, hret]

end TuFifo

/-! ## Whole runs -/

/-- The operations of a queue. -/
inductive QueueOp
  | writeN (n : UInt16) (data : { bytes : List UInt8 // bytes.length = n.toNat })
  | write (x : UInt8)
  | readN (n : UInt16)
  | read
  | peekN (n : UInt16)
  | peek
  | count
  | remaining
  | empty
  | full
  | overflowed
  | clear
  | setOverwritable (b : Bool)

/-- What an operation returns, and the bytes it stores for its caller. -/
abbrev QueueAnswer : Type := Nat × List UInt8

def TuFifo.step (f : TuFifo) : QueueOp → TuFifo × QueueAnswer
  | .writeN n data      => ((f.tuFifoWriteN data.val n).1, (f.tuFifoWriteN data.val n).2.toNat, [])
  | .write x            => ((f.tuFifoWrite x).1, (f.tuFifoWrite x).2.toNat, [])
  | .readN n            => ((f.tuFifoReadN n).1, (f.tuFifoReadN n).2.1.toNat, (f.tuFifoReadN n).2.2)
  | .read               => (f.tuFifoRead.1, f.tuFifoRead.2.isSome.toNat, f.tuFifoRead.2.toList)
  | .peekN n            => ((f.tuFifoPeekN n).1, (f.tuFifoPeekN n).2.1.toNat, (f.tuFifoPeekN n).2.2)
  | .peek               => (f.tuFifoPeek.1, f.tuFifoPeek.2.isSome.toNat, f.tuFifoPeek.2.toList)
  | .count              => (f, f.tuFifoCount.toNat, [])
  | .remaining          => (f, f.tuFifoRemaining.toNat, [])
  | .empty              => (f, f.tuFifoEmpty.toNat, [])
  | .full               => (f, f.tuFifoFull.toNat, [])
  | .overflowed         => (f, f.tuFifoOverflowed.toNat, [])
  | .clear              => (f.tuFifoClear, 1, [])
  | .setOverwritable b  => (f.tuFifoSetOverwritable b, 1, [])

/-- The queue as a machine. -/
def TuFifo.machine (f : TuFifo) : Machine QueueOp QueueAnswer TuFifo where
  init := f
  step := TuFifo.step

/-- The same operations of a list of at most `cap` bytes. -/
def Pending.step (cap : Nat) (s : Pending) : QueueOp → Pending × QueueAnswer
  | .writeN _ data      => ((s.write cap data.val).1, (s.write cap data.val).2, [])
  | .write x            => ((s.writeOne cap x).1, (s.writeOne cap x).2.toNat, [])
  | .readN n            =>
    ({ s with queue := s.queue.drop n.toNat, missed := 0 }, min n.toNat s.queue.length, s.queue.take n.toNat)
  | .read               => ({ s with queue := s.queue.drop 1, missed := 0 }, min 1 s.queue.length, s.queue.take 1)
  | .peekN n            => ({ s with missed := 0 }, min n.toNat s.queue.length, s.queue.take n.toNat)
  | .peek               => ({ s with missed := 0 }, min 1 s.queue.length, s.queue.take 1)
  | .count              => (s, s.queue.length, [])
  | .remaining          => (s, cap - s.queue.length, [])
  | .empty              => (s, s.queue.isEmpty.toNat, [])
  | .full               => (s, (decide (cap ≤ s.queue.length)).toNat, [])
  | .overflowed         => (s, (decide (0 < s.missed)).toNat, [])
  | .clear              => ({ s with queue := [], missed := 0 }, 1, [])
  | .setOverwritable b  => ({ s with overwritable := b }, 1, [])

def Pending.machine (cap : Nat) (s : Pending) : Machine QueueOp QueueAnswer Pending where
  init := s
  step := Pending.step cap

namespace TuFifo

theorem head_answer (xs : List UInt8) : xs.head?.isSome.toNat = min 1 xs.length ∧ xs.head?.toList = xs.take 1 := by
  cases xs with
  | nil => exact ⟨rfl, rfl⟩
  | cons x xs => exact ⟨(Nat.min_eq_left (Nat.le_add_left 1 xs.length)).symm, rfl⟩

theorem step_depth (f : TuFifo) (op : QueueOp) : (f.step op).1.depth = f.depth := by
  cases op with
  | writeN n data =>
    show (f.tuFifoWriteN data.val n).1.depth = f.depth
    simp only [tuFifoWriteN]
    split
    · rfl
    · split <;> rfl
  | write x =>
    show (f.tuFifoWrite x).1.depth = f.depth
    rw [tuFifoWrite]
    split <;> rfl
  | readN n =>
    show (f.tuFifoPeekN n).1.depth = f.depth
    rw [(f.tuFifoPeekN_spec n).2.2.2.2, corrected_depth]
  | read =>
    show f.tuFifoPeek.1.depth = f.depth
    rw [tuFifoPeek_eq, (f.tuFifoPeekN_spec 1).2.2.2.2, corrected_depth]
  | peekN n =>
    show (f.tuFifoPeekN n).1.depth = f.depth
    rw [(f.tuFifoPeekN_spec n).2.2.2.2, corrected_depth]
  | peek =>
    show f.tuFifoPeek.1.depth = f.depth
    rw [tuFifoPeek_eq, (f.tuFifoPeekN_spec 1).2.2.2.2, corrected_depth]
  | _ => rfl

/-- **One operation** of the queue is the operation of the list. -/
theorem step_pending (f : TuFifo) (op : QueueOp) :
    (f.step op).1.pending = (f.pending.step f.depth.toNat op).1 ∧ (f.step op).2 = (f.pending.step f.depth.toNat op).2 := by
  have hlen := f.queue_length
  have hsum := f.queue_length_add_missed
  cases op with
  | writeN n data =>
    obtain ⟨hstate, hcount⟩ := f.tuFifoWriteN_spec data.property
    exact ⟨hstate, congrArg (·, []) hcount⟩
  | write x =>
    obtain ⟨hstate, hret⟩ := f.tuFifoWrite_spec x
    exact ⟨hstate, congrArg (·.toNat, []) hret⟩
  | readN n =>
    obtain ⟨hstate, hcount, hbytes⟩ := f.tuFifoReadN_spec n
    exact ⟨hstate, Prod.ext hcount hbytes⟩
  | read =>
    obtain ⟨hstate, -⟩ := f.tuFifoReadN_spec 1
    obtain ⟨hret, hbyte⟩ := head_answer f.queue
    simp only [step, tuFifoRead_eq]
    exact ⟨hstate, Prod.ext hret hbyte⟩
  | peekN n =>
    obtain ⟨hcount, hbytes, -⟩ := f.tuFifoPeekN_spec n
    exact ⟨f.tuFifoPeekN_pending n, Prod.ext hcount hbytes⟩
  | peek =>
    obtain ⟨hret, hbyte⟩ := head_answer f.queue
    simp only [step, tuFifoPeek_eq]
    exact ⟨f.tuFifoPeekN_pending 1, Prod.ext hret hbyte⟩
  | count =>
    refine ⟨rfl, congrArg (·, []) ?_⟩
    show (tuMin16 f.count f.depth).toNat = f.queue.length
    rw [tuMin16_toNat, hlen, raw]
  | remaining =>
    refine ⟨rfl, congrArg (·, []) ?_⟩
    show (ffRemaining f.depth f.wrIdx f.rdIdx).toNat = f.depth.toNat - f.queue.length
    rw [ffRemaining_toNat, hlen]
    show f.depth.toNat - f.raw = _
    omega
  | empty =>
    refine ⟨rfl, congrArg (Bool.toNat · , []) ?_⟩
    show decide (f.wrIdx = f.rdIdx) = f.queue.isEmpty
    have hpos := f.depth_pos'
    rw [Bool.eq_iff_iff, decide_eq_true_eq, List.isEmpty_iff, ← List.length_eq_zero_iff, hlen, ← UInt16.toNat_inj]
    have hraw := f.raw_eq
    have hrd := f.rd_lt
    split at hraw <;> omega
  | full =>
    refine ⟨rfl, congrArg (Bool.toNat · , []) ?_⟩
    show f.tuFifoFull = decide (f.depth.toNat ≤ f.queue.length)
    rw [Bool.eq_iff_iff, tuFifoFull_iff, decide_eq_true_eq]
  | overflowed =>
    refine ⟨rfl, congrArg (Bool.toNat · , []) ?_⟩
    show decide (f.count > f.depth) = decide (0 < f.missed)
    rw [decide_eq_decide, gt_iff_lt, UInt16.lt_iff_toNat_lt, missed]
    show f.depth.toNat < f.raw ↔ _
    omega
  | clear =>
    refine ⟨?_, rfl⟩
    have hzero : f.tuFifoClear.raw = 0 := by
      refine raw_of_wrIdx (Nat.mul_pos (Nat.zero_lt_succ 1) f.tuFifoClear.depth_pos') ?_
      exact (Nat.zero_mod _).symm
    show f.tuFifoClear.pending = ⟨[], 0, f.overwritable⟩
    rw [pending, queue, missed, hzero, Nat.zero_min, Nat.zero_sub]
    rfl
  | setOverwritable b => exact ⟨rfl, rfl⟩

/-- **The queue is the list.** Whatever operations are made of it, a queue answers them as a list of at most `depth`
    bytes does. -/
theorem fifo_refines_pending (f : TuFifo) (ops : List QueueOp) :
    (f.machine.run ops).pending = (f.pending.machine f.depth.toNat).run ops ∧
      f.machine.outs ops = (f.pending.machine f.depth.toNat).outs ops := by
  have hsim := @Machine.simulation _ _ _ _ f.machine (f.pending.machine f.depth.toNat)
    (fun g s => g.depth = f.depth ∧ g.pending = s) (fun _ => True) ⟨rfl, rfl⟩
    (by
      rintro g s op - ⟨hdepth, rfl⟩
      obtain ⟨hstate, hanswer⟩ := g.step_pending op
      rw [hdepth] at hstate hanswer
      exact ⟨⟨(g.step_depth op).trans hdepth, hstate⟩, hanswer⟩) ops (fun _ _ => trivial)
  exact ⟨hsim.1.2, hsim.2⟩

end TuFifo

/-! ## The newest bytes -/

/-- Everything written and not read, however much it is. -/
structure Unread where
  bytes        : List UInt8
  overwritable : Bool

namespace Unread

def write (cap : Nat) (s : Unread) (data : List UInt8) : Unread × Nat :=
  if !s.overwritable then
    let kept := data.take (cap - s.bytes.length)
    ({ s with bytes := s.bytes ++ kept }, kept.length)
  else ({ s with bytes := s.bytes ++ data }, min data.length cap)

def writeOne (cap : Nat) (s : Unread) (x : UInt8) : Unread × Bool :=
  if cap ≤ s.bytes.length ∧ !s.overwritable then (s, false) else ({ s with bytes := s.bytes ++ [x] }, true)

/-- The operations of a queue that loses nothing but shows its newest `cap` bytes only. -/
def step (cap : Nat) (s : Unread) : QueueOp → Unread × QueueAnswer
  | .writeN _ data      => ((s.write cap data.val).1, (s.write cap data.val).2, [])
  | .write x            => ((s.writeOne cap x).1, (s.writeOne cap x).2.toNat, [])
  | .readN n            =>
    let seen := s.bytes.rtake cap
    ({ s with bytes := seen.drop n.toNat }, min n.toNat seen.length, seen.take n.toNat)
  | .read               =>
    let seen := s.bytes.rtake cap
    ({ s with bytes := seen.drop 1 }, min 1 seen.length, seen.take 1)
  | .peekN n            => (s, min n.toNat (s.bytes.rtake cap).length, (s.bytes.rtake cap).take n.toNat)
  | .peek               => (s, min 1 (s.bytes.rtake cap).length, (s.bytes.rtake cap).take 1)
  | .count              => (s, min s.bytes.length cap, [])
  | .remaining          => (s, cap - s.bytes.length, [])
  | .empty              => (s, s.bytes.isEmpty.toNat, [])
  | .full               => (s, (decide (cap ≤ s.bytes.length)).toNat, [])
  | .overflowed         => (s, (decide (cap < s.bytes.length)).toNat, [])
  | .clear              => ({ s with bytes := [] }, 1, [])
  | .setOverwritable b  => ({ s with overwritable := b }, 1, [])

def machine (cap : Nat) (s : Unread) : Machine QueueOp QueueAnswer Unread where
  init := s
  step := Unread.step cap

/-- What a reader finds of the bytes unread. -/
def Shows (cap : Nat) (u : Unread) (s : Pending) : Prop := s.queue = u.bytes.rtake cap ∧ s.overwritable = u.overwritable

end Unread

/-- Steps that overflow a queue once at most: a write that overwrites either replaces everything, or stays within twice the
    depth. What `tu_fifo_overflowed` says is not promised. -/
def TuFifo.Once (f : TuFifo) : QueueOp → Prop
  | .writeN n _  => f.overwritable = true → f.depth ≤ n ∨ f.raw + n.toNat ≤ 2 * f.depth.toNat
  | .write _     => f.overwritable = true → f.raw + 1 < 2 * f.depth.toNat
  | .overflowed  => False
  | _            => True

theorem rtake_rtake_append {α : Type} (xs ys : List α) (c : Nat) : (xs.rtake c ++ ys).rtake c = (xs ++ ys).rtake c := by
  simp only [List.rtake_eq_reverse_take_reverse, List.reverse_append, List.reverse_reverse, List.take_append, List.take_take,
    Nat.min_eq_left (Nat.sub_le c ys.reverse.length)]

theorem rtake_length {α : Type} (xs : List α) (c : Nat) : (xs.rtake c).length = min xs.length c := by
  rw [List.rtake, List.length_drop]
  omega

theorem rtake_of_length_le {α : Type} {xs : List α} {c : Nat} (h : xs.length ≤ c) : xs.rtake c = xs := by
  rw [List.rtake, Nat.sub_eq_zero_of_le h, List.drop_zero]

theorem rtake_append_of_le {α : Type} (xs : List α) {ys : List α} {c : Nat} (h : c ≤ ys.length) :
    (xs ++ ys).rtake c = ys.rtake c := by
  simp only [List.rtake_eq_reverse_take_reverse, List.reverse_append]
  rw [List.take_append_of_le_length (by rw [List.length_reverse]; exact h)]

namespace Unread.Shows

variable {cap : Nat} {u : Unread} {s : Pending}

theorem append (h : u.Shows cap s) (ys : List UInt8) : (s.queue ++ ys).rtake cap = (u.bytes ++ ys).rtake cap := by
  rw [h.1, rtake_rtake_append]

theorem length (h : u.Shows cap s) : s.queue.length = min u.bytes.length cap := by rw [h.1, rtake_length]

/-- A write that overflows once at most. -/
theorem write {data : List UInt8} (h : u.Shows cap s) (hmissed : 0 < s.missed → s.queue.length = cap)
    (honce : s.overwritable = true → cap ≤ data.length ∨ s.queue.length + s.missed + data.length ≤ 2 * cap) :
    (u.write cap data).1.Shows cap (s.write cap data).1 ∧ (s.write cap data).2 = (u.write cap data).2 := by
  have hlen := h.length
  cases how : u.overwritable with
  | false =>
    have hmode : s.overwritable = false := h.2.trans how
    have hroom : cap - s.queue.length = cap - u.bytes.length := by omega
    have hwrite : u.write cap data = (⟨u.bytes ++ data.take (cap - u.bytes.length), u.overwritable⟩,
        (data.take (cap - u.bytes.length)).length) := by
      rw [Unread.write, if_pos (by rw [how]; rfl)]
    rw [Pending.write_bounded hmode, hroom, hwrite]
    refine ⟨⟨?_, h.2⟩, rfl⟩
    show s.queue ++ data.take (cap - u.bytes.length) = (u.bytes ++ data.take (cap - u.bytes.length)).rtake cap
    rw [← h.append, rtake_of_length_le]
    rw [List.length_append, List.length_take]
    omega
  | true =>
    have hmode : s.overwritable = true := h.2.trans how
    have hwrite : u.write cap data = (⟨u.bytes ++ data, u.overwritable⟩, min data.length cap) := by
      rw [Unread.write, if_neg (by rw [how]; decide)]
    rw [hwrite]
    rcases Nat.lt_or_ge data.length cap with hall | hall
    · rcases Nat.lt_or_ge (s.queue.length + s.missed + data.length) (2 * cap) with hover | hover
      · rw [Pending.write_onwards hmode hall hover]
        exact ⟨⟨h.append data, h.2⟩, (Nat.min_eq_left (Nat.le_of_lt hall)).symm⟩
      · -- twice the depth exactly: the oldest bytes kept are the ones to keep
        have hexact := (honce hmode).resolve_left (Nat.not_le.mpr hall)
        have hfull := hmissed (by omega)
        rw [Pending.write_twice hmode hall hover]
        refine ⟨⟨?_, h.2⟩, (Nat.min_eq_left (Nat.le_of_lt hall)).symm⟩
        show (s.queue.drop (cap - s.missed)).take (cap - data.length) ++ data = (u.bytes ++ data).rtake cap
        rw [← h.append, TuFifo.rtake_append (Nat.le_of_lt hall), List.take_of_length_le (by rw [List.length_drop]; omega)]
        congr 2
        omega
    · rw [Pending.write_all hmode hall]
      exact ⟨⟨(rtake_append_of_le _ hall).symm, h.2⟩, (Nat.min_eq_right hall).symm⟩

/-- One byte. -/
theorem writeOne {x : UInt8} (h : u.Shows cap s) (hmissed : 0 < s.missed → s.queue.length = cap)
    (honce : s.overwritable = true → s.queue.length + s.missed + 1 < 2 * cap) :
    (u.writeOne cap x).1.Shows cap (s.writeOne cap x).1 ∧ (s.writeOne cap x).2 = (u.writeOne cap x).2 := by
  have hlen := h.length
  have hfull : (cap ≤ s.queue.length ∧ (!s.overwritable) = true) ↔ (cap ≤ u.bytes.length ∧ (!u.overwritable) = true) := by
    have hmin : cap ≤ min u.bytes.length cap ↔ cap ≤ u.bytes.length := by omega
    rw [h.2, hlen, hmin]
  by_cases hstop : cap ≤ u.bytes.length ∧ (!u.overwritable) = true
  · rw [Pending.writeOne, if_pos (hfull.mpr hstop), Unread.writeOne, if_pos hstop]
    exact ⟨h, rfl⟩
  · have hgo : ¬(cap ≤ s.queue.length ∧ (!s.overwritable) = true) := fun hx => hstop (hfull.mp hx)
    have hround : s.queue.length + s.missed + 1 ≠ 2 * cap := by
      cases how : s.overwritable with
      | true => exact Nat.ne_of_lt (honce how)
      | false =>
        -- a queue with room has missed nothing
        have hroom : ¬cap ≤ s.queue.length := fun hx => hgo ⟨hx, by rw [how]; rfl⟩
        have hnone : ¬0 < s.missed := fun hx => hroom (Nat.le_of_eq (hmissed hx).symm)
        omega
    rw [Pending.writeOne, if_neg hgo, if_neg hround, Unread.writeOne, if_neg hstop]
    exact ⟨⟨h.append [x], h.2⟩, rfl⟩

end Unread.Shows

namespace TuFifo

/-- **One step that overflows once at most.** -/
theorem Once.step {f : TuFifo} {u : Unread} {op : QueueOp} (honce : f.Once op) (h : u.Shows f.depth.toNat f.pending) :
    (u.step f.depth.toNat op).1.Shows f.depth.toNat (f.step op).1.pending ∧ (f.step op).2 = (u.step f.depth.toNat op).2 := by
  obtain ⟨hstate, hanswer⟩ := f.step_pending op
  have hpos := f.depth_pos'
  have hcap : f.pending.queue.length ≤ f.depth.toNat := f.queue_length_le
  have hsum : f.pending.queue.length + f.pending.missed = f.raw := f.queue_length_add_missed
  have hmissed : 0 < f.pending.missed → f.pending.queue.length = f.depth.toNat := by
    intro hover
    have hover' : 0 < f.raw - f.depth.toNat := hover
    show f.queue.length = _
    rw [queue_length]
    omega
  have hlen := h.length
  have hdrop : ∀ n, (u.bytes.rtake f.depth.toNat).drop n = ((u.bytes.rtake f.depth.toNat).drop n).rtake f.depth.toNat :=
    fun n => (rtake_of_length_le (by rw [List.length_drop, rtake_length]; omega)).symm
  rw [hstate, hanswer]
  cases op with
  | writeN n data =>
    have hdata : f.pending.overwritable = true → f.depth.toNat ≤ data.val.length ∨
        f.pending.queue.length + f.pending.missed + data.val.length ≤ 2 * f.depth.toNat := by
      intro how
      rw [data.property, hsum]
      exact (honce how).imp_left UInt16.le_iff_toNat_le.mp
    obtain ⟨hshows, hcount⟩ := h.write hmissed hdata
    exact ⟨hshows, congrArg (·, []) hcount⟩
  | write x =>
    obtain ⟨hshows, hret⟩ := @Unread.Shows.writeOne _ _ _ x h hmissed (fun how => by rw [hsum]; exact honce how)
    exact ⟨hshows, congrArg (Bool.toNat ·, []) hret⟩
  | readN n =>
    simp only [Pending.step, Unread.step, h.1]
    exact ⟨⟨hdrop n.toNat, h.2⟩, trivial⟩
  | read =>
    simp only [Pending.step, Unread.step, h.1]
    exact ⟨⟨hdrop 1, h.2⟩, trivial⟩
  | peekN n =>
    simp only [Pending.step, Unread.step, h.1]
    exact ⟨⟨rfl, h.2⟩, trivial⟩
  | peek =>
    simp only [Pending.step, Unread.step, h.1]
    exact ⟨⟨rfl, h.2⟩, trivial⟩
  | count => exact ⟨h, congrArg (·, []) hlen⟩
  | remaining =>
    refine ⟨h, congrArg (·, []) ?_⟩
    rw [hlen]
    omega
  | empty =>
    refine ⟨h, congrArg (Bool.toNat ·, []) ?_⟩
    rw [Bool.eq_iff_iff, List.isEmpty_iff, List.isEmpty_iff, ← List.length_eq_zero_iff, ← List.length_eq_zero_iff, hlen]
    omega
  | full =>
    refine ⟨h, congrArg (Bool.toNat ·, []) ?_⟩
    rw [decide_eq_decide, hlen]
    omega
  | overflowed => exact honce.elim
  | clear => exact ⟨⟨(List.rtake_nil f.depth.toNat).symm, h.2⟩, rfl⟩
  | setOverwritable b => exact ⟨⟨h.1, rfl⟩, rfl⟩

/-- An overwritable queue of five bytes, empty. -/
def small : TuFifo := ⟨Mem.zero, 5, true, 0, 0, by decide, by decide, by decide, by decide⟩

/-- **The newest bytes.** Along every run none of whose writes overflows the queue twice, the queue answers as one that
    loses nothing and shows the newest `depth` bytes. -/
theorem fifo_shows_newest (f : TuFifo) {ops : List QueueOp} (honce : f.machine.Along Once ops) :
    f.machine.outs ops = (Unread.machine f.depth.toNat ⟨f.queue, f.overwritable⟩).outs ops := by
  have hall : f.queue = f.queue.rtake f.depth.toNat := (rtake_of_length_le f.queue_length_le).symm
  have hsim := @Machine.simulation_along _ _ _ _ f.machine (Unread.machine f.depth.toNat ⟨f.queue, f.overwritable⟩)
    (fun g u => g.depth = f.depth ∧ u.Shows f.depth.toNat g.pending) Once ⟨rfl, hall, rfl⟩
    (by
      rintro g u op hop ⟨hdepth, hshows⟩
      rw [← hdepth] at hshows
      obtain ⟨hnext, hanswer⟩ := Once.step hop hshows
      rw [hdepth] at hnext hanswer
      exact ⟨⟨(g.step_depth op).trans hdepth, hnext⟩, hanswer⟩) ops honce
  exact hsim.2

/-- Five bytes deep, four bytes written, four more over them, and everything read. -/
theorem fifo_shows_newest_overwritten :
    (TuFifo.machine small).outs [.writeN 4 ⟨[1, 2, 3, 4], rfl⟩, .writeN 4 ⟨[5, 6, 7, 8], rfl⟩, .readN 9]
      = [(4, []), (4, []), (5, [4, 5, 6, 7, 8])] := by
  have hfirst : small.machine.Along Once [.writeN 4 ⟨[1, 2, 3, 4], rfl⟩] :=
    @Machine.along_concat _ _ _ _ _ [] _ (Machine.along_nil _ _) (fun _ => Or.inr (by decide +kernel))
  have hsecond : small.machine.Along Once [.writeN 4 ⟨[1, 2, 3, 4], rfl⟩, .writeN 4 ⟨[5, 6, 7, 8], rfl⟩] :=
    @Machine.along_concat _ _ _ _ _ [_] _ hfirst (fun _ => Or.inr (by decide +kernel))
  have honce : small.machine.Along Once [.writeN 4 ⟨[1, 2, 3, 4], rfl⟩, .writeN 4 ⟨[5, 6, 7, 8], rfl⟩, .readN 9] :=
    @Machine.along_concat _ _ _ _ _ [_, _] _ hsecond trivial
  rw [fifo_shows_newest small honce]
  decide +kernel

end TuFifo

end Usb

end GekkoPak
