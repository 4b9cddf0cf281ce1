import GekkoPak.Basis.Arm
import GekkoPak.Basis.Mem

/-!
# `Basis.Ram` — plain memory on the bus

Little-endian words in a byte memory, and the bus that has nothing else on it.
-/

namespace Basis

namespace Mem

/-- The 32-bit word at an address. -/
def word (m : Mem) (a : UInt32) : UInt32 := UInt32.ofNat (leNat (m.read a.toNat 4))

/-- `m` with a word stored. -/
def setWord (m : Mem) (a v : UInt32) : Mem := m.write a.toNat (leBytes 4 v.toNat)

/-- Reading back a part of what was written. -/
theorem read_write_part (m : Mem) {start off n : Nat} {bs : List UInt8} (h : off + n ≤ bs.length) :
    (m.write start bs).read (start + off) n = slice bs off n := by
  rw [← slice_read h, read_write_same]

/-- The bytes of a word. -/
theorem leBytes_word (m : Mem) (a : UInt32) : leBytes 4 (m.word a).toNat = m.read a.toNat 4 := by
  have hlt := leNat_lt (m.read a.toNat 4)
  have hbytes := leBytes_leNat (m.read a.toNat 4)
  rw [read_length] at hlt hbytes
  rw [word, UInt32.toNat_ofNat_of_lt' hlt, hbytes]

@[simp] theorem word_setWord_same (m : Mem) (a v : UInt32) : (m.setWord a v).word a = v := by
  have hread : (m.setWord a v).read a.toNat 4 = leBytes 4 v.toNat := by
    have hsame := read_write_same m a.toNat (leBytes 4 v.toNat)
    rwa [leBytes_length] at hsame
  have hv : v.toNat < 256 ^ 4 := v.toNat_lt
  rw [word, hread, leNat_leBytes hv, UInt32.ofNat_toNat]

/-- What is stored elsewhere leaves a read alone. -/
theorem read_setWord {m : Mem} {a len : Nat} {b v : UInt32} (h : b.toNat + 4 ≤ a ∨ a + len ≤ b.toNat) :
    (m.setWord b v).read a len = m.read a len := by
  apply read_write_disjoint
  rw [leBytes_length]
  omega

theorem word_setWord_ne {m : Mem} {a b v : UInt32} (h : a.toNat + 4 ≤ b.toNat ∨ b.toNat + 4 ≤ a.toNat) :
    (m.setWord b v).word a = m.word a := by
  rw [word, read_setWord h.symm, word]

end Mem

namespace Arm

/-- Memory and nothing else. -/
def ram : Bus Mem where
  load m a     := (m, m.word a)
  loadHalf m a := (m, UInt32.ofNat (leNat (m.read a.toNat 2)))
  store m a v  := m.setWord a v

end Arm

end Basis
