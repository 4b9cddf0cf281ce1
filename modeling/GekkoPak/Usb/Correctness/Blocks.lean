import GekkoPak.Usb.Cartridge

/-!
# `Usb.Correctness.Blocks` — commands, data phases and buffers

What both directions rest on. No two commands have the same eight bytes. Whatever the pace of the cartridge,
`usb_write_block` gives it the bytes to send, padded with zeros to 128 words, and `usb_read_block` copies the bytes of
the words it shows to memory, as many as were asked for and no more. Blocks take the two buffers in turn.
-/

namespace GekkoPak

open Basis

namespace Usb

/-! ## Commands -/

/-- The number the fields of a command make up. -/
def Command.value : Command → Nat
  | .init                         => 0xE8 * 2 ^ 56 + 1 * 2 ^ 48
  | .beginXfer ep off len         => 0xE8 * 2 ^ 56 + 16 * 2 ^ 48 + ep.toNat * 2 ^ 40 + off.toNat * 2 ^ 32 + len.toNat
  | .writeData off ep last total =>
      0xE9 * 2 ^ 56 + off.toNat * 2 ^ 48 + ep.toNat * 2 ^ 40 + last.toNat * 2 ^ 32 + total.toNat
  | .readData off ep              => 0xEA * 2 ^ 56 + ep.toNat * 2 ^ 40 + off.toNat * 2 ^ 32

/-- The fields of a command do not overlap. -/
theorem code_toNat (c : Command) : c.code.toNat = c.value := by
  have h32 := fun x : UInt8 => byte_shiftLeft_toNat x (show (32 : UInt64).toNat = 32 from rfl) (by omega)
  have h40 := fun x : UInt8 => byte_shiftLeft_toNat x (show (40 : UInt64).toNat = 40 from rfl) (by omega)
  have h48 := fun x : UInt8 => byte_shiftLeft_toNat x (show (48 : UInt64).toNat = 48 from rfl) (by omega)
  -- from the low end up, each field joins what is below it
  cases c with
  | init => rfl
  | beginXfer ep off len =>
    have hep : ep.toNat < 256 := ep.toNat_lt
    have hoff : off.toNat < 256 := off.toNat_lt
    have hlen : len.toNat < 2 ^ 32 := len.toNat_lt
    show (((0xE800000000000000 : UInt64) ||| ((16 : UInt64) <<< 48)) |||
      ((ep.toUInt64 <<< 40) ||| (off.toUInt64 <<< 32) ||| len.toUInt64)).toNat = _
    rw [show (0xE800000000000000 : UInt64) ||| ((16 : UInt64) <<< 48) = 0xE810000000000000 from rfl, UInt64.toNat_or,
      UInt64.toNat_or, UInt64.toNat_or, h40, h32, UInt32.toNat_toUInt64,
      show (0xE810000000000000 : UInt64).toNat = 0xE810 <<< 48 from rfl, Nat.or_assoc, shiftLeft_or_of_lt _ hlen,
      shiftLeft_or_of_lt ep.toNat (by omega), shiftLeft_or_of_lt 0xE810 (by omega)]
    simp only [Command.value]
    omega
  | writeData off ep last total =>
    have hep : ep.toNat < 256 := ep.toNat_lt
    have hoff : off.toNat < 256 := off.toNat_lt
    have hlast : last.toNat < 256 := last.toNat_lt
    have htotal : total.toNat < 2 ^ 32 := total.toNat_lt
    show ((0xE900000000000000 : UInt64) ||| (off.toUInt64 <<< 48) ||| (ep.toUInt64 <<< 40) ||| (last.toUInt64 <<< 32) |||
      total.toUInt64).toNat = _
    rw [UInt64.toNat_or, UInt64.toNat_or, UInt64.toNat_or, UInt64.toNat_or, h48, h40, h32, UInt32.toNat_toUInt64,
      show (0xE900000000000000 : UInt64).toNat = 0xE9 <<< 56 from rfl, Nat.or_assoc, Nat.or_assoc, Nat.or_assoc,
      shiftLeft_or_of_lt _ htotal, shiftLeft_or_of_lt ep.toNat (by omega), shiftLeft_or_of_lt off.toNat (by omega),
      shiftLeft_or_of_lt 0xE9 (by omega)]
    simp only [Command.value]
    omega
  | readData off ep =>
    have hep : ep.toNat < 256 := ep.toNat_lt
    have hoff : off.toNat < 256 := off.toNat_lt
    have hlow : off.toNat <<< 32 < 2 ^ 40 := by
      rw [Nat.shiftLeft_eq]
      omega
    show ((0xEA00000000000000 : UInt64) ||| (off.toUInt64 <<< 32) ||| (ep.toUInt64 <<< 40)).toNat = _
    rw [UInt64.toNat_or, UInt64.toNat_or, h40, h32, Nat.or_assoc, Nat.or_comm (off.toNat <<< 32),
      show (0xEA00000000000000 : UInt64).toNat = 0xEA <<< 56 from rfl, shiftLeft_or_of_lt ep.toNat hlow,
      shiftLeft_or_of_lt 0xEA (by omega), Nat.shiftLeft_eq]
    simp only [Command.value]
    omega

/-- The command with these fields. -/
def Command.ofValue (v : Nat) : Command :=
  if v / 2 ^ 56 = 0xE9 then
    .writeData (UInt8.ofNat (v / 2 ^ 48)) (UInt8.ofNat (v / 2 ^ 40)) (UInt8.ofNat (v / 2 ^ 32)) (UInt32.ofNat v)
  else if v / 2 ^ 56 = 0xEA then .readData (UInt8.ofNat (v / 2 ^ 32)) (UInt8.ofNat (v / 2 ^ 40))
  else if v / 2 ^ 48 % 256 = 16 then .beginXfer (UInt8.ofNat (v / 2 ^ 40)) (UInt8.ofNat (v / 2 ^ 32)) (UInt32.ofNat v)
  else .init

theorem Command.ofValue_value (c : Command) : ofValue c.value = c := by
  generalize hv : c.value = v
  have hbyte : ∀ (x : UInt8) (n : Nat), n % 256 = x.toNat → UInt8.ofNat n = x := by
    intro x n h
    exact UInt8.toNat_inj.mp (by rw [UInt8.toNat_ofNat']; exact h)
  have hword : ∀ (x : UInt32) (n : Nat), n % 2 ^ 32 = x.toNat → UInt32.ofNat n = x := by
    intro x n h
    exact UInt32.toNat_inj.mp (by rw [UInt32.toNat_ofNat']; exact h)
  cases c with
  | init =>
    rw [← hv]
    rfl
  | beginXfer ep off len =>
    have hep : ep.toNat < 256 := ep.toNat_lt
    have hoff : off.toNat < 256 := off.toNat_lt
    have hlen : len.toNat < 2 ^ 32 := len.toNat_lt
    simp only [value] at hv
    unfold ofValue
    rw [if_neg (by omega), if_neg (by omega), if_pos (by omega), hbyte ep _ (by omega), hbyte off _ (by omega),
      hword len _ (by omega)]
  | writeData off ep last total =>
    have hep : ep.toNat < 256 := ep.toNat_lt
    have hoff : off.toNat < 256 := off.toNat_lt
    have hlast : last.toNat < 256 := last.toNat_lt
    have htotal : total.toNat < 2 ^ 32 := total.toNat_lt
    simp only [value] at hv
    unfold ofValue
    rw [if_pos (by omega), hbyte off _ (by omega), hbyte ep _ (by omega), hbyte last _ (by omega),
      hword total _ (by omega)]
  | readData off ep =>
    have hep : ep.toNat < 256 := ep.toNat_lt
    have hoff : off.toNat < 256 := off.toNat_lt
    simp only [value] at hv
    unfold ofValue
    rw [if_neg (by omega), if_pos (by omega), hbyte off _ (by omega), hbyte ep _ (by omega)]

/-- **No two commands have the same eight bytes.** -/
theorem code_injective : Function.Injective Command.code := by
  intro c c' h
  rw [← c.ofValue_value, ← c'.ofValue_value, ← code_toNat, ← code_toNat, h]

/-! ## The guard -/

/-- As long as the guard leaves room for the polls left, it stops nothing: with the last poll there is nothing left. -/
theorem guarded {α : Type} {polls : List Bool} {guard : Nat} (h : polls.length + 1 + guard ≤ kBusGuard)
    (loop : List Bool → α) (stop : α) (hstop : loop [] = stop) :
    (if guard + 1 < kBusGuard then loop polls else stop) = loop polls := by
  by_cases hg : guard + 1 < kBusGuard
  · rw [if_pos hg]
  · have hnil : polls = [] := List.eq_nil_of_length_eq_zero (by omega)
    rw [if_neg hg, hnil, hstop]

/-! ## Writing -/

section Write

variable {m : Mem} {src len sent : Nat}

/-- A word put together from its low byte up. -/
theorem or_bytes (a b c d : UInt8) :
    a.toUInt32 ||| (b.toUInt32 <<< 8) ||| (c.toUInt32 <<< 16) ||| (d.toUInt32 <<< 24) = beWord d c b a := by
  have hrev : ∀ w x y z : UInt32, w ||| x ||| y ||| z = z ||| y ||| x ||| w := by
    intro w x y z
    rw [UInt32.or_comm _ z, UInt32.or_comm _ y, UInt32.or_comm w x, UInt32.or_assoc, UInt32.or_assoc]
  exact hrev _ _ _ _

/-- The loop over the last bytes leaves the others at zero. -/
theorem tailWord_eq (m : Mem) (src : Nat) :
    tailWord m src 1 0 0 = beWord 0 0 0 (m src) ∧ tailWord m src 2 0 0 = beWord 0 0 (m (src + 1)) (m src) ∧
      tailWord m src 3 0 0 = beWord 0 (m (src + 1 + 1)) (m (src + 1)) (m src) := by
  have hlow : ∀ x : UInt32, (0 : UInt32) ||| x <<< (0 * 8) = x := by
    intro x
    rw [UInt32.zero_mul, UInt32.shiftLeft_zero, UInt32.zero_or]
  have hzero : ∀ k : UInt32, (0 : UInt8).toUInt32 <<< k = 0 := fun k => UInt32.zero_shiftLeft
  simp only [← or_bytes, hzero, UInt32.or_zero, tailWord, hlow]
  exact ⟨trivial, rfl, rfl⟩

/-- A word of four bytes. -/
theorem le32_nextWord_full (h : sent + 4 ≤ len) : le32 (nextWord m src len sent).1 = m.read (src + sent) 4 := by
  rw [nextWord, if_pos h, or_bytes, le32_beWord]
  rfl

/-- The last word: what is left, from the low end. -/
theorem prefix_nextWord_tail (hsent : sent < len) (h : len < sent + 4) :
    m.read (src + sent) (len - sent) <+: le32 (nextWord m src len sent).1 := by
  obtain ⟨hone, htwo, hthree⟩ := tailWord_eq m (src + sent)
  rw [nextWord, if_neg (by omega), if_pos hsent]
  have hleft : len - sent = 1 ∨ len - sent = 2 ∨ len - sent = 3 := by omega
  rcases hleft with hleft | hleft | hleft
  · rw [hleft, hone, le32_beWord]
    exact ⟨[0, 0, 0], rfl⟩
  · rw [hleft, htwo, le32_beWord]
    exact ⟨[0, 0], rfl⟩
  · rw [hleft, hthree, le32_beWord]
    exact ⟨[0], rfl⟩

end Write

/-- Polls that the guard leaves room for. -/
theorem writeLoop_cons (m : Mem) (src len : Nat) {ready : Bool} {polls : List Bool} {guard : Nat}
    (h : (ready :: polls).length + guard ≤ kBusGuard) (sent : Nat) :
    writeLoop m src len (ready :: polls) guard sent =
      if ready then (nextWord m src len sent).1 :: writeLoop m src len polls (guard + 1) (nextWord m src len sent).2
      else writeLoop m src len polls (guard + 1) sent := by
  rw [List.length_cons] at h
  have hnext := fun sent' => guarded h (fun polls => writeLoop m src len polls (guard + 1) sent') [] rfl
  cases ready with
  | false => simp only [writeLoop, Bool.false_eq_true, if_false, hnext, List.nil_append]
  | true => simp only [writeLoop, if_true, hnext, List.singleton_append]

/-- **The words of a write.** With enough polls answered, what is left to send comes first in them. -/
theorem prefix_writeLoop (m : Mem) (src len : Nat) (polls : List Bool) :
    ∀ guard sent, polls.length + guard ≤ kBusGuard → len ≤ sent + 4 * polls.count true →
      m.read (src + sent) (len - sent) <+: (writeLoop m src len polls guard sent).flatMap le32 := by
  induction polls with
  | nil =>
    intro guard sent _ hlen
    have hdone : len - sent = 0 := Nat.sub_eq_zero_of_le (by simpa using hlen)
    rw [hdone]
    exact List.nil_prefix
  | cons ready polls ih =>
    intro guard sent hguard hlen
    have hguard' : polls.length + (guard + 1) ≤ kBusGuard := by rw [List.length_cons] at hguard; omega
    rw [writeLoop_cons m src len hguard]
    cases ready with
    | false =>
      rw [if_neg Bool.false_ne_true]
      exact ih (guard + 1) sent hguard' (by simpa using hlen)
    | true =>
      rw [List.count_cons_self] at hlen
      rw [if_pos rfl, List.flatMap_cons]
      rcases Nat.lt_or_ge len (sent + 4) with hshort | hfull
      · rcases Nat.lt_or_ge sent len with hlt | hge
        · exact (prefix_nextWord_tail hlt hshort).trans (List.prefix_append _ _)
        · rw [Nat.sub_eq_zero_of_le hge]
          exact List.nil_prefix
      · have hsent : (nextWord m src len sent).2 = sent + 4 := by rw [nextWord, if_pos hfull]
        have hrest := ih (guard + 1) (sent + 4) hguard' (by omega)
        have hsplit : m.read (src + sent) (len - sent) =
            m.read (src + sent) 4 ++ m.read (src + (sent + 4)) (len - (sent + 4)) := by
          rw [show len - sent = 4 + (len - (sent + 4)) by omega, Mem.read_add, Nat.add_assoc src sent 4]
        rw [le32_nextWord_full hfull, hsent, hsplit]
        exact (List.prefix_append_right_inj _).mpr hrest

/-- What the cartridge takes out of the data phase of a write. -/
theorem payload_writeLoop (m : Mem) (src : Nat) {len : Nat} (hlen : len ≤ 512) (p : Pacing) :
    ((writeLoop m src len p.polls 0 0).flatMap le32).take len = m.read src len := by
  have hpre := prefix_writeLoop m src len p.polls 0 0 p.bounded (by rw [p.words, kBlockPhaseWords]; omega)
  rw [Nat.add_zero, Nat.sub_zero] at hpre
  have htake := (List.prefix_iff_eq_take.mp hpre).symm
  rwa [Mem.read_length] at htake

/-! ## Reading -/

/-- `left` bytes of a word, from byte `i` on. -/
def bytesFrom (w : UInt32) : Nat → UInt32 → List UInt8
  | 0,        _ => []
  | left + 1, i => (w >>> (i * 8)).toUInt8 :: bytesFrom w left (i + 1)

theorem bytesFrom_word (w : UInt32) : bytesFrom w 4 0 = le32 w := by
  rw [le32_eq]
  simp [bytesFrom]

theorem storeWord_eq (dst len : Nat) (w : UInt32) (left : Nat) :
    ∀ i m got, storeWord dst len w left i m got =
      (m.write (dst + got) ((bytesFrom w left i).take (len - got)), got + min left (len - got)) := by
  induction left with
  | zero =>
    intro i m got
    rw [bytesFrom, List.take_nil, Mem.write_nil, Nat.zero_min]
    rfl
  | succ left ih =>
    intro i m got
    rw [storeWord]
    by_cases hgot : got < len
    · have hleft : len - got = (len - (got + 1)) + 1 := by omega
      have hcount : got + 1 + min left (len - (got + 1)) = got + min (left + 1) (len - (got + 1) + 1) := by omega
      have hjoin := Mem.write_write_append m (dst + got) [(w >>> (i * 8)).toUInt8]
        ((bytesFrom w left (i + 1)).take (len - (got + 1)))
      rw [if_pos hgot, ih, bytesFrom, hleft, List.take_succ_cons, hcount]
      exact Prod.ext hjoin rfl
    · rw [if_neg hgot, Nat.sub_eq_zero_of_le (by omega), List.take_zero, Mem.write_nil, Nat.min_zero]
      rfl

/-- Polls that the guard leaves room for. -/
theorem readLoop_cons (dst len : Nat) {ready : Bool} {polls : List Bool} {guard : Nat}
    (h : (ready :: polls).length + guard ≤ kBusGuard) (words : List UInt32) (m : Mem) (got : Nat) :
    readLoop dst len (ready :: polls) guard words m got =
      if ready then
        readLoop dst len polls (guard + 1) words.tail (m.write (dst + got) ((le32 (words.headD 0)).take (len - got)))
          (got + min 4 (len - got))
      else readLoop dst len polls (guard + 1) words m got := by
  rw [List.length_cons] at h
  have hnext := fun words' m' got' =>
    guarded h (fun polls => readLoop dst len polls (guard + 1) words' m' got') m' rfl
  cases ready with
  | false => simp only [readLoop, Bool.false_eq_true, if_false, hnext]
  | true => simp only [readLoop, if_true, hnext, storeWord_eq, bytesFrom_word]

/-- **What a read copies.** With enough polls and words, the bytes still asked for. -/
theorem readLoop_eq (dst len : Nat) (polls : List Bool) :
    ∀ guard words m got, polls.length + guard ≤ kBusGuard → len ≤ got + 4 * polls.count true →
      polls.count true ≤ words.length →
      readLoop dst len polls guard words m got = m.write (dst + got) ((words.flatMap le32).take (len - got)) := by
  induction polls with
  | nil =>
    intro guard words m got _ hlen _
    rw [Nat.sub_eq_zero_of_le (by simpa using hlen), List.take_zero, Mem.write_nil]
    rfl
  | cons ready polls ih =>
    intro guard words m got hguard hlen hwords
    have hguard' : polls.length + (guard + 1) ≤ kBusGuard := by rw [List.length_cons] at hguard; omega
    rw [readLoop_cons dst len hguard]
    cases ready with
    | false =>
      rw [if_neg Bool.false_ne_true]
      exact ih (guard + 1) words m got hguard' (by simpa using hlen) (by simpa using hwords)
    | true =>
      rw [List.count_cons_self] at hlen hwords
      cases words with
      | nil => simp at hwords
      | cons w words =>
        rw [List.length_cons] at hwords
        have htake : ((le32 w).take (len - got)).length = min 4 (len - got) := by
          rw [List.length_take, le32_length, Nat.min_comm]
        have hrest := ih (guard + 1) words (m.write (dst + got) ((le32 w).take (len - got))) (got + min 4 (len - got))
          hguard' (by omega) (by omega)
        rw [if_pos rfl, List.headD_cons, List.tail_cons, hrest, ← Nat.add_assoc, ← htake, Mem.write_write_append,
          List.flatMap_cons, List.take_append, le32_length, htake]
        congr 3
        omega

/-- What a read of a whole buffer leaves in memory. -/
theorem readLoop_wordsOf (m : Mem) (dst : Nat) {len : Nat} {bytes : List UInt8} (hbytes : bytes.length = 4 * 128)
    (hlen : len ≤ 512) (p : Pacing) :
    readLoop dst len p.polls 0 (wordsOf bytes) m 0 = m.write dst (bytes.take len) := by
  have hcount : p.polls.count true = 128 := p.words
  have h := readLoop_eq dst len p.polls 0 (wordsOf bytes) m 0 p.bounded (by omega)
    (by rw [wordsOf_length, hbytes, hcount])
  rwa [flatMap_le32_wordsOf hbytes] at h

/-! ## Blocks and buffers -/

/-- The buffer of block `k`. -/
def parity (k : Nat) : UInt8 := UInt8.ofNat (k % 2)

theorem parity_cases (k : Nat) : parity k = 0 ∧ parity (k + 1) = 1 ∨ parity k = 1 ∧ parity (k + 1) = 0 := by
  unfold parity
  rcases Nat.mod_two_eq_zero_or_one k with h | h
  · rw [h, show (k + 1) % 2 = 1 by omega]
    exact Or.inl ⟨rfl, rfl⟩
  · rw [h, show (k + 1) % 2 = 0 by omega]
    exact Or.inr ⟨rfl, rfl⟩

/-- `1 - buf`. -/
theorem one_sub_parity (k : Nat) : 1 - parity k = parity (k + 1) := by
  rcases parity_cases k with ⟨h, h'⟩ | ⟨h, h'⟩ <;> rw [h, h'] <;> rfl

theorem parity_add_two (k : Nat) : parity (k + 2) = parity k := by
  unfold parity
  rw [Nat.add_mod_right]

theorem parity_succ_ne (k : Nat) : parity (k + 1) ≠ parity k := by
  rcases parity_cases k with ⟨h, h'⟩ | ⟨h, h'⟩ <;> rw [h, h'] <;> decide

theorem parity_lt (k : Nat) : parity k < 2 := by
  rcases parity_cases k with ⟨h, -⟩ | ⟨h, -⟩ <;> rw [h] <;> decide

theorem capBlock_toNat (len : UInt32) : (capBlock len).toNat = min 512 len.toNat := by
  unfold capBlock
  split
  · rename_i h
    have hlt : 512 < len.toNat := UInt32.lt_iff_toNat_lt.mp h
    rw [Nat.min_eq_left (Nat.le_of_lt hlt)]
    rfl
  · rename_i h
    have hle : len.toNat ≤ 512 := Nat.not_lt.mp (fun hlt => h (UInt32.lt_iff_toNat_lt.mpr hlt))
    rw [Nat.min_eq_right hle]

theorem chunkLen_toNat (total k : Nat) : (UInt32.ofNat (chunkLen 512 total k)).toNat = chunkLen 512 total k :=
  UInt32.toNat_ofNat_of_lt' (by rw [chunkLen]; show _ < 2 ^ 32; omega)

theorem chunkLen_le {total k : Nat} {len : UInt32} (h : len.toNat = chunkLen 512 total k) : len ≤ 512 :=
  UInt32.le_iff_toNat_le.mpr (by rw [h, chunkLen]; exact Nat.min_le_left _ _)

/-! ## Histories -/

theorem completions_concat (history : List Action) {a : Action} (h : ∀ ep n, a ≠ .xferComplete ep n) :
    completions (history ++ [a]) = completions history := by
  unfold completions
  rw [List.filterMap_append]
  cases a with
  | xferComplete ep n => exact absurd rfl (h ep n)
  | cmd c => exact List.append_nil _
  | write c words => exact List.append_nil _
  | read c => exact List.append_nil _
  | event ep n => exact List.append_nil _

theorem completions_complete (history : List Action) (ep : UInt8) (n : UInt32) :
    completions (history ++ [.xferComplete ep n]) = completions history ++ [(ep, n)] := by
  unfold completions
  rw [List.filterMap_append]
  rfl

theorem fits_concat {history : List Action} {a : Action} (h : ∀ x ∈ history, x.Fits) (ha : a.Fits) :
    ∀ x ∈ history ++ [a], x.Fits := by
  intro x hx
  rcases List.mem_append.mp hx with hx | hx
  · exact h x hx
  · rw [List.mem_singleton.mp hx]
    exact ha

/-! ## Endpoints -/

/-- What a call makes of its endpoint. -/
theorem call_endpoint {addr : Fin 16 → UInt8} (eps : Endpoints addr) {i j : Fin 16} (h : j = i)
    (f : UsbEp → Bus × UsbEp) (hf : ∀ ep, (f ep).2.addr = ep.addr) :
    ((eps.call j f hf).1, ((eps.call j f hf).2 i).ep) = f (eps i).ep := by
  subst h
  simp only [Endpoints.call, Function.update_self]

end Usb

end GekkoPak
