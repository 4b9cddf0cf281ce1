import GekkoPak.Device.BlockSteps

/-!
# `Device.Correctness.Parser` — the F4 block parser against its grammar

A block is `d₁ in₁ d₂ in₂ … rest`: descriptors with a good header, each followed by its inline input, and then
a tail that holds no descriptor. The parser of `Device.Block` moves a cursor; here it is first rewritten as a
recursion on the bytes still ahead (`parseRest`), and that recursion is matched with the grammar one item at a
time (`nextItem_cases` for what can stand at the front, one equation of `parseRest` for each).
-/

namespace GekkoPak

open Basis

/-! ## The grammar -/

/-- A good header, and inline input of the announced length exactly when the flag says so. -/
def ParsedDescriptor.WellFormed (p : ParsedDescriptor) : Prop :=
  p.desc.headerOk = true ∧ p.input.isSome = p.desc.inlineInput ∧ (p.input.getD []).length = p.desc.inlineLength

/-- The inline input of a well-formed item has the announced length. -/
theorem ParsedDescriptor.WellFormed.input_length {p : ParsedDescriptor} (hp : p.WellFormed) {bs : List UInt8}
    (hbs : p.input = some bs) : bs.length = p.desc.inputLength.toNat := by
  obtain ⟨-, hsome, hsize⟩ := hp
  rw [hbs, Option.isSome_some] at hsome
  rw [hbs, Option.getD_some, JobDescriptorV1.inlineLength, if_pos hsome.symm] at hsize
  exact hsize

/-- An item as it stands in a block. -/
def ParsedDescriptor.encode (p : ParsedDescriptor) : List UInt8 := p.desc.toBytes ++ p.input.getD []

/-- Items one after the other. -/
def encodeBlock (ps : List ParsedDescriptor) : List UInt8 := ps.flatMap ParsedDescriptor.encode

/-- A tail in which no descriptor stands: too short for one, or beginning with four zero bytes. -/
def Terminated (rest : List UInt8) : Prop :=
  rest.length < kDescriptorBytes ∨ rest.take 4 = [0, 0, 0, 0]

/-- `data` is the items `ps` and then `rest`. -/
def Decomposes (data : List UInt8) (ps : List ParsedDescriptor) (rest : List UInt8) : Prop :=
  (∀ p ∈ ps, p.WellFormed) ∧ data = encodeBlock ps ++ rest

/-- Past some good items, a non-zero header that is not a good one. -/
def BadHeader (data : List UInt8) : Prop :=
  ∃ ps, ∃ d : JobDescriptorV1, ∃ tail, Decomposes data ps (d.toBytes ++ tail) ∧ d.magic ≠ 0 ∧ d.headerOk = false

/-- Past some good items, a good header whose inline input runs over the end. -/
def Overruns (data : List UInt8) : Prop :=
  ∃ ps, ∃ d : JobDescriptorV1, ∃ tail, Decomposes data ps (d.toBytes ++ tail) ∧ d.headerOk = true ∧ tail.length < d.inlineLength

theorem encodeBlock_cons (p : ParsedDescriptor) (ps : List ParsedDescriptor) :
    encodeBlock (p :: ps) = p.encode ++ encodeBlock ps := rfl

theorem decomposes_nil (data : List UInt8) : Decomposes data [] data := ⟨by simp, rfl⟩

theorem Decomposes.cons {data rest : List UInt8} {p : ParsedDescriptor} {ps : List ParsedDescriptor}
    (hp : p.WellFormed) (h : Decomposes data ps rest) : Decomposes (p.encode ++ data) (p :: ps) rest := by
  obtain ⟨hps, rfl⟩ := h
  constructor
  · intro q hq
    rcases List.mem_cons.mp hq with rfl | hq
    · exact hp
    · exact hps q hq
  · rw [encodeBlock_cons, List.append_assoc]

theorem headerOk_magic {d : JobDescriptorV1} (h : d.headerOk = true) : d.magic ≠ 0 := by
  simp only [JobDescriptorV1.headerOk, Bool.and_eq_true, beq_iff_eq] at h
  rw [h.1.1]
  decide

/-! ## The parser on the bytes ahead -/

/-- The parse loop as a recursion on the bytes from the cursor to the end of the block. -/
def parseRest : Nat → List UInt8 → Except Status (List ParsedDescriptor)
  | 0,        _  => .ok []
  | room + 1, bs =>
    if kDescriptorBytes ≤ bs.length then
      let desc := JobDescriptorV1.ofBytes (bs.take kDescriptorBytes)
      if desc.magic = 0 then .ok []
      else if !desc.headerOk then .error .badDescriptor
      else
        let tail := bs.drop kDescriptorBytes
        if desc.inlineLength > tail.length then .error .badBlock
        else do
          let rest ← parseRest room (tail.drop desc.inlineLength)
          let input := if desc.inlineInput then some (tail.take desc.inlineLength) else none
          return ⟨desc, input⟩ :: rest
    else .ok []

/-- The cursor loop sees nothing but the bytes ahead of the cursor. -/
theorem parseLoop_eq_parseRest {data : List UInt8} {len : Nat} (hlen : len ≤ data.length) :
    ∀ (room cursor : Nat), cursor ≤ len →
      parseLoop data len room cursor = parseRest room (slice data cursor (len - cursor)) := by
  intro room
  induction room with
  | zero => intro cursor _; rfl
  | succ room ih =>
    intro cursor hcur
    have hsize : (slice data cursor (len - cursor)).length = len - cursor := slice_length (by omega)
    unfold parseLoop parseRest
    rw [hsize]
    by_cases hfit : cursor + kDescriptorBytes ≤ len
    · have hfit' : cursor + 64 ≤ len := hfit
      have hhead : (slice data cursor (len - cursor)).take kDescriptorBytes = slice data cursor kDescriptorBytes := by
        simp only [slice, List.take_take]
        congr 1
        omega
      have htail : (slice data cursor (len - cursor)).drop kDescriptorBytes
          = slice data (cursor + kDescriptorBytes) (len - (cursor + kDescriptorBytes)) := by
        simp only [slice, List.drop_take, List.drop_drop]
        congr 1
      have hsize' : (slice data (cursor + kDescriptorBytes) (len - (cursor + kDescriptorBytes))).length
          = len - (cursor + kDescriptorBytes) := slice_length (by omega)
      rw [if_pos hfit, if_pos (show 64 ≤ len - cursor by omega), hhead, htail]
      -- from here on the descriptor is any descriptor: both sides branch on it alike
      generalize JobDescriptorV1.ofBytes (slice data cursor kDescriptorBytes) = desc
      simp only [hsize']
      by_cases hrun : desc.inlineLength > len - (cursor + kDescriptorBytes)
      · simp only [if_pos hrun]
      · have hdrop : (slice data (cursor + kDescriptorBytes) (len - (cursor + kDescriptorBytes))).drop
            desc.inlineLength = slice data (cursor + kDescriptorBytes + desc.inlineLength)
              (len - (cursor + kDescriptorBytes + desc.inlineLength)) := by
          simp only [slice, List.drop_take, List.drop_drop]
          congr 1
          omega
        have htake : (slice data (cursor + kDescriptorBytes) (len - (cursor + kDescriptorBytes))).take
            desc.inlineLength = slice data (cursor + kDescriptorBytes) desc.inlineLength := by
          simp only [slice, List.take_take]
          congr 1
          omega
        simp only [if_neg hrun, hdrop, htake]
        rw [ih (cursor + kDescriptorBytes + desc.inlineLength) (by omega)]
    · have hfit' : ¬ cursor + 64 ≤ len := hfit
      rw [if_neg hfit, if_neg (show ¬ 64 ≤ len - cursor by omega)]

/-- `parse` looks at the first `len` bytes of the buffer only. -/
theorem parse_eq_parseRest {data : List UInt8} {len : Nat} (hlen : len ≤ data.length) :
    parse data len = do
      let parsed ← parseRest kMaxDescriptorsPerBlock (data.take len)
      if parsed.length = 0 then .error .badDescriptor else return parsed := by
  have h := parseLoop_eq_parseRest hlen kMaxDescriptorsPerBlock 0 (Nat.zero_le len)
  unfold parse
  rw [h]
  rfl

/-! ## One item at a time -/

theorem take_toBytes (d : JobDescriptorV1) (tail : List UInt8) :
    (d.toBytes ++ tail).take kDescriptorBytes = d.toBytes := by
  rw [← JobDescriptorV1.toBytes_length d, List.take_left]

theorem drop_toBytes (d : JobDescriptorV1) (tail : List UInt8) :
    (d.toBytes ++ tail).drop kDescriptorBytes = tail := by
  rw [← JobDescriptorV1.toBytes_length d, List.drop_left]

theorem toBytes_append_length (d : JobDescriptorV1) (tail : List UInt8) :
    kDescriptorBytes ≤ (d.toBytes ++ tail).length := by
  rw [List.length_append, JobDescriptorV1.toBytes_length]
  exact Nat.le_add_right _ _

/-- The magic word is the first four bytes. -/
theorem ofBytes_magic (bs : List UInt8) :
    (JobDescriptorV1.ofBytes (bs.take kDescriptorBytes)).magic = ofLe32 (bs.take 4) := by
  show ofLe32 (slice (bs.take 64) 0 4) = _
  simp [slice, List.take_take]

/-- **What can stand at the front of the bytes ahead**: nothing, a bad header, an overrun, or an item. -/
theorem nextItem_cases (bs : List UInt8) :
    Terminated bs ∨
    (∃ (d : JobDescriptorV1) (tail : List UInt8), bs = d.toBytes ++ tail ∧ d.magic ≠ 0 ∧ d.headerOk = false) ∨
    (∃ (d : JobDescriptorV1) (tail : List UInt8), bs = d.toBytes ++ tail ∧ d.headerOk = true ∧ tail.length < d.inlineLength) ∨
    ∃ (p : ParsedDescriptor) (rest : List UInt8), bs = p.encode ++ rest ∧ p.WellFormed := by
  by_cases hlong : bs.length < kDescriptorBytes
  · exact Or.inl (Or.inl hlong)
  have hlen : kDescriptorBytes ≤ bs.length := Nat.le_of_not_lt hlong
  -- 64 bytes or more always start with the encoding of some descriptor
  obtain ⟨d, tail, rfl⟩ : ∃ (d : JobDescriptorV1) (tail : List UInt8), bs = d.toBytes ++ tail := by
    refine ⟨JobDescriptorV1.ofBytes (bs.take kDescriptorBytes), bs.drop kDescriptorBytes, ?_⟩
    rw [JobDescriptorV1.toBytes_ofBytes (by rw [List.length_take, Nat.min_eq_left hlen]),
      List.take_append_drop]
  by_cases hmagic : d.magic = 0
  · refine Or.inl (Or.inr ?_)
    have hfour : (d.toBytes ++ tail).take 4 = le32 d.magic := by
      rw [JobDescriptorV1.toBytes, List.append_assoc, ← le32_length d.magic, List.take_left]
    rw [hfour, hmagic]
    rfl
  cases hok : d.headerOk with
  | false => exact Or.inr (Or.inl ⟨d, tail, rfl, hmagic, hok⟩)
  | true =>
    by_cases hrun : tail.length < d.inlineLength
    · exact Or.inr (Or.inr (Or.inl ⟨d, tail, rfl, hok, hrun⟩))
    · refine Or.inr (Or.inr (Or.inr ?_))
      cases hin : d.inlineInput with
      | false =>
        refine ⟨⟨d, none⟩, tail, by simp [ParsedDescriptor.encode], hok, hin.symm, ?_⟩
        simp [JobDescriptorV1.inlineLength, hin]
      | true =>
        refine ⟨⟨d, some (tail.take d.inlineLength)⟩, tail.drop d.inlineLength, ?_, hok, hin.symm, ?_⟩
        · simp [ParsedDescriptor.encode]
        · simp only [Option.getD_some, List.length_take]
          omega

theorem parseRest_terminated {bs : List UInt8} (h : Terminated bs) (room : Nat) : parseRest room bs = .ok [] := by
  cases room with
  | zero => rfl
  | succ room =>
    unfold parseRest
    by_cases hlong : kDescriptorBytes ≤ bs.length
    · rcases h with h | h
      · omega
      · have hmagic : (JobDescriptorV1.ofBytes (bs.take kDescriptorBytes)).magic = 0 := by
          rw [ofBytes_magic, h]
          rfl
        rw [if_pos hlong]
        exact if_pos hmagic
    · rw [if_neg hlong]

theorem parseRest_badHeader {d : JobDescriptorV1} (hmagic : d.magic ≠ 0) (hbad : d.headerOk = false)
    (tail : List UInt8) (room : Nat) : parseRest (room + 1) (d.toBytes ++ tail) = .error .badDescriptor := by
  unfold parseRest
  rw [if_pos (toBytes_append_length d tail), take_toBytes, JobDescriptorV1.ofBytes_toBytes]
  simp [hmagic, hbad]

theorem parseRest_overrun {d : JobDescriptorV1} {tail : List UInt8} (hok : d.headerOk = true)
    (hrun : tail.length < d.inlineLength) (room : Nat) :
    parseRest (room + 1) (d.toBytes ++ tail) = .error .badBlock := by
  unfold parseRest
  rw [if_pos (toBytes_append_length d tail), take_toBytes, drop_toBytes, JobDescriptorV1.ofBytes_toBytes]
  simp [headerOk_magic hok, hok, hrun]

theorem parseRest_item {p : ParsedDescriptor} (hp : p.WellFormed) (rest : List UInt8) (room : Nat) :
    parseRest (room + 1) (p.encode ++ rest) = (do let ps ← parseRest room rest; return p :: ps) := by
  obtain ⟨desc, input⟩ := p
  obtain ⟨hok, hsome, hlen⟩ := hp
  have hassoc : (ParsedDescriptor.mk desc input).encode ++ rest = desc.toBytes ++ (input.getD [] ++ rest) := by
    simp [ParsedDescriptor.encode]
  have hinput : (if desc.inlineInput then some ((input.getD [] ++ rest).take desc.inlineLength) else none)
      = input := by
    rw [← hlen, List.take_left, ← hsome]
    cases input <;> rfl
  have hroom : ¬ desc.inlineLength > (input.getD [] ++ rest).length := by
    rw [List.length_append, ← hlen]
    exact Nat.not_lt.mpr (Nat.le_add_right _ _)
  have hdrop : (input.getD [] ++ rest).drop desc.inlineLength = rest := by rw [← hlen, List.drop_left]
  have hok' : desc.headerOk = true := hok
  conv_lhs => unfold parseRest
  rw [hassoc, if_pos (toBytes_append_length desc _), take_toBytes, drop_toBytes,
    JobDescriptorV1.ofBytes_toBytes]
  simp only [headerOk_magic hok', hok', hroom, hdrop, hinput, if_false, Bool.not_true, Bool.false_eq_true]

/-! ## The whole block -/

/-- Every item takes at least a descriptor's worth of bytes. -/
theorem Decomposes.length_le {data rest : List UInt8} {ps : List ParsedDescriptor} (h : Decomposes data ps rest) :
    kDescriptorBytes * ps.length + rest.length ≤ data.length := by
  obtain ⟨-, rfl⟩ := h
  have hitems : kDescriptorBytes * ps.length ≤ (encodeBlock ps).length := by
    induction ps with
    | nil => exact Nat.zero_le _
    | cons p ps ih =>
      rw [encodeBlock_cons, List.length_append, ParsedDescriptor.encode, List.length_append,
        JobDescriptorV1.toBytes_length, List.length_cons, Nat.mul_succ]
      omega
  rw [List.length_append]
  omega

/-- Good items in front are parsed off, whatever follows. -/
theorem parseRest_through {rest : List UInt8} :
    ∀ {ps : List ParsedDescriptor} {data : List UInt8} {room : Nat}, Decomposes data ps rest →
      parseRest (ps.length + room) data = (do let qs ← parseRest room rest; return ps ++ qs) := by
  intro ps
  induction ps with
  | nil =>
    rintro data room ⟨-, hdata⟩
    rw [show data = rest from hdata, List.length_nil, Nat.zero_add]
    cases parseRest room rest <;> rfl
  | cons p ps ih =>
    rintro data room ⟨hps, rfl⟩
    have htail : Decomposes (encodeBlock ps ++ rest) ps rest :=
      ⟨fun q hq => hps q (List.mem_cons_of_mem p hq), rfl⟩
    rw [encodeBlock_cons, List.append_assoc, List.length_cons, Nat.add_right_comm,
      parseRest_item (hps p (by simp)), ih htail]
    cases parseRest room rest <;> rfl

/-- **The recursion finds one of the three readings of the block.** By induction on the room; `nextItem_cases`
    says what stands at the front, and an item leaves a shorter block for less room. -/
theorem parseRest_sound :
    ∀ (room : Nat) (data : List UInt8), data.length ≤ kDescriptorBytes * room →
      (∃ ps rest, parseRest room data = .ok ps ∧ Decomposes data ps rest ∧ Terminated rest) ∨
      (parseRest room data = .error .badDescriptor ∧ BadHeader data) ∨
      (parseRest room data = .error .badBlock ∧ Overruns data) := by
  intro room
  induction room with
  | zero =>
    intro data hroom
    -- no room left means no bytes left: the cap cannot cut a block short
    have hnil : data.length < kDescriptorBytes := Nat.lt_of_le_of_lt hroom (by decide)
    exact Or.inl ⟨[], data, rfl, decomposes_nil data, Or.inl hnil⟩
  | succ room ih =>
    intro data hroom
    rcases nextItem_cases data with hterm | ⟨d, tail, rfl, hmagic, hbad⟩ | ⟨d, tail, rfl, hok, hrun⟩ |
      ⟨p, rest, rfl, hp⟩
    · exact Or.inl ⟨[], data, parseRest_terminated hterm _, decomposes_nil data, hterm⟩
    · exact Or.inr (Or.inl ⟨parseRest_badHeader hmagic hbad tail room,
        [], d, tail, decomposes_nil _, hmagic, hbad⟩)
    · exact Or.inr (Or.inr ⟨parseRest_overrun hok hrun room, [], d, tail, decomposes_nil _, hok, hrun⟩)
    · have hshort : rest.length ≤ kDescriptorBytes * room := by
        rw [List.length_append, ParsedDescriptor.encode, List.length_append, JobDescriptorV1.toBytes_length,
          Nat.mul_succ] at hroom
        omega
      rw [parseRest_item hp]
      rcases ih rest hshort with ⟨ps, tail, heq, hdec, hterm⟩ | ⟨heq, ps, d, tail, hdec, h⟩ |
        ⟨heq, ps, d, tail, hdec, h⟩
      · rw [heq]
        exact Or.inl ⟨p :: ps, tail, rfl, hdec.cons hp, hterm⟩
      · rw [heq]
        exact Or.inr (Or.inl ⟨rfl, p :: ps, d, tail, hdec.cons hp, h⟩)
      · rw [heq]
        exact Or.inr (Or.inr ⟨rfl, p :: ps, d, tail, hdec.cons hp, h⟩)

section Room

variable {data : List UInt8} {room : Nat} (hroom : data.length ≤ kDescriptorBytes * room)
include hroom

theorem parseRest_of_terminated {ps : List ParsedDescriptor} {rest : List UInt8} (h : Decomposes data ps rest)
    (hterm : Terminated rest) : parseRest room data = .ok ps := by
  have hlen : 64 * ps.length + rest.length ≤ data.length := h.length_le
  have hroom' : data.length ≤ 64 * room := hroom
  obtain ⟨k, rfl⟩ : ∃ k, room = ps.length + k := Nat.exists_eq_add_of_le (by omega)
  rw [parseRest_through h, parseRest_terminated hterm]
  show Except.ok (ps ++ []) = _
  rw [List.append_nil]

/-- Room for the items in front and for the faulty header after them. -/
theorem exists_room {ps : List ParsedDescriptor} {d : JobDescriptorV1} {tail : List UInt8}
    (h : Decomposes data ps (d.toBytes ++ tail)) : ∃ k, room = ps.length + (k + 1) := by
  have hlen : 64 * ps.length + (d.toBytes ++ tail).length ≤ data.length := h.length_le
  have hroom' : data.length ≤ 64 * room := hroom
  have hd : d.toBytes.length = 64 := JobDescriptorV1.toBytes_length d
  rw [List.length_append, hd] at hlen
  obtain ⟨k, hk⟩ : ∃ k, room = (ps.length + 1) + k := Nat.exists_eq_add_of_le (by omega)
  exact ⟨k, by omega⟩

theorem parseRest_of_badHeader (h : BadHeader data) : parseRest room data = .error .badDescriptor := by
  obtain ⟨ps, d, tail, hdec, hmagic, hbad⟩ := h
  obtain ⟨k, rfl⟩ := exists_room hroom hdec
  rw [parseRest_through hdec, parseRest_badHeader hmagic hbad]
  rfl

theorem parseRest_of_overruns (h : Overruns data) : parseRest room data = .error .badBlock := by
  obtain ⟨ps, d, tail, hdec, hok, hrun⟩ := h
  obtain ⟨k, rfl⟩ := exists_room hroom hdec
  rw [parseRest_through hdec, parseRest_overrun hok hrun]
  rfl

theorem parseRest_eq_ok {ps : List ParsedDescriptor} :
    parseRest room data = .ok ps ↔ ∃ rest, Decomposes data ps rest ∧ Terminated rest := by
  constructor
  · intro h
    rcases parseRest_sound room data hroom with ⟨qs, rest, heq, hdec, hterm⟩ | ⟨heq, -⟩ | ⟨heq, -⟩
    · rw [heq] at h
      cases h
      exact ⟨rest, hdec, hterm⟩
    · rw [heq] at h; cases h
    · rw [heq] at h; cases h
  · rintro ⟨rest, hdec, hterm⟩
    exact parseRest_of_terminated hroom hdec hterm

theorem parseRest_eq_error {st : Status} :
    parseRest room data = .error st ↔ (st = .badBlock ∧ Overruns data) ∨ (st = .badDescriptor ∧ BadHeader data) := by
  constructor
  · intro h
    rcases parseRest_sound room data hroom with ⟨qs, rest, heq, -⟩ | ⟨heq, hbad⟩ | ⟨heq, hrun⟩
    · rw [heq] at h; cases h
    · rw [heq] at h; cases h; exact Or.inr ⟨rfl, hbad⟩
    · rw [heq] at h; cases h; exact Or.inl ⟨rfl, hrun⟩
  · rintro (⟨rfl, h⟩ | ⟨rfl, h⟩)
    · exact parseRest_of_overruns hroom h
    · exact parseRest_of_badHeader hroom h

/-- More room than the block has bytes for changes nothing. -/
theorem parseRest_more_room {room' : Nat} (hle : room ≤ room') : parseRest room' data = parseRest room data := by
  have hroom' : data.length ≤ kDescriptorBytes * room' :=
    Nat.le_trans hroom (Nat.mul_le_mul_left kDescriptorBytes hle)
  cases h : parseRest room data with
  | ok ps => exact (parseRest_eq_ok hroom').mpr ((parseRest_eq_ok hroom).mp h)
  | error st => exact (parseRest_eq_error hroom').mpr ((parseRest_eq_error hroom).mp h)

end Room

/-- The two ways `parse` answers, in terms of the recursion over a block of at most 512 bytes. -/
theorem parse_eq_ok {data : List UInt8} {len : Nat} (hlen : len ≤ data.length) (hblock : len ≤ kBlockBytes)
    {ps : List ParsedDescriptor} :
    parse data len = .ok ps ↔ ps ≠ [] ∧ ∃ rest, Decomposes (data.take len) ps rest ∧ Terminated rest := by
  have hroom : (data.take len).length ≤ kDescriptorBytes * kMaxDescriptorsPerBlock := by
    rw [List.length_take, Nat.min_eq_left hlen]; exact hblock
  rw [parse_eq_parseRest hlen, ← parseRest_eq_ok hroom]
  cases parseRest kMaxDescriptorsPerBlock (data.take len) with
  | error st => constructor <;> intro h <;> simp [bind, Except.bind] at h
  | ok qs =>
    show (if qs.length = 0 then Except.error Status.badDescriptor else Except.ok qs) = .ok ps ↔ _
    cases qs with
    | nil =>
      constructor
      · intro h; cases h
      · rintro ⟨hne, h⟩; cases h; exact absurd rfl hne
    | cons q qs =>
      constructor
      · intro h; cases h; exact ⟨by simp, rfl⟩
      · rintro ⟨-, h⟩; cases h; rfl

theorem parse_eq_error {data : List UInt8} {len : Nat} (hlen : len ≤ data.length) (hblock : len ≤ kBlockBytes)
    {st : Status} :
    parse data len = .error st ↔
      (st = .badBlock ∧ Overruns (data.take len)) ∨
      (st = .badDescriptor ∧ (BadHeader (data.take len) ∨ Terminated (data.take len))) := by
  have hroom : (data.take len).length ≤ kDescriptorBytes * kMaxDescriptorsPerBlock := by
    rw [List.length_take, Nat.min_eq_left hlen]; exact hblock
  have herr : parseRest kMaxDescriptorsPerBlock (data.take len) = .error st ↔ _ := parseRest_eq_error hroom
  have hnil : parseRest kMaxDescriptorsPerBlock (data.take len) = .ok [] ↔ Terminated (data.take len) := by
    rw [parseRest_eq_ok hroom]
    constructor
    · rintro ⟨rest, ⟨-, hrest⟩, hterm⟩
      rw [hrest]
      exact hterm
    · intro hterm
      exact ⟨_, decomposes_nil _, hterm⟩
  rw [parse_eq_parseRest hlen]
  cases hp : parseRest kMaxDescriptorsPerBlock (data.take len) with
  | error st' =>
    rw [hp] at herr hnil
    have hno : ¬ Terminated (data.take len) := fun h => by cases hnil.mpr h
    show Except.error st' = .error st ↔ _
    rw [or_iff_left hno]
    exact herr
  | ok qs =>
    rw [hp] at herr hnil
    have hno : ¬ ((st = .badBlock ∧ Overruns (data.take len)) ∨ (st = .badDescriptor ∧ BadHeader (data.take len))) :=
      fun h => by cases herr.mpr h
    show (if qs.length = 0 then Except.error Status.badDescriptor else Except.ok qs) = .error st ↔ _
    cases qs with
    | nil =>   -- the block starts with its tail: no descriptor at all
      have hterm := hnil.mp rfl
      constructor
      · intro h; cases h; exact Or.inr ⟨rfl, Or.inr hterm⟩
      · rintro (h | ⟨rfl, -⟩)
        · exact absurd (Or.inl h) hno
        · rfl
    | cons q qs =>
      constructor
      · intro h; cases h
      · rintro (h | ⟨rfl, h | h⟩)
        · exact absurd (Or.inl h) hno
        · exact absurd (Or.inr ⟨rfl, h⟩) hno
        · cases hnil.mpr h

/-- What the parser accepts is well formed. -/
theorem parse_wellFormed {data : List UInt8} {len : Nat} (hlen : len ≤ data.length) (hblock : len ≤ kBlockBytes)
    {ps : List ParsedDescriptor} (h : parse data len = .ok ps) : ∀ p ∈ ps, p.WellFormed := by
  obtain ⟨-, rest, hdec, -⟩ := (parse_eq_ok hlen hblock).mp h
  exact hdec.1

/-- Zero padding of any length is a tail. -/
theorem terminated_replicate (pad : Nat) : Terminated (List.replicate pad 0) := by
  rcases Nat.lt_or_ge pad 4 with h | h
  · exact Or.inl (by rw [List.length_replicate]; show pad < 64; omega)
  · exact Or.inr (by rw [List.take_replicate, Nat.min_eq_left h]; rfl)

/-! ## The encoder -/

/-- `gpk_build_descriptor` of the DS benchmark client. -/
def gpkBuildDescriptor (sequence handle inputLength flags workUnits : UInt32) : JobDescriptorV1 :=
  { magic := kDescriptorMagic
    version := kBlockProtocolVersion
    opcode := kDescriptorOpcodeSubmit
    sequence := sequence
    flags := flags
    inputHandle := handle
    inputOffset := 0
    inputLength := inputLength
    outputLength := 16
    kernelId := 1
    workUnits := workUnits
    arg0 := 3500 }

/-- **The parser accepts exactly its grammar and inverts the encoder.** For every block of at most 512 bytes:
    it succeeds with `ps` iff `ps` is non-empty and the block is the items `ps`, all good, and then a tail;
    that reading is unique; it fails with `kBadBlock` iff the first fault is a good header whose inline input
    overruns, and with `kBadDescriptor` iff it is a bad header or there is no descriptor at all; a block made
    by the encoder, with any zero padding, parses to what was encoded; and a larger table would change
    nothing. -/
theorem parse_exact (data : List UInt8) (hblock : data.length ≤ kBlockBytes) :
    (∀ ps, parse data data.length = .ok ps ↔
      ps ≠ [] ∧ ∃ rest, Decomposes data ps rest ∧ Terminated rest) ∧
    (∀ ps rest ps' rest', Decomposes data ps rest → Terminated rest → Decomposes data ps' rest' →
      Terminated rest' → ps = ps' ∧ rest = rest') ∧
    (∀ st, parse data data.length = .error st ↔
      (st = .badBlock ∧ Overruns data) ∨ (st = .badDescriptor ∧ (BadHeader data ∨ Terminated data))) ∧
    (∀ ps pad, ps ≠ [] → (∀ p ∈ ps, p.WellFormed) → data = encodeBlock ps ++ List.replicate pad 0 →
      parse data data.length = .ok ps) ∧
    (∀ ps rest, Decomposes data ps rest → ps.length ≤ kMaxDescriptorsPerBlock) ∧
    (∀ room, kMaxDescriptorsPerBlock ≤ room →
      parseLoop data data.length room 0 = parseLoop data data.length kMaxDescriptorsPerBlock 0) := by
  have hroom : data.length ≤ kDescriptorBytes * kMaxDescriptorsPerBlock := hblock
  have hok : ∀ ps, parse data data.length = .ok ps ↔
      ps ≠ [] ∧ ∃ rest, Decomposes data ps rest ∧ Terminated rest := by
    intro ps
    rw [parse_eq_ok (Nat.le_refl _) hblock, List.take_length]
  refine ⟨hok, ?_, ?_, ?_, ?_, ?_⟩
  · -- two readings of one block are both what the loop returns
    intro ps rest ps' rest' hdec hterm hdec' hterm'
    have h := parseRest_of_terminated hroom hdec hterm
    rw [parseRest_of_terminated hroom hdec' hterm'] at h
    cases h
    exact ⟨rfl, List.append_cancel_left (hdec.2.symm.trans hdec'.2)⟩
  · intro st
    rw [parse_eq_error (Nat.le_refl _) hblock, List.take_length]
  · intro ps pad hne hps hdata
    exact (hok ps).mpr ⟨hne, _, ⟨hps, hdata⟩, terminated_replicate pad⟩
  · intro ps rest hdec
    have hlen : 64 * ps.length + rest.length ≤ data.length := hdec.length_le
    have hblock' : data.length ≤ 512 := hblock
    show ps.length ≤ 8
    omega
  · intro room hle
    have hslice : slice data 0 (data.length - 0) = data := slice_eq_self rfl
    rw [parseLoop_eq_parseRest (Nat.le_refl _) _ _ (Nat.zero_le _),
      parseLoop_eq_parseRest (Nat.le_refl _) _ _ (Nat.zero_le _), hslice]
    exact parseRest_more_room hroom hle

/-- The block of the benchmark client: one descriptor with four bytes of inline input. -/
theorem parse_exact_client :
    parse (encodeBlock [⟨gpkBuildDescriptor 1 1 4 1 16, some [1, 2, 3, 4]⟩]) 68 =
      .ok [⟨gpkBuildDescriptor 1 1 4 1 16, some [1, 2, 3, 4]⟩] := by
  have hwf : ∀ p ∈ [ParsedDescriptor.mk (gpkBuildDescriptor 1 1 4 1 16) (some [1, 2, 3, 4])], p.WellFormed := by
    intro p hp
    rw [List.mem_singleton] at hp
    subst hp
    exact ⟨rfl, by decide, by decide⟩
  have hlen : (encodeBlock [⟨gpkBuildDescriptor 1 1 4 1 16, some [1, 2, 3, 4]⟩]).length = 68 := by decide
  have h := (parse_exact (encodeBlock [⟨gpkBuildDescriptor 1 1 4 1 16, some [1, 2, 3, 4]⟩])
    (by rw [hlen]; decide)).2.2.2.1 _ 0 (by simp) hwf (List.append_nil _).symm
  rw [hlen] at h
  exact h

end GekkoPak
