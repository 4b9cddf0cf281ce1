import GekkoPak.Device.Correctness.Parser

/-!
# `Device.Correctness.Noninterference` — what the device does not read

An F4 carries 512 bytes, of which the first `len` are meaningful, and a descriptor has fields that no code looks at. Two
inputs that differ only there are the same input: `JobDescriptorV1.declared` blanks the fields of a descriptor that are
not read, `SameBlock` relates blocks whose descriptors agree up to that, `SameInput` relates wire operations. The
argument is one equation a function on the way (`_declared`), and the run is then the same run: not just equal answers,
equal states.
-/

namespace GekkoPak

open Basis

/-! ## Inputs that differ only in what is not read -/

/-- The descriptor with everything that is not read set to zero: flag bits 1-31, the kernel, three of the arguments, and
    the output offset when no output is named. -/
def JobDescriptorV1.declared (d : JobDescriptorV1) : JobDescriptorV1 :=
  { d with
    flags := d.flags &&& kDescriptorFlagInlineInput
    outputOffset := if d.outputHandle = 0 then 0 else d.outputOffset
    kernelId := 0
    arg1 := 0
    arg2 := 0
    arg3 := 0 }

/-- Two blocks, byte for byte the same but for fields of their descriptors that are not read. The descriptors stand where
    the format puts them: the next one behind the inline input of the one before. -/
inductive SameBlock : List UInt8 → List UInt8 → Prop
  | same (bs : List UInt8) : SameBlock bs bs
  | descriptor {d d' : JobDescriptorV1} (hd : d.declared = d'.declared) (input : List UInt8)
      (hlen : input.length = d.inlineLength) {rest rest' : List UInt8} (hrest : SameBlock rest rest') :
      SameBlock (d.toBytes ++ (input ++ rest)) (d'.toBytes ++ (input ++ rest'))
  | overrun {d d' : JobDescriptorV1} (hd : d.declared = d'.declared) (input : List UInt8)
      (hlen : input.length < d.inlineLength) : SameBlock (d.toBytes ++ input) (d'.toBytes ++ input)

namespace Device

/-- The same wire operation but for the sequence word of an F1, the upper half of the word of an F4, the bytes of its data
    phase past the meaningful length, and the fields of its descriptors that are not read. -/
inductive SameInput : WireOp → WireOp → Prop
  | same (op : WireOp) : SameInput op op
  | exec (command : UInt8) (sequence sequence' : UInt32) : SameInput (.exec command sequence) (.exec command sequence')
  | writeBlock (selector : UInt8) {word word' : UInt32} {data data' : List UInt8} (hword : word &&& 0xFFFF = word' &&& 0xFFFF)
      (hsize : data.length = data'.length)
      (hblock : SameBlock (data.take (blockLength word)) (data'.take (blockLength word))) :
      SameInput (.writeBlock selector word (some data)) (.writeBlock selector word' (some data'))

end Device

/-! ## The parser -/

/-- The item with its descriptor blanked. -/
def ParsedDescriptor.declared (p : ParsedDescriptor) : ParsedDescriptor := ⟨p.desc.declared, p.input⟩

/-- The result of a parse, its descriptors blanked. -/
def declaredItems (parsed : Except Status (List ParsedDescriptor)) : Except Status (List ParsedDescriptor) :=
  parsed.map (List.map ParsedDescriptor.declared)

section Declared

variable {d d' : JobDescriptorV1}

theorem declared_magic (h : d.declared = d'.declared) : d.magic = d'.magic := by
  show d.declared.magic = d'.declared.magic
  rw [h]

theorem declared_headerOk (h : d.declared = d'.declared) : d.headerOk = d'.headerOk := by
  show d.declared.headerOk = d'.declared.headerOk
  rw [h]

theorem declared_inlineInput (h : d.declared = d'.declared) : d.inlineInput = d'.inlineInput := by
  have hflags : d.declared.flags = d'.declared.flags := by rw [h]
  show (d.declared.flags != 0) = (d'.declared.flags != 0)
  rw [hflags]

theorem declared_inlineLength (h : d.declared = d'.declared) : d.inlineLength = d'.inlineLength := by
  have hlen : d.inputLength = d'.inputLength := by
    show d.declared.inputLength = d'.declared.inputLength
    rw [h]
  unfold JobDescriptorV1.inlineLength
  rw [declared_inlineInput h, hlen]

end Declared

/-- One turn of the parser at a descriptor. -/
theorem parseRest_toBytes (d : JobDescriptorV1) (tail : List UInt8) (room : Nat) :
    parseRest (room + 1) (d.toBytes ++ tail) =
      if d.magic = 0 then .ok []
      else if !d.headerOk then .error .badDescriptor
      else if d.inlineLength > tail.length then .error .badBlock
      else (parseRest room (tail.drop d.inlineLength)).map
        (List.cons ⟨d, if d.inlineInput then some (tail.take d.inlineLength) else none⟩) := by
  conv_lhs => unfold parseRest
  rw [if_pos (toBytes_append_length d tail), take_toBytes, drop_toBytes, JobDescriptorV1.ofBytes_toBytes]
  rfl

/-- **The parser reads the blanked descriptors.** -/
theorem parseRest_declared : ∀ (room : Nat) {bs bs' : List UInt8}, SameBlock bs bs' →
    declaredItems (parseRest room bs) = declaredItems (parseRest room bs') := by
  intro room
  induction room with
  | zero => intro bs bs' _; rfl
  | succ room ih =>
    intro bs bs' h
    cases h with
    | same => rfl
    | @descriptor d d' hd input hlen rest rest' hrest =>
      have hlen' : input.length = d'.inlineLength := hlen.trans (declared_inlineLength hd)
      have hroom : ∀ tail : List UInt8, ¬ input.length > (input ++ tail).length := by
        intro tail
        rw [List.length_append]
        omega
      rw [parseRest_toBytes, parseRest_toBytes, ← declared_magic hd, ← declared_headerOk hd, ← declared_inlineInput hd,
        ← hlen, ← hlen', if_neg (hroom rest), if_neg (hroom rest'), List.drop_left, List.drop_left, List.take_left,
        List.take_left]
      have hcons : ∀ parsed : Except Status (List ParsedDescriptor), ∀ p : ParsedDescriptor,
          declaredItems (parsed.map (List.cons p)) = (declaredItems parsed).map (List.cons p.declared) := by
        intro parsed p
        cases parsed <;> rfl
      split
      · rfl
      · split
        · rfl
        · rw [hcons, hcons, ih hrest]
          simp only [ParsedDescriptor.declared, hd]
    | @overrun d d' hd input hlen =>
      have hlen' : input.length < d'.inlineLength := declared_inlineLength hd ▸ hlen
      rw [parseRest_toBytes, parseRest_toBytes, ← declared_magic hd, ← declared_headerOk hd, if_pos hlen, if_pos hlen']

/-- `parse` of two such blocks. -/
theorem parse_declared {data data' : List UInt8} {len : Nat} (hlen : len ≤ data.length) (hlen' : len ≤ data'.length)
    (h : SameBlock (data.take len) (data'.take len)) :
    declaredItems (parse data len) = declaredItems (parse data' len) := by
  have hrest := parseRest_declared kMaxDescriptorsPerBlock h
  rw [parse_eq_parseRest hlen, parse_eq_parseRest hlen']
  generalize parseRest kMaxDescriptorsPerBlock (data.take len) = parsed at hrest ⊢
  generalize parseRest kMaxDescriptorsPerBlock (data'.take len) = parsed' at hrest ⊢
  cases parsed with
  | error st =>
    cases parsed' with
    | error st' => exact hrest
    | ok ps' => cases hrest
  | ok ps =>
    cases parsed' with
    | error st' => cases hrest
    | ok ps' =>
      have hmap : ps.map ParsedDescriptor.declared = ps'.map ParsedDescriptor.declared := Except.ok.inj hrest
      have hcount : ps.length = ps'.length := by simpa using congrArg List.length hmap
      show declaredItems (if ps.length = 0 then _ else _) = declaredItems (if ps'.length = 0 then _ else _)
      rw [hcount]
      split
      · rfl
      · exact hrest

namespace Device

/-! ## The descriptor loop -/

theorem outputOk_declared (s : Device) (d : JobDescriptorV1) : s.outputOk d.declared = s.outputOk d := by
  unfold outputOk
  by_cases hzero : d.outputHandle = 0
  · rw [if_pos hzero]
    exact if_pos hzero
  · rw [if_neg hzero]
    simp only [JobDescriptorV1.declared, if_neg hzero]

theorem runDescriptor_declared (s : Device) (i : Fin kMaxAllocations) (d : JobDescriptorV1)
    (completion : CompletionRecordV1) (share : UInt32) :
    s.runDescriptor i d.declared completion share = s.runDescriptor i d completion share := by
  unfold runDescriptor
  rw [outputOk_declared]
  rfl

/-- A descriptor is settled by what it declares. -/
theorem processDescriptor_declared (s : Device) (n share : UInt32) (p : ParsedDescriptor) :
    s.processDescriptor n share p.declared = s.processDescriptor n share p := by
  have hslot : s.inputSlot p.declared.desc = s.inputSlot p.desc := rfl
  unfold processDescriptor
  simp only [hslot]
  cases s.inputSlot p.desc with
  | none => rfl
  | some i =>
    cases hinput : p.input with
    | none =>
      simp only [ParsedDescriptor.declared, hinput, runDescriptor_declared]
      rfl
    | some bs =>
      simp only [ParsedDescriptor.declared, hinput, runDescriptor_declared]
      rfl

theorem processDescriptors_declared (n share : UInt32) (ps : List ParsedDescriptor) :
    ∀ (s : Device) (dropped : Bool),
      s.processDescriptors n share (ps.map ParsedDescriptor.declared) dropped = s.processDescriptors n share ps dropped := by
  induction ps with
  | nil => intro s dropped; rfl
  | cons p ps ih =>
    intro s dropped
    rw [List.map_cons]
    unfold processDescriptors
    rw [processDescriptor_declared]
    exact ih _ _

theorem runBlock_declared (s : Device) (ps : List ParsedDescriptor) :
    s.runBlock (ps.map ParsedDescriptor.declared) = s.runBlock ps := by
  unfold runBlock
  rw [List.length_map, processDescriptors_declared]

/-- **A block does what its descriptors declare.** -/
theorem processDescriptorBlock_declared (s : Device) {data data' : List UInt8} {len : Nat}
    (h : declaredItems (parse data len) = declaredItems (parse data' len)) :
    s.processDescriptorBlock data len = s.processDescriptorBlock data' len := by
  unfold processDescriptorBlock
  cases hp : parse data len with
  | error st =>
    cases hp' : parse data' len with
    | error st' =>
      rw [hp, hp'] at h
      cases h
      rfl
    | ok ps' => rw [hp, hp'] at h; cases h
  | ok ps =>
    cases hp' : parse data' len with
    | error st' => rw [hp, hp'] at h; cases h
    | ok ps' =>
      rw [hp, hp'] at h
      have hmap : ps.map ParsedDescriptor.declared = ps'.map ParsedDescriptor.declared := Except.ok.inj h
      have hrun : s.runBlock ps = s.runBlock ps' := by rw [← runBlock_declared, hmap, runBlock_declared]
      show ((s.runBlock ps).1, if (s.runBlock ps).2 then Status.queueFull else .ok) =
        ((s.runBlock ps').1, if (s.runBlock ps').2 then Status.queueFull else .ok)
      rw [hrun]

/-! ## Whole operations and runs -/

/-- An F4 depends on the first `len` bytes of its data phase and the lower half of its word. -/
theorem writeBlock_sameBlock (s : Device) (selector : UInt8) {word word' : UInt32} {data data' : List UInt8}
    (hword : word &&& 0xFFFF = word' &&& 0xFFFF) (hsize : data.length = data'.length)
    (hblock : SameBlock (data.take (blockLength word)) (data'.take (blockLength word))) :
    s.writeBlock selector word (some data) = s.writeBlock selector word' (some data') := by
  unfold writeBlock
  simp only [← hword, ← hsize]
  split
  · rfl
  · rename_i hok
    simp only [not_or, gt_iff_lt, Nat.not_lt] at hok
    have hfits : blockLength word ≤ data.length := hok.2.2.2
    have hrun : s.processDescriptorBlock data (word &&& 0xFFFF).toNat =
        s.processDescriptorBlock data' (word &&& 0xFFFF).toNat :=
      processDescriptorBlock_declared s (parse_declared hfits (hsize ▸ hfits) hblock)
    rw [hrun]

theorem step_sameInput (s : Device) {op op' : WireOp} (h : SameInput op op') : s.step op = s.step op' := by
  cases h with
  | same => rfl
  | exec command sequence sequence' => rfl
  | writeBlock selector hword hsize hblock =>
    rw [step_writeBlock, step_writeBlock, writeBlock_sameBlock s selector hword hsize hblock]

/-- Two such runs go through the same states and answer the same. -/
theorem runFrom_sameInput (config : Config) {ops ops' : List WireOp} (h : List.Forall₂ SameInput ops ops') :
    ∀ s, (machine config).runFrom s ops = (machine config).runFrom s ops' ∧
      (machine config).outsFrom s ops = (machine config).outsFrom s ops' := by
  induction h with
  | nil => intro s; exact ⟨rfl, rfl⟩
  | @cons op op' ops ops' hop _ ih =>
    intro s
    have hstep : (machine config).step s op = (machine config).step s op' := step_sameInput s hop
    obtain ⟨hrun, houts⟩ := ih ((machine config).next s op')
    constructor
    · show (machine config).runFrom ((machine config).step s op).1 ops = _
      rw [hstep]
      exact hrun
    · show ((machine config).step s op).2 :: (machine config).outsFrom ((machine config).step s op).1 ops = _
      rw [hstep]
      exact congrArg (List.cons _) houts

/-- **Only declared inputs count.** In every reachable state, two F4s with the same selector and meaningful length whose
    data phases agree on the meaningful bytes lead to the same state with the same status. And two runs that differ only
    in what is not read lead to the same state, so all their answers, and all answers to whatever follows, are the same. -/
theorem undeclared_not_read (config : Config) :
    (∀ (ops : List WireOp) (selector : UInt8) (word word' : UInt32) (data data' : List UInt8),
      data.length = kBlockBytes → data'.length = kBlockBytes → word &&& 0xFFFF = word' &&& 0xFFFF →
      data.take (word &&& 0xFFFF).toNat = data'.take (word &&& 0xFFFF).toNat →
      (after config ops).step (.writeBlock selector word (some data)) =
        (after config ops).step (.writeBlock selector word' (some data'))) ∧
    ∀ ops ops', List.Forall₂ SameInput ops ops' →
      after config ops = after config ops' ∧ (machine config).outs ops = (machine config).outs ops' ∧
      ∀ later, (machine config).outs (ops ++ later) = (machine config).outs (ops' ++ later) := by
  constructor
  · intro ops selector word word' data data' hdata hdata' hword hagree
    apply step_sameInput
    refine .writeBlock selector hword (hdata.trans hdata'.symm) ?_
    show SameBlock (data.take (word &&& 0xFFFF).toNat) (data'.take (word &&& 0xFFFF).toNat)
    rw [hagree]
    exact .same _
  · intro ops ops' h
    obtain ⟨hrun, houts⟩ := runFrom_sameInput config h (machine config).init
    refine ⟨hrun, houts, ?_⟩
    intro later
    unfold Machine.outs
    rw [Machine.outsFrom_append, Machine.outsFrom_append, hrun, houts]

/-- A block over stale bus data, submitted to another kernel with other arguments, after an F1 with another sequence
    word: the record read back is the same. -/
theorem undeclared_not_read_kernel :
    let config : Config := { hasPool := true, poolBytes := 65536 }
    let d := gpkBuildDescriptor 1 1 4 1 16
    let d' := { d with flags := 0xFFFFFFFF, outputOffset := 7, kernelId := 9, arg1 := 5, arg2 := 6, arg3 := 7 }
    let read : WireOp := .readBlock 1 0x00400000 (some 64)
    let ops : List WireOp := [.writeReg 0 16, .exec HighCommand.alloc.code 1,
      .writeBlock 0 68 (some (d.toBytes ++ [1, 2, 3, 4] ++ List.replicate 444 0))]
    let ops' : List WireOp := [.writeReg 0 16, .exec HighCommand.alloc.code 2,
      .writeBlock 0 0xABCD0044 (some (d'.toBytes ++ [1, 2, 3, 4] ++ List.replicate 444 0xEE))]
    (machine config).outs (ops ++ [read]) = (machine config).outs (ops' ++ [read]) := by
  intro config d d' read ops ops'
  have hblock : SameBlock ((d.toBytes ++ [1, 2, 3, 4] ++ List.replicate 444 0).take (blockLength 68))
      ((d'.toBytes ++ [1, 2, 3, 4] ++ List.replicate 444 0xEE).take (blockLength 68)) := by
    have hleft : (d.toBytes ++ [1, 2, 3, 4] ++ List.replicate 444 0).take (blockLength 68) =
        d.toBytes ++ ([1, 2, 3, 4] ++ []) := by decide +kernel
    have hright : (d'.toBytes ++ [1, 2, 3, 4] ++ List.replicate 444 0xEE).take (blockLength 68) =
        d'.toBytes ++ ([1, 2, 3, 4] ++ []) := by decide +kernel
    rw [hleft, hright]
    exact .descriptor (by decide) [1, 2, 3, 4] (by decide) (.same [])
  have hsame : List.Forall₂ SameInput ops ops' :=
    .cons (.same _) (.cons (.exec _ _ _) (.cons (.writeBlock 0 (by decide) (by decide +kernel) hblock) .nil))
  exact ((undeclared_not_read config).2 ops ops' hsame).2.2 [read]

end Device

end GekkoPak
