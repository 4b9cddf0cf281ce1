import GekkoPak.Basis.Precedence
import GekkoPak.Device.BlockSteps
import GekkoPak.Trace.Checker

/-!
# `Trace.Correctness.Checker` — what a stream without errors is known to be

`Orderly` is what the checker is for: the stream starts with HELLO and ends with COMPLETE, handles are used after an
ALLOC, completions are read after something was submitted, and every block command is one the device takes. The checks
of single commands deliver their part. Of the two ordering rules, the one about handles is skipped altogether when the
stream has no ALLOC, and the one about reads does not look at an F5 in the first place of the stream; a stream that
passes is orderly iff it owes nothing to these two (`trace_check_sound_iff`).
-/

namespace GekkoPak

open Basis

namespace Trace

/-! ## Positions -/

/-- Every command knows its place in the stream. -/
def Numbered (commands : List Command) : Prop :=
  ∀ (i : Nat) (c : Command), commands[i]? = some c → c.indexInStream = i

theorem Numbered.concat {commands : List Command} (h : Numbered commands) {c : Command}
    (hc : c.indexInStream = commands.length) : Numbered (commands ++ [c]) := by
  intro i d hd
  rcases Nat.lt_or_ge i commands.length with hlt | hge
  · rw [List.getElem?_append_left hlt] at hd
    exact h i d hd
  · rw [List.getElem?_append_right hge] at hd
    have hi : i - commands.length = 0 := by
      by_contra hne
      rw [List.getElem?_eq_none (by simp; omega)] at hd
      cases hd
    rw [hi] at hd
    cases hd
    omega

theorem parseLoop_numbered : ∀ (lines : List (CommandBytes × Nat)) {commands : List Command} {errors : List String},
    Numbered commands → Numbered (parseLoop lines commands errors).1 := by
  intro lines
  induction lines with
  | nil => intro commands errors h; exact h
  | cons line lines ih =>
    intro commands errors h
    exact ih (h.concat rfl)

theorem parse_numbered (lines : List (CommandBytes × Nat)) : Numbered (parse lines).1 :=
  parseLoop_numbered lines (fun i c hc => by cases hc)

/-! ## What no error means -/

theorem report_eq_nil {condition : Bool} {message : String} : report condition message = [] ↔ condition = false := by
  cases condition <;> simp [report]

theorem check_eq_nil {commands : List Command} (h : check commands = []) :
    (∀ cmd ∈ commands, checkCommand cmd = []) ∧ order commands ≠ [] ∧ (order commands).headD 0 = 1 ∧
      (order commands).getLastD 0 = 9 ∧ checkAlloc (order commands) = [] ∧ checkReads commands commands = [] := by
  simp only [check] at h
  split at h
  · simp at h
  · rename_i hexec
    simp only [List.append_eq_nil_iff, List.flatMap_eq_nil_iff, report_eq_nil, bne_eq_false_iff_eq] at h
    obtain ⟨⟨⟨⟨hcommands, hfirst⟩, hlast⟩, halloc⟩, hreads⟩ := h
    exact ⟨hcommands, hexec, hfirst, hlast, halloc, hreads⟩

/-- The checker's table of opcodes is the protocol's. -/
theorem wireNames_lookup (b : UInt8) : (wireNames.lookup b).isNone = (WireOpcode.ofCode b).isNone := by
  simp only [wireNames, List.lookup_cons, List.lookup_nil, WireOpcode.ofCode, WireOpcode.code]
  by_cases h0 : b = 0xF0
  · subst h0; rfl
  by_cases h1 : b = 0xF1
  · subst h1; rfl
  by_cases h2 : b = 0xF2
  · subst h2; rfl
  by_cases h3 : b = 0xF3
  · subst h3; rfl
  by_cases h4 : b = 0xF4
  · subst h4; rfl
  by_cases h5 : b = 0xF5
  · subst h5; rfl
  simp [h0, h1, h2, h3, h4, h5, beq_eq_false_iff_ne.mpr]

/-- An F4 without an error is one the device takes. -/
theorem checkCommand_writeBlock {cmd : Command} (h : checkCommand cmd = []) (hop : cmd.opcode = WireOpcode.writeBlock.code)
    {block : List UInt8} (hblock : block.length = kBlockBytes) : Device.BlockAccepted cmd.index cmd.word block := by
  change cmd.opcode = 0xF4 at hop
  simp only [checkCommand, hop, if_true, List.append_eq_nil_iff, report_eq_nil, bne_eq_false_iff_eq, Bool.not_eq_false',
    Bool.and_eq_true, decide_eq_true_eq] at h
  obtain ⟨⟨-, hselector, hpos, hle⟩, -⟩ := h
  refine ⟨hselector, Nat.ne_of_gt hpos, hle, ?_⟩
  rw [hblock]
  exact hle

/-- An F5 without an error is one the device takes. -/
theorem checkCommand_readBlock {cmd : Command} (h : checkCommand cmd = []) (hop : cmd.opcode = WireOpcode.readBlock.code) :
    Device.ReadAccepted cmd.index cmd.word kBlockBytes := by
  change cmd.opcode = 0xF5 at hop
  simp only [checkCommand, hop, if_true, List.append_eq_nil_iff, report_eq_nil, bne_eq_false_iff_eq, Bool.not_eq_false',
    Bool.and_eq_true, decide_eq_true_eq] at h
  obtain ⟨-, ⟨hselector, hoffset⟩, hpos, hle⟩ := h
  exact ⟨by decide, hselector, hoffset, Nat.ne_of_gt hpos, hle⟩

theorem checkCommand_opcode {cmd : Command} (h : checkCommand cmd = []) : (WireOpcode.ofCode cmd.opcode).isSome = true := by
  simp only [checkCommand, List.append_eq_nil_iff, report_eq_nil] at h
  have hnone := h.1.1.1.1
  rw [wireNames_lookup, Option.isNone_eq_false_iff] at hnone
  exact hnone

/-! ## The ordering rules -/

/-- The command is an EXEC of `k`. -/
def Command.Execs (c : Command) (k : HighCommand) : Prop := c.opcode = WireOpcode.exec.code ∧ c.index = k.code

instance (c : Command) (k : HighCommand) : Decidable (c.Execs k) := inferInstanceAs (Decidable (_ ∧ _))

/-- The high-level command an EXEC names. -/
def Command.execIndex (c : Command) : Option UInt8 := if c.opcode = 0xF1 then some c.index else none

theorem order_eq (commands : List Command) : order commands = commands.filterMap Command.execIndex := by
  induction commands with
  | nil => rfl
  | cons c commands ih =>
    unfold order at ih ⊢
    by_cases hop : c.opcode = 0xF1
    · have hindex : c.execIndex = some c.index := if_pos hop
      simp only [List.filter_cons, hop, beq_self_eq_true, if_true, List.map_cons, ih]
      rw [List.filterMap_cons_some hindex]
    · have hindex : c.execIndex = none := if_neg hop
      simp only [List.filter_cons, beq_eq_false_iff_ne.mpr hop, Bool.false_eq_true, if_false, ih]
      rw [List.filterMap_cons_none hindex]

theorem execIndex_eq {c : Command} {k : HighCommand} : (∃ y, c.execIndex = some y ∧ y = k.code) ↔ c.Execs k := by
  constructor
  · rintro ⟨y, hy, rfl⟩
    unfold Command.execIndex at hy
    split at hy
    · exact ⟨by assumption, Option.some.inj hy⟩
    · cases hy
  · rintro ⟨hop, hk⟩
    exact ⟨c.index, if_pos hop, hk⟩

/-- One EXEC before another, in the stream and in `order`. -/
theorem preceded_execs {commands : List Command} {j k : HighCommand} :
    Preceded (Command.Execs · j) (Command.Execs · k) commands ↔
      (k.code ∈ order commands → j.code ∈ order commands ∧
        (order commands).idxOf j.code < (order commands).idxOf k.code) := by
  rw [← preceded_iff_idxOf, order_eq, preceded_filterMap]
  simp only [execIndex_eq]

theorem mem_order {commands : List Command} {k : HighCommand} :
    k.code ∈ order commands ↔ ∃ c ∈ commands, c.Execs k := by
  rw [order_eq, List.mem_filterMap]
  constructor
  · rintro ⟨c, hc, hk⟩
    exact ⟨c, hc, execIndex_eq.mp ⟨k.code, hk, rfl⟩⟩
  · rintro ⟨c, hc, hk⟩
    obtain ⟨y, hy, rfl⟩ := execIndex_eq.mpr hk
    exact ⟨c, hc, hy⟩

/-- The commands that use a handle. -/
def usesHandle : List HighCommand := [.upload, .submit, .free]

/-- With an ALLOC in the stream, the check of handles is a check of first occurrences. -/
theorem checkAlloc_eq_nil {order : List UInt8} (h : checkAlloc order = []) (halloc : HighCommand.alloc.code ∈ order)
    {k : HighCommand} (hk : k ∈ usesHandle) (hmem : k.code ∈ order) :
    order.idxOf HighCommand.alloc.code < order.idxOf k.code := by
  change 3 ∈ order at halloc
  simp only [checkAlloc, if_pos halloc, List.append_eq_nil_iff, List.flatMap_eq_nil_iff, List.mem_cons, List.not_mem_nil,
    or_false, report_eq_nil, Bool.and_eq_false_iff, decide_eq_false_iff_not, Nat.not_lt] at h
  obtain ⟨hupload, hfree⟩ := h
  have hge : order.idxOf HighCommand.alloc.code ≤ order.idxOf k.code := by
    rcases List.mem_cons.mp hk with rfl | hk
    · exact (hupload 4 (Or.inl rfl)).resolve_left (not_not.mpr hmem)
    rcases List.mem_cons.mp hk with rfl | hk
    · exact (hupload 5 (Or.inr rfl)).resolve_left (not_not.mpr hmem)
    rcases List.mem_cons.mp hk with rfl | hk
    · exact hfree.resolve_left (not_not.mpr hmem)
    · cases hk
  refine Nat.lt_of_le_of_ne hge (fun heq => ?_)
  -- one position, one command
  have hcode : HighCommand.alloc.code = k.code := List.idxOf_inj halloc |>.mp heq
  revert hk hcode
  cases k <;> decide

/-- The block commands. -/
def Command.Submits (c : Command) : Prop := c.opcode = WireOpcode.writeBlock.code
def Command.Reads (c : Command) : Prop := c.opcode = WireOpcode.readBlock.code

instance (c : Command) : Decidable c.Reads := inferInstanceAs (Decidable (_ = _))

/-- The loop over reads, past the first command: the first F5 it meets has an F4 before it, so all have. -/
theorem checkReads_preceded {commands : List Command} (hnum : Numbered commands) :
    ∀ (rest done : List Command), commands = done ++ rest → done ≠ [] → (∀ c ∈ done, ¬ c.Reads) →
      checkReads commands rest = [] → Preceded Command.Submits Command.Reads commands := by
  intro rest
  induction rest with
  | nil =>
    intro done hsplit _ hnone _
    rw [List.append_nil] at hsplit
    rw [hsplit]
    exact preceded_of_none hnone
  | cons cmd rest ih =>
    intro done hsplit hne hnone h
    have hindex : cmd.indexInStream = done.length := by
      refine hnum done.length cmd ?_
      rw [hsplit]
      simp
    have hpos : cmd.indexInStream > 0 := by
      rw [hindex]
      exact List.length_pos_iff.mpr hne
    simp only [checkReads] at h
    by_cases hread : cmd.Reads
    · rw [if_pos ⟨hread, hpos⟩, report_eq_nil, Bool.not_eq_false', hindex, hsplit, List.take_left,
        List.any_eq_true] at h
      obtain ⟨c, hc, hsubmit⟩ := h
      rw [hsplit]
      exact preceded_of_first hnone ⟨c, hc, beq_iff_eq.mp hsubmit⟩
    · rw [if_neg (fun hboth => hread hboth.1)] at h
      refine ih (done ++ [cmd]) (by rw [hsplit]; simp) (by simp) ?_ h
      intro c hc
      rcases List.mem_append.mp hc with hold | hnew
      · exact hnone c hold
      · rw [List.mem_singleton.mp hnew]
        exact hread

/-! ## Orderly streams -/

/-- What the checker is to vouch for. -/
structure Orderly (commands : List Command) : Prop where
  first   : (order commands).head? = some HighCommand.hello.code
  last    : (order commands).getLast? = some HighCommand.complete.code
  handles : ∀ k ∈ usesHandle, Preceded (Command.Execs · .alloc) (Command.Execs · k) commands
  reads   : Preceded Command.Submits Command.Reads commands
  opcodes : ∀ c ∈ commands, (WireOpcode.ofCode c.opcode).isSome = true
  blocks  : ∀ c ∈ commands, c.Submits → ∀ block : List UInt8, block.length = kBlockBytes →
    Device.BlockAccepted c.index c.word block
  answers : ∀ c ∈ commands, c.Reads → Device.ReadAccepted c.index c.word kBlockBytes

/-- The two places the ordering rules do not look at: a stream that uses a handle has an ALLOC somewhere, and its first
    command is no F5. -/
def LooksEverywhere (commands : List Command) : Prop :=
  ((∃ k ∈ usesHandle, ∃ c ∈ commands, c.Execs k) → ∃ c ∈ commands, c.Execs .alloc) ∧
    ∀ c ∈ commands.head?, ¬ c.Reads

instance (commands : List Command) : Decidable (LooksEverywhere commands) := inferInstanceAs (Decidable (_ ∧ _))

/-- **When the checker is sound.** For every stream off the wire for which `check` returns no errors: it is orderly iff it
    has an ALLOC as soon as it uses a handle, and does not start with an F5. -/
theorem trace_check_sound_iff (lines : List (CommandBytes × Nat)) (h : check (parse lines).1 = []) :
    Orderly (parse lines).1 ↔ LooksEverywhere (parse lines).1 := by
  have hnum := parse_numbered lines
  generalize (parse lines).1 = commands at h hnum ⊢
  obtain ⟨hcommands, hexec, hfirst, hlast, halloc, hreads⟩ := check_eq_nil h
  constructor
  · intro horderly
    refine ⟨?_, ?_⟩
    · rintro ⟨k, hk, hused⟩
      have hprec := preceded_execs.mp (horderly.handles k hk) (mem_order.mpr hused)
      exact mem_order.mp hprec.1
    · intro c hc hread
      cases commands with
      | nil => cases hc
      | cons d commands =>
        cases hc
        exact not_preceded_cons hread horderly.reads
  · rintro ⟨hallocated, hhead⟩
    refine ⟨?_, ?_, ?_, ?_, ?_, ?_, ?_⟩
    · cases horder : order commands with
      | nil => exact absurd horder hexec
      | cons k ks =>
        rw [horder] at hfirst
        exact congrArg some hfirst
    · rw [List.getLastD_eq_getLast?, List.getLast?_eq_some_getLast hexec] at hlast
      rw [List.getLast?_eq_some_getLast hexec]
      exact congrArg some hlast
    · intro k hk
      rw [preceded_execs]
      intro hmem
      have hsome := mem_order.mpr (hallocated ⟨k, hk, mem_order.mp hmem⟩)
      exact ⟨hsome, checkAlloc_eq_nil halloc hsome hk hmem⟩
    · cases commands with
      | nil => exact absurd rfl hexec
      | cons c rest =>
        have hc : ¬ c.Reads := hhead c rfl
        simp only [checkReads] at hreads
        rw [if_neg (fun hboth => hc hboth.1)] at hreads
        exact checkReads_preceded hnum rest [c] rfl (by simp) (by simpa using hc) hreads
    · intro c hc
      exact checkCommand_opcode (hcommands c hc)
    · intro c hc hop block hblock
      exact checkCommand_writeBlock (hcommands c hc) hop hblock
    · intro c hc hop
      exact checkCommand_readBlock (hcommands c hc) hop

/-- HELLO, ALLOC, a block submitted and answered, FREE, COMPLETE. -/
def blockStream : List (CommandBytes × Nat) :=
  [(encodeCommand 0xF1 1 0, 0), (encodeCommand 0xF1 3 0, 0), (encodeCommand 0xF4 0 64, 0),
   (encodeCommand 0xF5 1 0x02000000, 1), (encodeCommand 0xF1 8 0, 0), (encodeCommand 0xF1 9 0, 0)]

theorem trace_check_blockStream : check (parse blockStream).1 = [] ∧ Orderly (parse blockStream).1 := by
  have hcheck : check (parse blockStream).1 = [] := by decide +kernel
  exact ⟨hcheck, (trace_check_sound_iff blockStream hcheck).mpr (by decide +kernel)⟩

/-- HELLO, UPLOAD, COMPLETE: nothing was ever allocated, and there is no error. -/
def uploadStream : List (CommandBytes × Nat) :=
  [(encodeCommand 0xF1 1 0, 0), (encodeCommand 0xF1 4 0, 0), (encodeCommand 0xF1 9 0, 0)]

theorem trace_check_uploadStream :
    (parse uploadStream).2 = [] ∧ check (parse uploadStream).1 = [] ∧
      ¬ Preceded (Command.Execs · .alloc) (Command.Execs · .upload) (parse uploadStream).1 := by
  refine ⟨by decide +kernel, by decide +kernel, ?_⟩
  rw [preceded_execs]
  decide +kernel

end Trace

end GekkoPak
