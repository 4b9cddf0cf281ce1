import GekkoPak.Protocol.Wire

/-!
# `Trace.Checker` — the checker of recorded command streams

`tools/check_azahar_trace.py`: the commands a guest put on the wire, taken off the emulator's log, and the list of what
is wrong with them. `parse` starts here where the regular expression has matched: at the eight bytes of a command and
the queue depth noted beside it.
-/

namespace GekkoPak

namespace Trace

/-! ## Tables -/

/-- `WIRE_NAMES`. -/
def wireNames : List (UInt8 × String) :=
  [(0xF0, "WRITE_REG"), (0xF1, "EXEC"), (0xF2, "READ_REG"), (0xF3, "WRITE_PAYLOAD_WORD"), (0xF4, "WRITE_BLOCK"),
   (0xF5, "READ_BLOCK")]

/-- `HIGH_NAMES`. -/
def highNames : List (UInt8 × String) :=
  [(1, "HELLO"), (2, "GET_CAPS"), (3, "ALLOC"), (4, "UPLOAD"), (5, "SUBMIT"), (6, "POLL"), (7, "COLLECT"), (8, "FREE"),
   (9, "COMPLETE")]

def eventCompletionDepth : UInt8 := 0xFE
def blockBytes : Nat := 512
def selectorSubmission : UInt8 := 0
def selectorCompletion : UInt8 := 1

/-! ## Commands -/

/-- `Command`. -/
structure Command where
  indexInStream : Nat
  opcode        : UInt8
  index         : UInt8
  word          : UInt32
  depth         : Nat
deriving DecidableEq, Repr

/-- `n` in upper-case hexadecimal, with leading zeros. -/
def hex (width n : Nat) : String :=
  let digits := (Nat.toDigits 16 n).map Char.toUpper
  String.ofList (List.replicate (width - digits.length) '0' ++ digits)

/-- `HIGH_NAMES.get(index, index)`. -/
def highName (index : UInt8) : String := (highNames.lookup index).getD (toString index.toNat)

/-- `Command.__str__`. -/
def Command.str (cmd : Command) : String :=
  let name := (wireNames.lookup cmd.opcode).getD ("0x" ++ hex 2 cmd.opcode.toNat)
  let name := if cmd.opcode = 0xF1 then name ++ " " ++ highName cmd.index else name
  "#" ++ toString cmd.indexInStream ++ " " ++ name ++ " index=" ++ toString cmd.index.toNat ++ " word=0x" ++
    hex 8 cmd.word.toNat

/-- The loop of `parse`, over the matched lines, with the commands and the errors so far. -/
def parseLoop : List (CommandBytes × Nat) → List Command → List String → List Command × List String
  | [], commands, errors => (commands, errors)
  | (raw, depth) :: lines, commands, errors =>
    let n := commands.length
    let errors := if raw.discriminator ≠ (kMagic0, kMagic1) then
        errors ++ ["command #" ++ toString n ++ ": missing GK discriminator, got " ++ hex 2 raw.discriminator.1.toNat ++
          " " ++ hex 2 raw.discriminator.2.toNat]
      else errors
    parseLoop lines (commands ++ [⟨n, raw.opcode, raw.index, raw.cmd1, depth⟩]) errors

/-- `parse`. -/
def parse (lines : List (CommandBytes × Nat)) : List Command × List String := parseLoop lines [] []

/-! ## Checks -/

/-- `errors.append(message)` under a condition. -/
def report (condition : Bool) (message : String) : List String := if condition then [message] else []

/-- The body of the first loop of `check`. -/
def checkCommand (cmd : Command) : List String :=
  report (wireNames.lookup cmd.opcode).isNone (cmd.str ++ ": opcode outside the F0-F5 GekkoPAK range") ++
  report (cmd.opcode == 0xF1 && (highNames.lookup cmd.index).isNone) (cmd.str ++ ": unknown high-level command") ++
  report ((cmd.opcode == 0xF0 || cmd.opcode == 0xF2) && decide (cmd.index ≥ 16) && cmd.index != eventCompletionDepth)
    (cmd.str ++ ": staging register index out of range") ++
  (if cmd.opcode = 0xF4 then
    let length := (cmd.word &&& 0xFFFF).toNat
    report (cmd.index != selectorSubmission) (cmd.str ++ ": F4 must target the submission queue (selector 0)") ++
    report (!(decide (0 < length) && decide (length ≤ blockBytes)))
      (cmd.str ++ ": F4 meaningful length " ++ toString length ++ " outside 1..512")
  else []) ++
  (if cmd.opcode = 0xF5 then
    let offset := (cmd.word &&& 0xFFFF).toNat
    let length := (cmd.word >>> 16).toNat
    report (cmd.index != selectorCompletion) (cmd.str ++ ": F5 must target the completion queue (selector 1)") ++
    report (offset != 0) (cmd.str ++ ": F5 offset " ++ toString offset ++ " is not supported") ++
    report (!(decide (0 < length) && decide (length ≤ blockBytes)))
      (cmd.str ++ ": F5 requested length " ++ toString length ++ " outside 1..512")
  else [])

/-- `order`: the high-level commands, in stream order. -/
def order (commands : List Command) : List UInt8 :=
  (commands.filter (fun c => c.opcode == 0xF1)).map Command.index

/-- The `if 3 in order` block. -/
def checkAlloc (order : List UInt8) : List String :=
  if 3 ∈ order then
    let allocAt := order.idxOf 3
    [4, 5].flatMap (fun commandId =>
      report (decide (commandId ∈ order) && decide (order.idxOf commandId < allocAt))
        (highName commandId ++ " appears before ALLOC")) ++
    report (decide (8 ∈ order) && decide (order.idxOf 8 < allocAt)) "FREE appears before ALLOC"
  else []

/-- The last loop of `check`, which is left at the first F5 it looks at. -/
def checkReads (commands : List Command) : List Command → List String
  | [] => []
  | cmd :: rest =>
    if cmd.opcode = 0xF5 ∧ cmd.indexInStream > 0 then
      let earlier := commands.take cmd.indexInStream
      report (!earlier.any (fun c => c.opcode == 0xF4))
        (cmd.str ++ ": F5 with no preceding F4 to have queued a completion")
    else checkReads commands rest

/-- `check`. -/
def check (commands : List Command) : List String :=
  let errors := commands.flatMap checkCommand
  let order := order commands
  if order = [] then errors ++ ["no EXEC commands in the trace: the guest never reached the protocol"]
  else
    errors ++
    report (order.headD 0 != 1) ("first EXEC is " ++ highName (order.headD 0) ++ ", expected HELLO") ++
    report (order.getLastD 0 != 9) ("last EXEC is " ++ highName (order.getLastD 0) ++ ", expected COMPLETE") ++
    checkAlloc order ++
    checkReads commands commands

end Trace

end GekkoPak
