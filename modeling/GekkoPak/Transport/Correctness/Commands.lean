import GekkoPak.Transport.Clients
import GekkoPak.Transport.Correctness.Conformance

/-!
# `Transport.Correctness.Commands` — one command header

`EncodeCommand`, the DS client and the ARM guest write the header each in their own way; `DecodeCommand` and the DSpico
handlers read it each in their own way. All of them mean the same eight bytes.
-/

namespace GekkoPak

open Basis

/-! ## The header -/

/-- The header: opcode, discriminator and index, then the word most significant byte first. -/
theorem encodeCommand_toList (opcode index : UInt8) (word : UInt32) :
    (encodeCommand opcode index word).toList = [opcode, kMagic0, kMagic1, index] ++ (le32 word).reverse := by
  rw [le32_eq]
  rfl

/-! ## Decoding -/

/-- The bytes of a word put together make the word. -/
theorem beWord_bytes (word : UInt32) :
    beWord (word >>> 24).toUInt8 (word >>> 16).toUInt8 (word >>> 8).toUInt8 word.toUInt8 = word := by
  rw [← ofLe32_le32 (beWord _ _ _ _), le32_beWord, ← le32_eq, ofLe32_le32]

theorem decodeCommand_encodeCommand (opcode index : UInt8) (word : UInt32) :
    decodeCommand (encodeCommand opcode index word) = ⟨opcode, index, word, true⟩ := by
  have hword : (decodeCommand (encodeCommand opcode index word)).word = word := beWord_bytes word
  show WireCommand.mk _ _ (decodeCommand (encodeCommand opcode index word)).word _ = _
  rw [hword]
  rfl

/-- A command with the discriminator in place is the encoding of what it decodes to. -/
theorem encodeCommand_decodeCommand {bytes : CommandBytes} (h : (decodeCommand bytes).valid = true) :
    encodeCommand (decodeCommand bytes).opcode (decodeCommand bytes).index (decodeCommand bytes).word = bytes := by
  obtain ⟨hG, hK⟩ := Prod.mk.inj (decodeCommand_valid.mp h)
  have hword : le32 (decodeCommand bytes).word = [bytes[7], bytes[6], bytes[5], bytes[4]] := le32_beWord _ _ _ _
  apply Vector.toList_inj.mp
  rw [encodeCommand_toList, hword, bytes.toList_eq, hG, hK]
  rfl

/-! ## The DS client -/

theorem le64_bswap64 (x : UInt64) : le64 (bswap64 x) = (le64 x).reverse := by
  have hfit : (bswap64 x).toNat = byteSwap 8 x.toNat := by
    have hlt := byteSwap_lt 8 x.toNat
    rw [bswap64, UInt64.toNat_ofNat']
    exact Nat.mod_eq_of_lt hlt
  rw [le64, hfit, leBytes_byteSwap]
  rfl

/-- The `u64` the DS client assembles is the header read as one big-endian number. -/
theorem le64_cmd (opcode index : UInt8) (word : UInt32) :
    le64 ((opcode.toUInt64 <<< 56) ||| ((0x47 : UInt64) <<< 48) ||| ((0x4B : UInt64) <<< 40) |||
        (index.toUInt64 <<< 32) ||| word.toUInt64) = (encodeCommand opcode index word).toList.reverse := by
  have hop : opcode.toNat < 256 := opcode.toNat_lt
  have hindex : index.toNat < 256 := index.toNat_lt
  have hword : word.toNat < 2 ^ 32 := word.toNat_lt
  have hopcode := byte_shiftLeft_toNat opcode (show (56 : UInt64).toNat = 56 from rfl) (Nat.le_refl _)
  have hind := byte_shiftLeft_toNat index (show (32 : UInt64).toNat = 32 from rfl) (by omega)
  refine leBytes_eq_of_leNat rfl ?_
  -- no two of the parts overlap, so `|` is `+`
  rw [UInt64.toNat_or, UInt64.toNat_or, UInt64.toNat_or, UInt64.toNat_or, hopcode, hind, UInt32.toNat_toUInt64,
    show ((0x47 : UInt64) <<< 48).toNat = 0x47 <<< 48 from rfl,
    show ((0x4B : UInt64) <<< 40).toNat = 0x4B <<< 40 from rfl, Nat.or_assoc, Nat.or_assoc, Nat.or_assoc,
    shiftLeft_or_of_lt index.toNat hword, shiftLeft_or_of_lt 0x4B (by omega), shiftLeft_or_of_lt 0x47 (by omega),
    shiftLeft_or_of_lt opcode.toNat (by omega)]
  rw [encodeCommand_toList, List.reverse_append, List.reverse_reverse, leNat_append, le32_length, le32,
    leNat_leBytes (by omega)]
  have hG : kMagic0.toNat = 0x47 := rfl
  have hK : kMagic1.toNat = 0x4B := rfl
  simp only [List.reverse_cons, List.reverse_nil, List.nil_append, List.cons_append, leNat, hG, hK]
  omega

/-- **The DS client leaves the header in the register pair**: the swap undoes the order the little-endian store gives. -/
theorem gpkWriteCommand_read (io : Mem) (opcode index : UInt8) (word : UInt32) :
    (gpkWriteCommand io opcode index word).read regMccmd0 8 = (encodeCommand opcode index word).toList := by
  have hstored := io.read_write_same regMccmd0 (encodeCommand opcode index word).toList
  rw [gpkWriteCommand, le64_bswap64, le64_cmd, List.reverse_reverse]
  rw [Vector.length_toList] at hstored
  exact hstored

/-! ## The ARM guest -/

namespace Guest

theorem le32_rev (x : UInt32) : le32 (rev x) = (le32 x).reverse := by
  have hfit : (rev x).toNat = byteSwap 4 x.toNat := by
    have hlt := byteSwap_lt 4 x.toNat
    rw [rev, UInt32.toNat_ofNat']
    exact Nat.mod_eq_of_lt hlt
  rw [le32, hfit, leBytes_byteSwap]
  rfl

/-- The word `stage_cmd` stores at CMD0 is the first half of the header read from its end. -/
theorem header_eq (r0 r1 : UInt32) :
    (r0 &&& (0xFF : UInt32)) ||| (gkG <<< 8) ||| (gkK <<< 16) ||| ((r1 &&& (0xFF : UInt32)) <<< 24) =
      beWord r1.toUInt8 kMagic1 kMagic0 r0.toUInt8 := by
  have hmask : ∀ r : UInt32, r &&& 0xFF = r.toUInt8.toUInt32 := by
    intro r
    apply UInt32.toNat_inj.mp
    rw [UInt32.toNat_and, UInt8.toNat_toUInt32, UInt32.toNat_toUInt8]
    exact Nat.and_two_pow_sub_one_eq_mod _ 8
  rw [hmask, hmask, beWord, show gkG = kMagic0.toUInt32 from rfl, show gkK = kMagic1.toUInt32 from rfl]
  -- the same four parts, in the opposite order
  generalize r0.toUInt8.toUInt32 = a
  generalize kMagic0.toUInt32 <<< 8 = b
  generalize kMagic1.toUInt32 <<< 16 = c
  generalize r1.toUInt8.toUInt32 <<< 24 = d
  ac_rfl

/-- **The guest stages and activates as the conformance driver does**, for the header its registers name. -/
theorem stageCmd_eq (w : RegisterWindow) (r0 r1 r2 r3 : UInt32) :
    stageCmd w r0 r1 r2 r3 = stageAndActivate w (encodeCommand r0.toUInt8 r1.toUInt8 r2) r3 := by
  have hlow : ofLe32 (slice (encodeCommand r0.toUInt8 r1.toUInt8 r2).toList 0 4) =
      beWord r1.toUInt8 kMagic1 kMagic0 r0.toUInt8 := by
    rw [encodeCommand_toList, ← le32_beWord, slice_append_eq_left (le32_length _), ofLe32_le32]
  have hhigh : ofLe32 (slice (encodeCommand r0.toUInt8 r1.toUInt8 r2).toList 4 4) = rev r2 := by
    rw [encodeCommand_toList, slice_of_length_le (Nat.le_refl 4), ← le32_rev]
    exact (congrArg ofLe32 (slice_eq_self (le32_length _))).trans (ofLe32_le32 _)
  simp only [stageCmd, header_eq]
  rw [stageAndActivate, hlow, hhigh]
  rfl

end Guest

/-- Opening a data phase leaves the staged command where it is. -/
theorem openPhase_staged (w : RegisterWindow) (cmd : WireCommand) (phase : ExpectedPhase) :
    (w.openPhase cmd phase).regs.read kRegCommand 8 = w.regs.read kRegCommand 8 := by
  refine (read_store32_of_disjoint (by decide)).trans ?_
  split
  · simp only [RegisterWindow.fetchResponse]
    split <;> rfl
  · rfl

/-- So does an activation. -/
theorem startCommand_staged (w : RegisterWindow) :
    w.startCommand.regs.read kRegCommand 8 = w.regs.read kRegCommand 8 := by
  simp only [RegisterWindow.startCommand]
  split
  · exact endTransfer_staged _
  split
  · exact endTransfer_staged _
  split
  · exact endTransfer_staged _
  · exact openPhase_staged _ _ _

/-- The eight bytes at CMD0 and CMD1 once a command is staged and activated, in any state of the page. -/
theorem stageAndActivate_read (w : RegisterWindow) (command : CommandBytes) (blockField : UInt32) :
    (stageAndActivate w command blockField).regs.read kRegCommand 8 = command.toList := by
  have hlen : command.toList.length = 8 := Vector.length_toList
  have hstored : (store32 (store32 w.regs kRegCommand (ofLe32 (slice command.toList 0 4))) (kRegCommand + 4)
      (ofLe32 (slice command.toList 4 4))).read kRegCommand 8 = command.toList := by
    rw [read_command, read_store32_of_disjoint (by decide), read_store32_same, read_store32_same,
      le32_ofLe32 (slice_length (by omega)), le32_ofLe32 (slice_length (by omega)), slice_join (by omega)]
    exact slice_eq_self hlen
  simp only [stageAndActivate, write32_cmd0, write32_cmd1]
  rw [write32_romcnt_cases _ _ rfl (by decide)]
  split
  · rw [startCommand_staged]
    exact (read_store32_of_disjoint (by decide)).trans hstored
  · exact (read_store32_of_disjoint (by decide)).trans hstored

/-! ## One header -/

/-- **All five agree.** For every opcode, index and word, `EncodeCommand`, the DS client and the ARM guest produce the
    same eight bytes, and `DecodeCommand` reads them back. For every eight bytes, the DSpico handler of opcode `p` takes
    them iff they decode to a valid command with that opcode, and then sees the same index and word; a valid command
    is the encoding of what it decodes to. -/
theorem command_headers_agree (opcode index : UInt8) (word : UInt32) (bytes : CommandBytes) (p : UInt8)
    (io : Mem) (w : RegisterWindow) (r3 : UInt32) (d : Dspico) :
    (gpkWriteCommand io opcode index word).read regMccmd0 8 = (encodeCommand opcode index word).toList ∧
    (Guest.stageCmd w opcode.toUInt32 index.toUInt32 word r3).regs.read kRegCommand 8 =
      (encodeCommand opcode index word).toList ∧
    decodeCommand (encodeCommand opcode index word) = ⟨opcode, index, word, true⟩ ∧
    ((decodeCommand bytes).valid = true ∧ (decodeCommand bytes).opcode = p ↔
      (d.latchCommand bytes).romEmu.commandMatches p = true) ∧
    (d.latchCommand bytes).romEmu.commandIndex = (decodeCommand bytes).index ∧
    (d.latchCommand bytes).romEmu.cmd1 = (decodeCommand bytes).word ∧
    ((decodeCommand bytes).valid = true →
      encodeCommand (decodeCommand bytes).opcode (decodeCommand bytes).index (decodeCommand bytes).word = bytes) := by
  have hcmd0 : (d.latchCommand bytes).romEmu.cmd0 = beWord bytes[0] bytes[1] bytes[2] bytes[3] := rfl
  refine ⟨gpkWriteCommand_read io opcode index word, ?_, decodeCommand_encodeCommand opcode index word, ?_,
    commandIndex_beWord hcmd0, rfl, encodeCommand_decodeCommand⟩
  · have hbyte : ∀ b : UInt8, b.toUInt32.toUInt8 = b := fun b => by simp
    rw [Guest.stageCmd_eq, stageAndActivate_read, hbyte, hbyte]
  · rw [commandMatches_iff hcmd0, decodeCommand_valid, CommandBytes.discriminator, Prod.mk.injEq]
    exact And.comm

theorem command_headers_agree_exec :
    (gpkWriteCommand Mem.zero 0xF1 3 0x01020304).read regMccmd0 8 = [0xF1, 0x47, 0x4B, 3, 1, 2, 3, 4] ∧
      encodeCommand 0xF1 3 0x01020304 = #v[0xF1, 0x47, 0x4B, 3, 1, 2, 3, 4] := by
  obtain ⟨hclient, -, -, -, -, -, hback⟩ := command_headers_agree 0xF1 3 0x01020304
    #v[0xF1, 0x47, 0x4B, 3, 1, 2, 3, 4] 0xF1 Mem.zero (RegisterWindow.reset conformanceConfig) 0 Dspico.reset
  exact ⟨hclient, hback (by decide)⟩

end GekkoPak
