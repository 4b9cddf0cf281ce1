import GekkoPak.Protocol.Wire

/-!
# `Protocol.Records` — the 64-byte block records

`JobDescriptorV1` (`GKD1`) and `CompletionRecordV1` (`GKC1`) are laid out little-endian and copied verbatim,
so a record *is* its 64 bytes: `toBytes` and `ofBytes` are inverse to each other, in both directions.
-/

namespace GekkoPak

open Basis

/-! ## Words in memory -/

/-- A 16-bit word as it lies in memory. -/
def le16 (v : UInt16) : List UInt8 := leBytes 2 v.toNat

/-- A 32-bit word as it lies in memory. -/
def le32 (v : UInt32) : List UInt8 := leBytes 4 v.toNat

/-- The 16-bit word in two bytes of memory. -/
def ofLe16 (bs : List UInt8) : UInt16 := UInt16.ofNat (leNat bs)

/-- The 32-bit word in four bytes of memory. -/
def ofLe32 (bs : List UInt8) : UInt32 := UInt32.ofNat (leNat bs)

@[simp] theorem le16_length (v : UInt16) : (le16 v).length = 2 := leBytes_length 2 _

@[simp] theorem le32_length (v : UInt32) : (le32 v).length = 4 := leBytes_length 4 _

@[simp] theorem ofLe16_le16 (v : UInt16) : ofLe16 (le16 v) = v := by
  unfold ofLe16 le16
  rw [leNat_leBytes (by simpa using v.toNat_lt)]
  exact UInt16.ofNat_toNat

@[simp] theorem ofLe32_le32 (v : UInt32) : ofLe32 (le32 v) = v := by
  unfold ofLe32 le32
  rw [leNat_leBytes (by simpa using v.toNat_lt)]
  exact UInt32.ofNat_toNat

theorem le16_ofLe16 {bs : List UInt8} (h : bs.length = 2) : le16 (ofLe16 bs) = bs := by
  have hlt := leNat_lt bs
  rw [h] at hlt
  unfold le16 ofLe16
  rw [UInt16.toNat_ofNat_of_lt' (by simpa using hlt)]
  exact leBytes_eq_of_leNat h rfl

theorem le32_ofLe32 {bs : List UInt8} (h : bs.length = 4) : le32 (ofLe32 bs) = bs := by
  have hlt := leNat_lt bs
  rw [h] at hlt
  unfold le32 ofLe32
  rw [UInt32.toNat_ofNat_of_lt' (by simpa using hlt)]
  exact leBytes_eq_of_leNat h rfl

theorem toUInt8_shiftRight_toNat (word n : UInt32) (h : n.toNat < 32) :
    (word >>> n).toUInt8.toNat = word.toNat / 2 ^ n.toNat % 256 := by
  rw [UInt32.toNat_toUInt8, UInt32.toNat_shiftRight, Nat.mod_eq_of_lt h, Nat.shiftRight_eq_div_pow]

/-- A word in memory, from its low byte up. -/
theorem le32_eq (word : UInt32) :
    le32 word = [word.toUInt8, (word >>> 8).toUInt8, (word >>> 16).toUInt8, (word >>> 24).toUInt8] := by
  have hword := word.toNat_lt
  refine leBytes_eq_of_leNat rfl ?_
  simp only [leNat, UInt32.toNat_toUInt8, toUInt8_shiftRight_toNat word 8 (by decide),
    toUInt8_shiftRight_toNat word 16 (by decide), toUInt8_shiftRight_toNat word 24 (by decide),
    show (8 : UInt32).toNat = 8 from rfl, show (16 : UInt32).toNat = 16 from rfl, show (24 : UInt32).toNat = 24 from rfl]
  omega

/-- The bytes of a word put together from four bytes are those four. -/
theorem le32_beWord (a b c d : UInt8) : le32 (beWord a b c d) = [d, c, b, a] := by
  refine leBytes_eq_of_leNat rfl ?_
  rw [beWord_toNat]
  simp only [leNat]
  omega

/-! ## Job descriptors -/

/-- `'GKD1'`, little-endian. -/
def kDescriptorMagic : UInt32 := 0x31444B47

/-- `'GKC1'`, little-endian. -/
def kCompletionMagic : UInt32 := 0x31434B47

def kBlockProtocolVersion : UInt16 := 1
def kDescriptorOpcodeSubmit : UInt16 := 1
def kDescriptorFlagInlineInput : UInt32 := (1 : UInt32) <<< 0

/-- One submitted job. -/
structure JobDescriptorV1 where
  magic        : UInt32 := kDescriptorMagic
  version      : UInt16 := kBlockProtocolVersion
  opcode       : UInt16 := kDescriptorOpcodeSubmit
  sequence     : UInt32 := 0
  flags        : UInt32 := 0
  inputHandle  : UInt32 := 0
  inputOffset  : UInt32 := 0
  inputLength  : UInt32 := 0
  outputHandle : UInt32 := 0
  outputOffset : UInt32 := 0
  outputLength : UInt32 := 0
  kernelId     : UInt32 := 0
  workUnits    : UInt32 := 0
  arg0         : UInt32 := 0
  arg1         : UInt32 := 0
  arg2         : UInt32 := 0
  arg3         : UInt32 := 0
deriving DecidableEq, Repr

namespace JobDescriptorV1

/-- The 64 bytes of a descriptor. -/
def toBytes (d : JobDescriptorV1) : List UInt8 :=
  le32 d.magic ++ (le16 d.version ++ (le16 d.opcode ++ (le32 d.sequence ++ (le32 d.flags ++
  (le32 d.inputHandle ++ (le32 d.inputOffset ++ (le32 d.inputLength ++ (le32 d.outputHandle ++
  (le32 d.outputOffset ++ (le32 d.outputLength ++ (le32 d.kernelId ++ (le32 d.workUnits ++
  (le32 d.arg0 ++ (le32 d.arg1 ++ (le32 d.arg2 ++ le32 d.arg3)))))))))))))))

/-- `memcpy(&desc, bytes, sizeof(desc))`: each field read at its offset. -/
def ofBytes (bs : List UInt8) : JobDescriptorV1 where
  magic := ofLe32 (slice bs 0 4)
  version := ofLe16 (slice bs 4 2)
  opcode := ofLe16 (slice bs 6 2)
  sequence := ofLe32 (slice bs 8 4)
  flags := ofLe32 (slice bs 12 4)
  inputHandle := ofLe32 (slice bs 16 4)
  inputOffset := ofLe32 (slice bs 20 4)
  inputLength := ofLe32 (slice bs 24 4)
  outputHandle := ofLe32 (slice bs 28 4)
  outputOffset := ofLe32 (slice bs 32 4)
  outputLength := ofLe32 (slice bs 36 4)
  kernelId := ofLe32 (slice bs 40 4)
  workUnits := ofLe32 (slice bs 44 4)
  arg0 := ofLe32 (slice bs 48 4)
  arg1 := ofLe32 (slice bs 52 4)
  arg2 := ofLe32 (slice bs 56 4)
  arg3 := ofLe32 (slice bs 60 4)

@[simp] theorem toBytes_length (d : JobDescriptorV1) : d.toBytes.length = kDescriptorBytes := by
  simp [toBytes]

/-- Reading a descriptor's bytes gives the descriptor back. -/
@[simp] theorem ofBytes_toBytes (d : JobDescriptorV1) : ofBytes d.toBytes = d := by
  simp [ofBytes, toBytes, slice_of_length_le, slice_append_eq_left, slice_eq_self]

/-- Any 64 bytes are the bytes of the descriptor read from them. -/
theorem toBytes_ofBytes {bs : List UInt8} (h : bs.length = kDescriptorBytes) : (ofBytes bs).toBytes = bs := by
  have h4 : ∀ off, off + 4 ≤ 64 → le32 (ofLe32 (slice bs off 4)) = slice bs off 4 :=
    fun off ho => le32_ofLe32 (slice_length (by rw [h]; exact ho))
  have h2 : ∀ off, off + 2 ≤ 64 → le16 (ofLe16 (slice bs off 2)) = slice bs off 2 :=
    fun off ho => le16_ofLe16 (slice_length (by rw [h]; exact ho))
  simp only [toBytes, ofBytes, h4, h2, Nat.reduceAdd, Nat.reduceLeDiff, slice_join]
  exact slice_eq_self h

/-- `flags & kDescriptorFlagInlineInput`. -/
def inlineInput (d : JobDescriptorV1) : Bool := d.flags &&& kDescriptorFlagInlineInput != 0

/-- The header check of the block parser. -/
def headerOk (d : JobDescriptorV1) : Bool :=
  d.magic == kDescriptorMagic && d.version == kBlockProtocolVersion &&
    d.opcode == kDescriptorOpcodeSubmit

end JobDescriptorV1

/-! ## Completion records -/

/-- The `reserved` words of a record no one has written to. -/
def kReservedZero : Vector UInt32 5 := #v[0, 0, 0, 0, 0]

/-- One finished (or refused) job. -/
structure CompletionRecordV1 where
  magic            : UInt32 := kCompletionMagic
  version          : UInt16 := kBlockProtocolVersion
  status           : UInt16 := Status.ok.code16
  sequence         : UInt32 := 0
  jobHandle        : UInt32 := 0
  modeledUs        : UInt32 := 0
  speedupX1000     : UInt32 := 0
  checksum         : UInt32 := 0
  softwareUs       : UInt32 := 0
  outputLength     : UInt32 := 0
  transportUsX1000 : UInt32 := 0
  batchSize        : UInt32 := 0
  reserved         : Vector UInt32 5 := kReservedZero
deriving DecidableEq, Repr

namespace CompletionRecordV1

/-- The 64 bytes of a record. -/
def toBytes (r : CompletionRecordV1) : List UInt8 :=
  le32 r.magic ++ (le16 r.version ++ (le16 r.status ++ (le32 r.sequence ++ (le32 r.jobHandle ++
  (le32 r.modeledUs ++ (le32 r.speedupX1000 ++ (le32 r.checksum ++ (le32 r.softwareUs ++
  (le32 r.outputLength ++ (le32 r.transportUsX1000 ++ (le32 r.batchSize ++
  (le32 r.reserved[0] ++ (le32 r.reserved[1] ++ (le32 r.reserved[2] ++ (le32 r.reserved[3] ++
  le32 r.reserved[4])))))))))))))))

/-- `memcpy(&record, bytes, sizeof(record))`. -/
def ofBytes (bs : List UInt8) : CompletionRecordV1 where
  magic := ofLe32 (slice bs 0 4)
  version := ofLe16 (slice bs 4 2)
  status := ofLe16 (slice bs 6 2)
  sequence := ofLe32 (slice bs 8 4)
  jobHandle := ofLe32 (slice bs 12 4)
  modeledUs := ofLe32 (slice bs 16 4)
  speedupX1000 := ofLe32 (slice bs 20 4)
  checksum := ofLe32 (slice bs 24 4)
  softwareUs := ofLe32 (slice bs 28 4)
  outputLength := ofLe32 (slice bs 32 4)
  transportUsX1000 := ofLe32 (slice bs 36 4)
  batchSize := ofLe32 (slice bs 40 4)
  reserved := #v[ofLe32 (slice bs 44 4), ofLe32 (slice bs 48 4), ofLe32 (slice bs 52 4),
    ofLe32 (slice bs 56 4), ofLe32 (slice bs 60 4)]

@[simp] theorem toBytes_length (r : CompletionRecordV1) : r.toBytes.length = kCompletionBytes := by
  simp [toBytes]

/-- Reading a record's bytes gives the record back. -/
@[simp] theorem ofBytes_toBytes (r : CompletionRecordV1) : ofBytes r.toBytes = r := by
  have hres : #v[r.reserved[0], r.reserved[1], r.reserved[2], r.reserved[3], r.reserved[4]] = r.reserved := by
    apply Vector.ext
    intro i hi
    match i, hi with
    | 0, _ | 1, _ | 2, _ | 3, _ | 4, _ => rfl
  simp [ofBytes, toBytes, slice_of_length_le, slice_append_eq_left, slice_eq_self, hres]

end CompletionRecordV1

end GekkoPak
