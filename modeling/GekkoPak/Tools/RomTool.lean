import Mathlib.Logic.Function.Iterate
import GekkoPak.Basis.Fields

/-!
# `Tools.RomTool` — the cartridge image tool

`tools/dspico_rom_tool.py`: prepares a homebrew image so that the DSpico can serve it. `main` edits the header in place,
may insert a key table or move the payload, and pads the image. What it prints along the way is left out. Fields are read
off images of at least 0x200 bytes, which `main` makes sure of first.
-/

namespace GekkoPak

open Basis

namespace RomTool

/-- What ends the program early: an exit with a message, `struct.error` for a value too large for its field, `ValueError`
    for one too large for a byte. -/
inductive ToolError
  | systemExit (message : String)
  | structError
  | valueError
deriving DecidableEq, Repr

def keytableLen : Nat := 0x1048
def pTableLen : Nat := 18 * 4
def sBoxLen : Nat := 4 * 256 * 4
def romPTableOffset : Nat := 0x1600
def romSBoxOffset : Nat := 0x1C00
def bios7KeytableOffset : Nat := 0x30
def secureAreaEnd : Nat := 0x8000

/-- Header fields holding an absolute ROM offset, which must move with the payload. -/
def offsetFields : List Nat := [0x20, 0x30, 0x40, 0x48, 0x50, 0x58, 0x68]

/-- `u32`. -/
def u32 (buf : List UInt8) (off : Nat) : Nat := field 4 buf off

/-- `put_u32`. -/
def putU32 (buf : List UInt8) (off value : Nat) : Except ToolError (List UInt8) :=
  if value < 2 ^ 32 then .ok (setField 4 buf off value) else .error .structError

/-! ## The key table -/

/-- The eighteen words of the P table and the four S boxes. -/
structure Keytable where
  bytes     : List UInt8
  length_eq : bytes.length = keytableLen

/-- The check for the wrong file: a key table is high-entropy. -/
def checkKeytable (path : String) (table : Keytable) : Except ToolError Keytable :=
  let distinct := table.bytes.eraseDups.length
  if distinct < 200 then
    .error (.systemExit (path ++ ": data at the keytable offset does not look like key material (" ++
      toString distinct ++ " distinct byte values); wrong file?"))
  else .ok table

/-- `load_keytable`, of a file with contents `data`. -/
def loadKeytable (path : String) (data : List UInt8) : Except ToolError Keytable :=
  if hraw : data.length = keytableLen then checkKeytable path ⟨data, hraw⟩
  else if hbios : bios7KeytableOffset + keytableLen ≤ data.length then
    checkKeytable path ⟨slice data bios7KeytableOffset keytableLen, slice_length hbios⟩
  else .error (.systemExit (path ++ ": too small to contain a KEY1 keytable"))

/-! ## The edits -/

/-- One turn of the loop over `OFFSET_FIELDS`. -/
def moveOffset (arm9Off shift : Nat) (rom : List UInt8) (off : Nat) : Except ToolError (List UInt8) :=
  let value := u32 rom off
  if value ≥ arm9Off then putU32 rom off (value + shift) else .ok rom

/-- `relocate_past_secure_area`: the image and the shift. -/
def relocatePastSecureArea (rom : List UInt8) : Except ToolError (List UInt8 × Nat) :=
  let arm9Off := u32 rom 0x20
  if arm9Off ≥ secureAreaEnd then .ok (rom, 0)
  else if u32 rom 0x54 ≠ 0 ∨ u32 rom 0x5C ≠ 0 then
    .error (.systemExit ("ROM contains overlays; offset fixups for overlay tables are not " ++
      "implemented. Rebuild without overlays."))
  else do
    let shift := secureAreaEnd - arm9Off
    let rom := rom.take arm9Off ++ List.replicate shift 0 ++ rom.drop arm9Off
    let rom ← offsetFields.foldlM (moveOffset arm9Off shift) rom
    let total := u32 rom 0x80
    let rom ← (if total ≠ 0 then putU32 rom 0x80 (total + shift) else .ok rom)
    -- header size field, so tools agree on where the payload starts
    let rom ← putU32 rom 0x84 secureAreaEnd
    return (rom, shift)

/-- One bit of the reflected CRC-16. -/
def crcBit (crc : Nat) : Nat := (crc >>> 1) ^^^ (if crc &&& 1 ≠ 0 then 0xA001 else 0)

/-- `crc16`, from its default start. -/
def crc16 (data : List UInt8) : Nat :=
  data.foldl (fun crc b => crcBit^[8] (crc ^^^ b.toNat)) 0xFFFF &&& 0xFFFF

/-- `fix_header_crc`. -/
def fixHeaderCrc (rom : List UInt8) : List UInt8 :=
  let stored := field 2 rom 0x15E
  let computed := crc16 (slice rom 0 0x15E)
  if stored = computed then rom else setField 2 rom 0x15E computed

/-- `clear_secure_area_crc`. -/
def clearSecureAreaCrc (rom : List UInt8) : List UInt8 :=
  if field 2 rom 0x6C = 0 then rom else setField 2 rom 0x6C 0

/-- `force_ntr_unit_code`. -/
def forceNtrUnitCode (rom : List UInt8) : List UInt8 :=
  if field 1 rom 0x12 = 0 then rom else setField 1 rom 0x12 0

/-- `while (128 * 1024) << capacity < size: capacity += 1`. -/
def capacityLoop (size capacity : Nat) : Nat :=
  if (128 * 1024) <<< capacity < size then capacityLoop size (capacity + 1) else capacity
termination_by size - (128 * 1024) <<< capacity
decreasing_by
  have hgrows : (128 * 1024) <<< capacity < (128 * 1024) <<< (capacity + 1) := by
    rw [Nat.shiftLeft_succ]
    have hpos : 0 < (128 * 1024) <<< capacity := by
      rw [Nat.shiftLeft_eq]
      exact Nat.mul_pos (by decide) (Nat.two_pow_pos capacity)
    omega
  omega

/-- `fix_device_capacity`. -/
def fixDeviceCapacity (rom : List UInt8) : Except ToolError (List UInt8) :=
  let capacity := capacityLoop rom.length 0
  if field 1 rom 0x14 = capacity then .ok rom
  else if capacity < 256 then .ok (setField 1 rom 0x14 capacity)
  else .error .valueError

/-- `inject_keytable`. -/
def injectKeytable (rom : List UInt8) (table : Keytable) : List UInt8 :=
  let need := romSBoxOffset + sBoxLen
  let rom := if rom.length < need then rom ++ List.replicate (need - rom.length) 0 else rom
  let rom := splice rom romPTableOffset (slice table.bytes 0 pTableLen)
  splice rom romSBoxOffset (slice table.bytes pTableLen sBoxLen)

/-! ## The program -/

/-- The options. `keytable` is the path given and what the file holds. -/
structure Args where
  rom          : String
  keytable     : Option (String × List UInt8) := none
  noKeys       : Bool := false
  relocate     : Bool := false
  keepUnitCode : Bool := false

/-- The branch of `main` over the key options: the table to inject, if any, and the image. -/
def chooseKeys (args : Args) (rom : List UInt8) : Except ToolError (Option Keytable × List UInt8) :=
  if args.noKeys then .ok (none, clearSecureAreaCrc rom)
  else
    match args.keytable with
    | some (path, data) =>
      -- an empty path counts as none
      if path = "" then
        .error (.systemExit "need --keytable, or --no-keys if DSRomEncryptor will insert them")
      else do
        let table ← loadKeytable path data
        return (some table, rom)
    | none => .error (.systemExit "need --keytable, or --no-keys if DSRomEncryptor will insert them")

/-- Pad to a 512-byte boundary. -/
def padToPage (rom : List UInt8) : List UInt8 :=
  if rom.length % 512 ≠ 0 then rom ++ List.replicate (512 - rom.length % 512) 0 else rom

/-- `main`: the bytes written, for an image read. -/
def main (args : Args) (rom : List UInt8) : Except ToolError (List UInt8) := do
  if rom.length < 0x200 then
    throw (.systemExit (args.rom ++ ": not a .nds image"))
  let (table, rom) ← chooseKeys args rom
  let rom ← (if args.relocate then Prod.fst <$> relocatePastSecureArea rom else .ok rom)
  let rom := if !args.keepUnitCode then forceNtrUnitCode rom else rom
  let rom :=
    match table with
    | some table => injectKeytable rom table
    | none => rom
  let rom ← fixDeviceCapacity rom
  let rom := fixHeaderCrc rom
  return padToPage rom

end RomTool

end GekkoPak
