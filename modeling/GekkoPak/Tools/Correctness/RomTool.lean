import GekkoPak.Tools.RomTool

/-!
# `Tools.Correctness.RomTool` — the image written is consistent, and a second run leaves it alone

The edits after the keys and the relocation are one pipeline (`finish`). Each edit sets a field of its own, so in the
image written every field still holds what was set: that is `Prepared`, and `prepared_of_finish` proves it of every
output. The other way round a prepared image goes through the pipeline unchanged (`finish_of_prepared`).
-/

namespace GekkoPak

open Basis

namespace RomTool

/-! ## The capacity -/

/-- `c` is the least capacity code that covers `size` bytes. -/
def IsCapacity (size c : Nat) : Prop := size ≤ (128 * 1024) <<< c ∧ ∀ d, size ≤ (128 * 1024) <<< d → c ≤ d

theorem capacityLoop_spec (size c : Nat) (hbelow : ∀ d < c, (128 * 1024) <<< d < size) :
    IsCapacity size (capacityLoop size c) := by
  fun_induction capacityLoop size c with
  | case1 c hlt ih =>
    apply ih
    intro d hd
    rcases Nat.lt_or_eq_of_le (Nat.le_of_lt_succ hd) with hless | rfl
    · exact hbelow d hless
    · exact hlt
  | case2 c hge =>
    refine ⟨Nat.not_lt.mp hge, ?_⟩
    intro d hd
    by_contra hnot
    exact absurd (hbelow d (Nat.not_le.mp hnot)) (Nat.not_lt.mpr hd)

theorem isCapacity_capacityLoop (size : Nat) : IsCapacity size (capacityLoop size 0) :=
  capacityLoop_spec size 0 (fun _ hd => absurd hd (Nat.not_lt_zero _))

theorem IsCapacity.unique {size c d : Nat} (hc : IsCapacity size c) (hd : IsCapacity size d) : c = d :=
  Nat.le_antisymm (hc.2 d hd.1) (hd.2 c hc.1)

/-- Chip sizes are whole pages, so padding to a page needs no larger chip. -/
theorem IsCapacity.padded {size size' c : Nat} (h : IsCapacity size c) (hle : size ≤ size')
    (hpage : size' ≤ (size + 511) / 512 * 512) : IsCapacity size' c := by
  have hcovers : ∀ d, size ≤ (128 * 1024) <<< d → size' ≤ (128 * 1024) <<< d := by
    intro d hd
    have hpages : (128 * 1024) <<< d = 2 ^ d * 256 * 512 := by
      rw [Nat.shiftLeft_eq]
      omega
    rw [hpages] at hd ⊢
    have hround : (size + 511) / 512 ≤ 2 ^ d * 256 := by omega
    exact Nat.le_trans hpage (Nat.mul_le_mul_right 512 hround)
  exact ⟨hcovers c h.1, fun d hd => h.2 d (Nat.le_trans hle hd)⟩

/-! ## The edits, as field sets -/

variable {rom : List UInt8}

/-- A field of the header, in an image that has one. -/
theorem inHeader (h : 0x200 ≤ rom.length) {off k : Nat} (hk : off + k ≤ 0x200 := by decide) : off + k ≤ rom.length :=
  Nat.le_trans hk h

theorem crc16_lt (data : List UInt8) : crc16 data < 256 ^ 2 :=
  Nat.lt_of_le_of_lt Nat.and_le_right (by decide)

theorem clearSecureAreaCrc_eq (h : 0x200 ≤ rom.length) : clearSecureAreaCrc rom = setField 2 rom 0x6C 0 :=
  setField_unless (inHeader h) 0

theorem clearSecureAreaCrc_length (h : 0x200 ≤ rom.length) : (clearSecureAreaCrc rom).length = rom.length := by
  rw [clearSecureAreaCrc_eq h, setField_length (inHeader h)]

theorem forceNtrUnitCode_eq (h : 0x200 ≤ rom.length) : forceNtrUnitCode rom = setField 1 rom 0x12 0 :=
  setField_unless (inHeader h) 0

theorem forceNtrUnitCode_length (h : 0x200 ≤ rom.length) : (forceNtrUnitCode rom).length = rom.length := by
  rw [forceNtrUnitCode_eq h, setField_length (inHeader h)]

/-- The image with the capacity set. -/
def fitted (rom : List UInt8) : List UInt8 := setField 1 rom 0x14 (capacityLoop rom.length 0)

theorem fitted_length (h : 0x200 ≤ rom.length) : (fitted rom).length = rom.length :=
  setField_length (inHeader h) _

theorem fitted_long (h : 0x200 ≤ rom.length) : 0x200 ≤ (fitted rom).length := by
  rw [fitted_length h]
  exact h

theorem fixDeviceCapacity_ok {rom' : List UInt8} (h : 0x200 ≤ rom.length) (hrun : fixDeviceCapacity rom = .ok rom') :
    rom' = fitted rom ∧ capacityLoop rom.length 0 < 256 := by
  rw [fixDeviceCapacity] at hrun
  split at hrun
  · rename_i hsame
    have hset := @setField_field 1 0x14 rom (inHeader h)
    rw [hsame] at hset
    have hbyte := @field_lt 1 0x14 rom (inHeader h)
    rw [hsame] at hbyte
    cases hrun
    exact ⟨hset.symm, hbyte⟩
  · split at hrun
    · rename_i hsmall
      cases hrun
      exact ⟨rfl, hsmall⟩
    · cases hrun

/-- The image with the header CRC set. -/
def checked (rom : List UInt8) : List UInt8 := setField 2 rom 0x15E (crc16 (slice rom 0 0x15E))

theorem fixHeaderCrc_eq (h : 0x200 ≤ rom.length) : fixHeaderCrc rom = checked rom :=
  setField_unless (inHeader h) _

theorem checked_length (h : 0x200 ≤ rom.length) : (checked rom).length = rom.length :=
  setField_length (inHeader h) _

/-- The CRC is that of the bytes in front of it, before and after it is set. -/
theorem checked_crc (h : 0x200 ≤ rom.length) : field 2 (checked rom) 0x15E = crc16 (slice (checked rom) 0 0x15E) := by
  rw [checked, field_setField (inHeader h) (crc16_lt _), slice_setField (inHeader h) _ (Or.inr (by decide))]

/-! ## The key table -/

/-- The image holds the key table. -/
structure Injected (rom : List UInt8) (table : Keytable) : Prop where
  long   : 0x2C00 ≤ rom.length
  pTable : slice rom 0x1600 0x48 = slice table.bytes 0 0x48
  sBoxes : slice rom 0x1C00 0x1000 = slice table.bytes 0x48 0x1000

theorem Keytable.pTable_length (table : Keytable) : (slice table.bytes 0 0x48).length = 0x48 :=
  slice_length (by rw [table.length_eq]; decide)

theorem Keytable.sBoxes_length (table : Keytable) : (slice table.bytes 0x48 0x1000).length = 0x1000 :=
  slice_length (by rw [table.length_eq]; decide)

/-- The image made long enough for the table. -/
def extended (rom : List UInt8) : List UInt8 := rom ++ List.replicate (0x2C00 - rom.length) 0

theorem extended_length (rom : List UInt8) : (extended rom).length = max rom.length 0x2C00 := by
  rw [extended, List.length_append, List.length_replicate]
  omega

theorem injectKeytable_eq (rom : List UInt8) (table : Keytable) :
    injectKeytable rom table =
      splice (splice (extended rom) 0x1600 (slice table.bytes 0 0x48)) 0x1C00 (slice table.bytes 0x48 0x1000) := by
  have hextended : (if rom.length < romSBoxOffset + sBoxLen then
      rom ++ List.replicate (romSBoxOffset + sBoxLen - rom.length) 0 else rom) = extended rom := by
    have hneed : romSBoxOffset + sBoxLen = 0x2C00 := rfl
    rw [hneed, extended]
    by_cases hshort : rom.length < 0x2C00
    · rw [if_pos hshort]
    · rw [if_neg hshort, Nat.sub_eq_zero_of_le (Nat.not_lt.mp hshort), List.replicate_zero, List.append_nil]
  rw [injectKeytable, hextended]
  rfl

/-- Where the P table goes. -/
theorem romPTable_inside (rom : List UInt8) : 0x1600 + 0x48 ≤ (extended rom).length := by
  rw [extended_length]
  exact Nat.le_trans (by decide) (Nat.le_max_right _ _)

/-- Where the S boxes go, with the P table in place. -/
theorem romSBoxes_inside (rom : List UInt8) (table : Keytable) :
    0x1C00 + 0x1000 ≤ (splice (extended rom) 0x1600 (slice table.bytes 0 0x48)).length := by
  rw [splice_length_inside table.pTable_length (romPTable_inside rom), extended_length]
  exact Nat.le_max_right _ _

theorem injectKeytable_length (rom : List UInt8) (table : Keytable) :
    (injectKeytable rom table).length = max rom.length 0x2C00 := by
  rw [injectKeytable_eq, splice_length_inside table.sBoxes_length (romSBoxes_inside rom table),
    splice_length_inside table.pTable_length (romPTable_inside rom), extended_length]

/-- The key table goes in behind the header. -/
theorem slice_injectKeytable (table : Keytable) {start len : Nat} (hlow : start + len ≤ 0x1600)
    (hin : start + len ≤ rom.length) : slice (injectKeytable rom table) start len = slice rom start len := by
  have hbelow : start + len ≤ 0x1C00 := Nat.le_trans hlow (by decide)
  rw [injectKeytable_eq,
    slice_splice_of_disjoint table.sBoxes_length (romSBoxes_inside rom table) (Or.inr hbelow),
    slice_splice_of_disjoint table.pTable_length (romPTable_inside rom) (Or.inr hlow), extended, slice_append_left hin]

theorem injected_injectKeytable (rom : List UInt8) (table : Keytable) : Injected (injectKeytable rom table) table where
  long := by
    rw [injectKeytable_length]
    exact Nat.le_max_right _ _
  pTable := by
    rw [injectKeytable_eq,
      slice_splice_of_disjoint table.sBoxes_length (romSBoxes_inside rom table) (Or.inr (by decide)),
      slice_splice_same table.pTable_length (romPTable_inside rom)]
  sBoxes := by
    rw [injectKeytable_eq, slice_splice_same table.sBoxes_length (romSBoxes_inside rom table)]

/-- Injecting the table an image holds already. -/
theorem Injected.inject {table : Keytable} (h : Injected rom table) : injectKeytable rom table = rom := by
  have hext : extended rom = rom := by
    rw [extended, Nat.sub_eq_zero_of_le h.long, List.replicate_zero, List.append_nil]
  have hpTable : splice rom 0x1600 (slice table.bytes 0 0x48) = rom :=
    splice_eq_self table.pTable_length (Nat.le_trans (by decide) h.long) h.pTable
  have hsBoxes : splice rom 0x1C00 (slice table.bytes 0x48 0x1000) = rom :=
    splice_eq_self table.sBoxes_length h.long h.sBoxes
  rw [injectKeytable_eq, hext, hpTable, hsBoxes]

/-- Edits in front of the table and bytes behind the image leave it where it is. -/
theorem Injected.congr {table : Keytable} {rom' : List UInt8} (h : Injected rom table) (hlen : rom.length ≤ rom'.length)
    (hsame : ∀ start len, 0x1600 ≤ start → start + len ≤ rom.length → slice rom' start len = slice rom start len) :
    Injected rom' table := by
  have hlong := h.long
  refine ⟨by omega, ?_, ?_⟩
  · rw [hsame _ _ (by decide) (by omega), h.pTable]
  · rw [hsame _ _ (by decide) (by omega), h.sBoxes]

/-! ## Relocation keeps the image long -/

theorem ok_of_bind {α β : Type} {x : Except ToolError α} {f : α → Except ToolError β} {b : β}
    (h : x >>= f = .ok b) : ∃ a, x = .ok a ∧ f a = .ok b := by
  cases x with
  | error e => cases h
  | ok a => exact ⟨a, rfl, h⟩

theorem putU32_length {off value : Nat} {rom' : List UInt8} (h : off + 4 ≤ rom.length)
    (hrun : putU32 rom off value = .ok rom') : rom'.length = rom.length := by
  rw [putU32] at hrun
  split at hrun
  · cases hrun
    exact setField_length h value
  · cases hrun

theorem moveOffsets_length {arm9Off shift : Nat} {offs : List Nat} {rom rom' : List UInt8}
    (hin : ∀ off ∈ offs, off + 4 ≤ rom.length) (hrun : offs.foldlM (moveOffset arm9Off shift) rom = .ok rom') :
    rom'.length = rom.length := by
  induction offs generalizing rom with
  | nil =>
    cases hrun
    rfl
  | cons off offs ih =>
    rw [List.foldlM_cons] at hrun
    obtain ⟨moved, hturn, hrun⟩ := ok_of_bind hrun
    have hmoved : moved.length = rom.length := by
      rw [moveOffset] at hturn
      split at hturn
      · exact putU32_length (hin off List.mem_cons_self) hturn
      · cases hturn
        rfl
    rw [ih (fun o ho => by rw [hmoved]; exact hin o (List.mem_cons_of_mem off ho)) hrun, hmoved]

theorem relocate_length {rom' : List UInt8} {shift : Nat} (h : 0x200 ≤ rom.length)
    (hrun : relocatePastSecureArea rom = .ok (rom', shift)) : 0x200 ≤ rom'.length := by
  rw [relocatePastSecureArea] at hrun
  split at hrun
  · cases hrun
    exact h
  · split at hrun
    · cases hrun
    · have hmoved : 0x200 ≤ (rom.take (u32 rom 0x20) ++ List.replicate (secureAreaEnd - u32 rom 0x20) 0 ++
          rom.drop (u32 rom 0x20)).length := by
        simp only [List.length_append, List.length_take, List.length_drop]
        omega
      obtain ⟨fixed, hoffsets, hrun⟩ := ok_of_bind hrun
      have hfixed := moveOffsets_length (by
        intro off hoff
        have hhead : off ≤ 0x68 := by
          simp only [offsetFields, List.mem_cons, List.not_mem_nil, or_false] at hoff
          omega
        omega) hoffsets
      obtain ⟨total, htotal, hrun⟩ := ok_of_bind hrun
      have hsized : total.length = fixed.length := by
        split at htotal
        · exact putU32_length (by omega) htotal
        · cases htotal
          rfl
      obtain ⟨last, hlast, hrun⟩ := ok_of_bind hrun
      have hlength := putU32_length (by omega) hlast
      cases hrun
      omega

/-! ## The pipeline -/

/-- The image with the unit code as the options ask for it. -/
def unitCoded (args : Args) (rom : List UInt8) : List UInt8 :=
  if !args.keepUnitCode then forceNtrUnitCode rom else rom

/-- The unit code and the key table. -/
def keyed (args : Args) (table : Option Keytable) (rom : List UInt8) : List UInt8 :=
  match table with
  | some table => injectKeytable (unitCoded args rom) table
  | none => unitCoded args rom

/-- `main` after the keys are chosen and the payload is moved. -/
def finish (args : Args) (table : Option Keytable) (rom : List UInt8) : Except ToolError (List UInt8) := do
  let rom ← fixDeviceCapacity (keyed args table rom)
  return padToPage (fixHeaderCrc rom)

theorem main_eq {args : Args} (h : 0x200 ≤ rom.length) :
    main args rom = (do
      let (table, rom) ← chooseKeys args rom
      let rom ← (if args.relocate then Prod.fst <$> relocatePastSecureArea rom else .ok rom)
      finish args table rom) := by
  rw [main, if_neg (Nat.not_lt.mpr h)]
  rfl

theorem main_refused {args : Args} (h : rom.length < 0x200) :
    main args rom = .error (.systemExit (args.rom ++ ": not a .nds image")) := by
  rw [main, if_pos h]
  rfl

theorem unitCoded_length (args : Args) (h : 0x200 ≤ rom.length) : (unitCoded args rom).length = rom.length := by
  rw [unitCoded]
  split
  · exact forceNtrUnitCode_length h
  · rfl

theorem unitCoded_unitCode {args : Args} (h : 0x200 ≤ rom.length) (hforce : args.keepUnitCode = false) :
    field 1 (unitCoded args rom) 0x12 = 0 := by
  rw [unitCoded, hforce, if_pos (by decide), forceNtrUnitCode_eq h]
  exact field_setField (inHeader h) (by decide)

theorem unitCoded_secureCrc (args : Args) (h : 0x200 ≤ rom.length) :
    field 2 (unitCoded args rom) 0x6C = field 2 rom 0x6C := by
  rw [unitCoded]
  split
  · rw [forceNtrUnitCode_eq h, field_setField_of_disjoint (inHeader h) 0 (Or.inl (by decide))]
  · rfl

theorem keyed_length_le (args : Args) (table : Option Keytable) (h : 0x200 ≤ rom.length) :
    rom.length ≤ (keyed args table rom).length := by
  cases table with
  | none => exact Nat.le_of_eq (unitCoded_length args h).symm
  | some table =>
    rw [keyed, injectKeytable_length, unitCoded_length args h]
    exact Nat.le_max_left _ _

/-- The key table leaves the header as the unit code left it. -/
theorem field_keyed (args : Args) (table : Option Keytable) (h : 0x200 ≤ rom.length) {off k : Nat}
    (hk : off + k ≤ 0x200 := by decide) : field k (keyed args table rom) off = field k (unitCoded args rom) off := by
  cases table with
  | none => rfl
  | some table =>
    have hin : off + k ≤ (unitCoded args rom).length := by
      rw [unitCoded_length args h]
      exact inHeader h hk
    rw [keyed, field, slice_injectKeytable table (Nat.le_trans hk (by decide)) hin, field]

theorem keyed_injected (args : Args) (table : Option Keytable) (rom : List UInt8) :
    ∀ t ∈ table, Injected (keyed args table rom) t := by
  intro t ht
  cases ht
  exact injected_injectKeytable (unitCoded args rom) t

theorem padToPage_eq (rom : List UInt8) :
    padToPage rom = rom ++ List.replicate ((512 - rom.length % 512) % 512) 0 := by
  rw [padToPage]
  split
  · rw [Nat.mod_eq_of_lt (show 512 - rom.length % 512 < 512 by omega)]
  · rename_i haligned
    have hzero : rom.length % 512 = 0 := by omega
    rw [hzero]
    simp

theorem padToPage_length (rom : List UInt8) : (padToPage rom).length = (rom.length + 511) / 512 * 512 := by
  rw [padToPage_eq, List.length_append, List.length_replicate]
  omega

theorem padToPage_of_aligned (h : rom.length % 512 = 0) : padToPage rom = rom := by
  rw [padToPage, if_neg (by omega)]

theorem slice_padToPage {start len : Nat} (hin : start + len ≤ rom.length) :
    slice (padToPage rom) start len = slice rom start len := by
  rw [padToPage_eq, slice_append_left hin]

/-- The capacity and the CRC set, and the image padded. -/
def sealed (rom : List UInt8) : List UInt8 := padToPage (checked (fitted rom))

theorem sealed_length (h : 0x200 ≤ rom.length) : (sealed rom).length = (rom.length + 511) / 512 * 512 := by
  rw [sealed, padToPage_length, checked_length (fitted_long h), fitted_length h]

/-- Sealing, seen in front of the padding. -/
theorem slice_sealed_checked (h : 0x200 ≤ rom.length) {start len : Nat} (hin : start + len ≤ rom.length) :
    slice (sealed rom) start len = slice (checked (fitted rom)) start len := by
  rw [sealed, slice_padToPage]
  rw [checked_length (fitted_long h), fitted_length h]
  exact hin

/-- What lies outside the two fields, sealing leaves alone. -/
theorem slice_sealed (h : 0x200 ≤ rom.length) {start len : Nat} (hin : start + len ≤ rom.length)
    (hcapacity : 0x15 ≤ start ∨ start + len ≤ 0x14) (hcrc : 0x160 ≤ start ∨ start + len ≤ 0x15E) :
    slice (sealed rom) start len = slice rom start len := by
  rw [slice_sealed_checked h hin, checked, slice_setField (inHeader (fitted_long h)) _ hcrc, fitted,
    slice_setField (inHeader h) _ hcapacity]

/-- The CRC covers the bytes in front of it, the capacity among them. -/
theorem sealed_headerCrc (h : 0x200 ≤ rom.length) :
    field 2 (sealed rom) 0x15E = crc16 (slice (sealed rom) 0 0x15E) := by
  rw [field, slice_sealed_checked h (inHeader h), slice_sealed_checked h (inHeader h)]
  exact checked_crc (fitted_long h)

theorem sealed_capacity (h : 0x200 ≤ rom.length) (hsmall : capacityLoop rom.length 0 < 256) :
    field 1 (sealed rom) 0x14 = capacityLoop rom.length 0 := by
  rw [field, slice_sealed_checked h (inHeader h), checked, slice_setField (inHeader (fitted_long h)) _ (Or.inr (by decide))]
  exact field_setField (inHeader h) hsmall

theorem finish_eq_sealed {args : Args} {table : Option Keytable} {out : List UInt8} (h : 0x200 ≤ rom.length)
    (hrun : finish args table rom = .ok out) :
    out = sealed (keyed args table rom) ∧ capacityLoop (keyed args table rom).length 0 < 256 := by
  have hlong := Nat.le_trans h (keyed_length_le args table h)
  obtain ⟨sized, hcapacity, hout⟩ := ok_of_bind hrun
  cases hout
  obtain ⟨rfl, hsmall⟩ := fixDeviceCapacity_ok hlong hcapacity
  rw [fixHeaderCrc_eq (fitted_long hlong)]
  exact ⟨rfl, hsmall⟩

/-! ## Prepared images -/

/-- What is true of an image written: whole pages, a header that agrees with itself and with the length, and what the
    options ask for. -/
structure Prepared (args : Args) (table : Option Keytable) (rom : List UInt8) : Prop where
  long      : 0x200 ≤ rom.length
  padded    : rom.length % 512 = 0
  headerCrc : field 2 rom 0x15E = crc16 (slice rom 0 0x15E)
  capacity  : IsCapacity rom.length (field 1 rom 0x14)
  unitCode  : args.keepUnitCode = false → field 1 rom 0x12 = 0
  keys      : ∀ t ∈ table, Injected rom t

theorem prepared_of_finish {args : Args} {table : Option Keytable} {out : List UInt8} (h : 0x200 ≤ rom.length)
    (hrun : finish args table rom = .ok out) : Prepared args table out := by
  have hlong := Nat.le_trans h (keyed_length_le args table h)
  obtain ⟨rfl, hsmall⟩ := finish_eq_sealed h hrun
  have hlength := sealed_length hlong
  refine ⟨by omega, by omega, sealed_headerCrc hlong, ?_, ?_, ?_⟩
  · rw [sealed_capacity hlong hsmall]
    exact (isCapacity_capacityLoop _).padded (by omega) (by omega)
  · intro hforce
    rw [field, slice_sealed hlong (inHeader hlong) (Or.inr (by decide)) (Or.inr (by decide)), ← field, field_keyed args table h]
    exact unitCoded_unitCode h hforce
  · intro t ht
    exact (keyed_injected args table rom t ht).congr (by omega) (fun start len hstart hin =>
      slice_sealed hlong hin (Or.inl (by omega)) (Or.inl (by omega)))

/-- The pipeline leaves the secure-area CRC alone. -/
theorem finish_secureCrc {args : Args} {table : Option Keytable} {out : List UInt8} (h : 0x200 ≤ rom.length)
    (hrun : finish args table rom = .ok out) : field 2 out 0x6C = field 2 rom 0x6C := by
  have hlong := Nat.le_trans h (keyed_length_le args table h)
  obtain ⟨rfl, _⟩ := finish_eq_sealed h hrun
  rw [field, slice_sealed hlong (inHeader hlong) (Or.inl (by decide)) (Or.inr (by decide)), ← field,
    field_keyed args table h, unitCoded_secureCrc args h]

/-- A prepared image goes through the pipeline unchanged. -/
theorem finish_of_prepared {args : Args} {table : Option Keytable} (h : Prepared args table rom) :
    finish args table rom = .ok rom := by
  have hunit : unitCoded args rom = rom := by
    rw [unitCoded]
    cases hkeep : args.keepUnitCode with
    | true => rfl
    | false => rw [if_pos (by decide), forceNtrUnitCode, if_pos (h.unitCode hkeep)]
  have hkeyed : keyed args table rom = rom := by
    cases table with
    | none => exact hunit
    | some table => rw [keyed, hunit, (h.keys table rfl).inject]
  have hcapacity : fixDeviceCapacity rom = .ok rom := by
    rw [fixDeviceCapacity, if_pos (h.capacity.unique (isCapacity_capacityLoop rom.length))]
  have hcrc : fixHeaderCrc rom = rom := by
    rw [fixHeaderCrc, if_pos h.headerCrc]
  rw [finish, hkeyed, hcapacity]
  show Except.ok (padToPage (fixHeaderCrc rom)) = .ok rom
  rw [hcrc, padToPage_of_aligned h.padded]

/-! ## Whole runs -/

/-- What the key options choose, and what they do to the image. -/
theorem chooseKeys_cases {args : Args} {table : Option Keytable} {rom' : List UInt8} (h : 0x200 ≤ rom.length)
    (hrun : chooseKeys args rom = .ok (table, rom')) :
    0x200 ≤ rom'.length ∧ (args.noKeys = true → field 2 rom' 0x6C = 0) := by
  rw [chooseKeys] at hrun
  split at hrun
  · cases hrun
    rw [clearSecureAreaCrc_eq h, setField_length (inHeader h)]
    exact ⟨h, fun _ => field_setField (inHeader h) (by decide)⟩
  · rename_i hkeys
    split at hrun
    · split at hrun
      · cases hrun
      · obtain ⟨key, _, hrun⟩ := ok_of_bind hrun
        cases hrun
        exact ⟨h, fun hno => absurd hno hkeys⟩
    · cases hrun

/-- The same options on an image whose secure-area CRC is clear already choose the same keys and change nothing. -/
theorem chooseKeys_again {args : Args} {table : Option Keytable} {rom' out : List UInt8}
    (hrun : chooseKeys args rom = .ok (table, rom')) (hclear : args.noKeys = true → field 2 out 0x6C = 0)
    (path : String) : chooseKeys { args with rom := path } out = .ok (table, out) := by
  rw [chooseKeys] at hrun
  split at hrun
  · rename_i hno
    cases hrun
    rw [chooseKeys, if_pos hno, clearSecureAreaCrc, if_pos (hclear hno)]
  · rename_i hkeys
    rw [chooseKeys, if_neg hkeys]
    split at hrun
    · rename_i file hfile
      simp only [hfile]
      split at hrun
      · cases hrun
      · rename_i hpath
        obtain ⟨key, hload, hrun⟩ := ok_of_bind hrun
        cases hrun
        rw [if_neg hpath, hload]
        rfl
    · cases hrun

/-- How an image that is written came about. -/
theorem main_ok {args : Args} {out : List UInt8} (hrun : main args rom = .ok out) :
    0x200 ≤ rom.length ∧ ∃ table chosen moved, chooseKeys args rom = .ok (table, chosen) ∧ 0x200 ≤ moved.length ∧
      (args.relocate = false → moved = chosen) ∧ finish args table moved = .ok out := by
  have hlong : 0x200 ≤ rom.length := by
    by_contra hshort
    rw [main_refused (Nat.not_le.mp hshort)] at hrun
    cases hrun
  rw [main_eq hlong] at hrun
  obtain ⟨⟨table, chosen⟩, hkeys, hrun⟩ := ok_of_bind hrun
  obtain ⟨moved, hmove, hfinish⟩ := ok_of_bind hrun
  have hchosen := (chooseKeys_cases hlong hkeys).1
  refine ⟨hlong, table, chosen, moved, hkeys, ?_, ?_, hfinish⟩
  · split at hmove
    · cases hrelocate : relocatePastSecureArea chosen with
      | error e =>
        rw [hrelocate] at hmove
        cases hmove
      | ok moves =>
        rw [hrelocate] at hmove
        cases hmove
        exact relocate_length hchosen hrelocate
    · cases hmove
      exact hchosen
  · intro hstay
    rw [hstay, if_neg (by decide)] at hmove
    cases hmove
    rfl

/-- Without relocation an image is written when the keys can be had and a chip of some size holds it. -/
theorem main_writes {args : Args} {table : Option Keytable} {chosen : List UInt8} (h : 0x200 ≤ rom.length)
    (hstay : args.relocate = false) (hkeys : chooseKeys args rom = .ok (table, chosen))
    (hfits : (keyed args table chosen).length ≤ (128 * 1024) <<< 255) : ∃ out, main args rom = .ok out := by
  have hsmall : capacityLoop (keyed args table chosen).length 0 < 256 :=
    Nat.lt_succ_of_le ((isCapacity_capacityLoop _).2 255 hfits)
  have hcapacity : ∃ fitted, fixDeviceCapacity (keyed args table chosen) = .ok fitted := by
    by_cases hsame : field 1 (keyed args table chosen) 0x14 = capacityLoop (keyed args table chosen).length 0
    · exact ⟨_, by rw [fixDeviceCapacity, if_pos hsame]⟩
    · exact ⟨_, by rw [fixDeviceCapacity, if_neg hsame, if_pos hsmall]⟩
  obtain ⟨fitted, hfitted⟩ := hcapacity
  refine ⟨padToPage (fixHeaderCrc fitted), ?_⟩
  rw [main_eq h, hkeys]
  have hmove : (if args.relocate then Prod.fst <$> relocatePastSecureArea chosen else .ok chosen) = .ok chosen := by
    rw [hstay]
    rfl
  show ((if args.relocate then Prod.fst <$> relocatePastSecureArea chosen else .ok chosen) >>= fun moved =>
    finish args table moved) = _
  rw [hmove]
  show finish args table chosen = _
  rw [finish, hfitted]
  rfl

theorem main_writes_noKeys {args : Args} (hno : args.noKeys = true) (hstay : args.relocate = false)
    (h : 0x200 ≤ rom.length) (hfits : rom.length ≤ (128 * 1024) <<< 255) : ∃ out, main args rom = .ok out := by
  have hkeys : chooseKeys args rom = .ok (none, clearSecureAreaCrc rom) := by rw [chooseKeys, if_pos hno]
  have hcleared := clearSecureAreaCrc_length h
  have hkeyed : (keyed args none (clearSecureAreaCrc rom)).length = rom.length := by
    rw [keyed, unitCoded_length args (by rw [hcleared]; exact h), hcleared]
  exact main_writes h hstay hkeys (by rw [hkeyed]; exact hfits)

/-- **The image written is consistent.** It is a whole number of pages, its header CRC is the CRC of its header, its
    capacity code is the least that covers it, its unit code is clear unless it was to be kept, and without relocation
    the tool run on its own output writes that output again. -/
theorem main_output_consistent (args : Args) (rom out : List UInt8) (hrun : main args rom = .ok out) :
    out.length % 512 = 0 ∧
      field 2 out 0x15E = crc16 (slice out 0 0x15E) ∧
      out.length ≤ (128 * 1024) <<< field 1 out 0x14 ∧
      (∀ c, out.length ≤ (128 * 1024) <<< c → field 1 out 0x14 ≤ c) ∧
      (args.keepUnitCode = false → field 1 out 0x12 = 0) ∧
      (args.relocate = false → ∀ path, main { args with rom := path } out = .ok out) := by
  obtain ⟨hlong, table, chosen, moved, hkeys, hmoved, hstays, hfinish⟩ := main_ok hrun
  have hprepared := prepared_of_finish hmoved hfinish
  refine ⟨hprepared.padded, hprepared.headerCrc, hprepared.capacity.1, hprepared.capacity.2, hprepared.unitCode, ?_⟩
  intro hstay path
  have hclear : args.noKeys = true → field 2 out 0x6C = 0 := by
    intro hno
    rw [finish_secureCrc hmoved hfinish, hstays hstay]
    exact (chooseKeys_cases hlong hkeys).2 hno
  have hagain := chooseKeys_again hkeys hclear path
  have hsame : Prepared { args with rom := path } table out :=
    ⟨hprepared.long, hprepared.padded, hprepared.headerCrc, hprepared.capacity, hprepared.unitCode, hprepared.keys⟩
  have hmove : (if args.relocate then Prod.fst <$> relocatePastSecureArea out else .ok out) = .ok out := by
    rw [hstay]
    rfl
  rw [main_eq hprepared.long, hagain]
  show ((if args.relocate then Prod.fst <$> relocatePastSecureArea out else .ok out) >>= fun moved =>
    finish { args with rom := path } table moved) = _
  rw [hmove]
  exact finish_of_prepared hsame

/-- An image one byte past the smallest chip, without keys. -/
theorem main_output_consistent_noKeys :
    ∃ out, main { rom := "in.nds", noKeys := true } (List.replicate 131073 0) = .ok out ∧
      out.length % 512 = 0 ∧ field 2 out 0x15E = crc16 (slice out 0 0x15E) ∧
      main { rom := "out.nds", noKeys := true } out = .ok out := by
  have hlen : (List.replicate 131073 (0 : UInt8)).length = 131073 := List.length_replicate
  obtain ⟨out, hrun⟩ := @main_writes_noKeys (List.replicate 131073 0) { rom := "in.nds", noKeys := true } rfl rfl
    (by rw [hlen]; decide) (by rw [hlen]; decide)
  obtain ⟨hpadded, hcrc, _, _, _, hagain⟩ := main_output_consistent _ _ out hrun
  exact ⟨out, hrun, hpadded, hcrc, hagain rfl "out.nds"⟩

end RomTool

end GekkoPak
