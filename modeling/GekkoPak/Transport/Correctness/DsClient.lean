import GekkoPak.Device.Correctness.FirstFit
import GekkoPak.Device.Correctness.Staging
import GekkoPak.Device.Transfers
import GekkoPak.Transport.Correctness.Commands
import GekkoPak.Transport.DsClient

/-!
# `Transport.Correctness.DsClient` — the DS client end to end

Two questions about the client of `Transport.DsClient`. On a bus that delivers, what does `gpk_upload` do to the device:
every transaction is one wire operation (`delivers_*`), the words it sends hold the bytes (`holds_uploadWords`), and the
rest is what `Device.Correctness.Staging` says of a staged upload. On a bus that may answer anything, when is what
`gpk_read_reg` returns an answer at all.
-/

namespace GekkoPak

open Basis

/-! ## Words and bytes -/

theorem leNat_replicate_zero (n : Nat) : leNat (List.replicate n 0) = 0 := by
  induction n with
  | zero => rfl
  | succ n ih =>
    rw [List.replicate_succ, leNat, ih]
    rfl

/-- A word filled from its low end: the bytes, then zeros. -/
theorem le32_ofLe32_short {bs : List UInt8} (h : bs.length ≤ 4) :
    le32 (ofLe32 bs) = bs ++ List.replicate (4 - bs.length) 0 := by
  have hsame : ofLe32 bs = ofLe32 (bs ++ List.replicate (4 - bs.length) 0) := by
    unfold ofLe32
    rw [leNat_append, leNat_replicate_zero, Nat.mul_zero, Nat.add_zero]
  rw [hsame, le32_ofLe32]
  rw [List.length_append, List.length_replicate]
  omega

namespace NtrBus

/-- The words `gpk_upload` sends for `d`, from word `i` on. -/
def uploadWords (d : List UInt8) (i n : Nat) : List UInt32 := (List.range' i n).map (uploadWord d d.length)

theorem prefix_uploadWords (d : List UInt8) :
    ∀ (n i : Nat), d.length ≤ 4 * (i + n) → d.drop (4 * i) <+: (uploadWords d i n).flatMap le32 := by
  -- on the words left; word `i` takes the bytes from `4 * i` on
  intro n
  induction n with
  | zero =>
    intro i hle
    rw [List.drop_eq_nil_of_le (by omega)]
    exact List.nil_prefix
  | succ n ih =>
    intro i hle
    have hrest := ih (i + 1) (by omega)
    have hwords : (uploadWords d i (n + 1)).flatMap le32 =
        le32 (uploadWord d d.length i) ++ (uploadWords d (i + 1) n).flatMap le32 := rfl
    rw [hwords]
    by_cases hfull : d.length - i * 4 ≥ 4
    · have hword : le32 (uploadWord d d.length i) = slice d (4 * i) 4 := by
        simp only [uploadWord, if_pos hfull]
        rw [Nat.mul_comm i 4]
        exact le32_ofLe32 (slice_length (by omega))
      have hsplit : d.drop (4 * i) = slice d (4 * i) 4 ++ d.drop (4 * (i + 1)) := by
        unfold slice
        rw [Nat.mul_succ, ← List.drop_drop, List.take_append_drop]
      rw [hword, hsplit]
      exact (List.prefix_append_right_inj _).mpr hrest
    · -- the last word: what is left, padded with zeros
      have hall : slice d (i * 4) (d.length - i * 4) = d.drop (4 * i) := by
        unfold slice
        rw [Nat.mul_comm i 4]
        exact List.take_of_length_le (by rw [List.length_drop])
      have hword : le32 (uploadWord d d.length i) =
          d.drop (4 * i) ++ List.replicate (4 - (d.drop (4 * i)).length) 0 := by
        simp only [uploadWord, if_neg hfull]
        rw [hall]
        exact le32_ofLe32_short (by rw [List.length_drop]; omega)
      rw [hword, List.append_assoc]
      exact List.prefix_append _ _

theorem holds_uploadWords (d : List UInt8) : Device.Holds (uploadWords d 0 ((d.length + 3) / 4)) d := by
  constructor
  · rw [uploadWords, List.length_map, List.length_range']
  · have h := prefix_uploadWords d ((d.length + 3) / 4) 0 (by omega)
    rw [Nat.mul_zero, List.drop_zero] at h
    exact h

/-! ## Every transaction is one wire operation -/

/-- The eight bytes the device gets are the header. -/
theorem commandOf_registers (io : Mem) (opcode index : UInt8) (word : UInt32) :
    commandOf ((gpkWriteCommand io opcode index word).read regMccmd0 8) = encodeCommand opcode index word := by
  rw [gpkWriteCommand_read, commandOf_toList]

/-- What reaches the device of a command without a data phase. -/
theorem gpkCmdNone_device (b : CardBus) (opcode index : UInt8) (word : UInt32) :
    (deviceBus.gpkCmdNone b opcode index word).device =
      (coreIssue b.device (encodeCommand opcode index word) none none).1 := by
  show (coreIssue b.device (commandOf _) none none).1 = _
  rw [commandOf_registers]

section Delivers

variable {s : Device} {b : CardBus}

theorem delivers_writeReg (h : Device.SameCore s b.device) (index : UInt8) (value : UInt32) :
    Device.SameCore (s.step (.writeReg index value)).1 (deviceBus.gpkWriteReg b index value).device := by
  have hstep := (h.countTransfer.step (.writeReg index value)).1
  unfold gpkWriteReg
  rw [gpkCmdNone_device, coreIssue, decodeCommand_encodeCommand]
  exact hstep

theorem delivers_payloadWord (h : Device.SameCore s b.device) (index : UInt8) (value : UInt32) :
    Device.SameCore (s.step (.writePayloadWord index value)).1 (deviceBus.gpkPayloadWord b index value).device := by
  have hstep := (h.countTransfer.step (.writePayloadWord index value)).1
  unfold gpkPayloadWord
  rw [gpkCmdNone_device, coreIssue, decodeCommand_encodeCommand]
  exact hstep

theorem delivers_readOnce (h : Device.SameCore s b.device) (index : UInt8) :
    Device.SameCore s (deviceBus.readOnce b index).1.device ∧ (deviceBus.readOnce b index).2 = s.readReg index := by
  have hvalue : b.device.readReg index = s.readReg index := by
    obtain ⟨n, hn⟩ := h
    rw [hn]
    rfl
  have hread : deviceBus.readOnce b index =
      (⟨gpkWriteCommand b.io WireOpcode.readReg.code index 0,
        (coreIssue b.device (encodeCommand WireOpcode.readReg.code index 0) none (some 4)).1⟩,
        ofLe32 (coreIssue b.device (encodeCommand WireOpcode.readReg.code index 0) none (some 4)).2.response) := by
    rw [← commandOf_registers b.io]
    rfl
  have hcore : coreIssue b.device (encodeCommand WireOpcode.readReg.code index 0) none (some 4) =
      (b.device.countTransfer, ⟨true, splice (List.replicate 4 0) 0 (le32 (b.device.readReg index))⟩) := by
    rw [coreIssue, decodeCommand_encodeCommand]
    rfl
  rw [hread, hcore]
  refine ⟨h.countTransfer, ?_⟩
  show ofLe32 (splice (List.replicate 4 0) 0 (le32 (b.device.readReg index))) = _
  rw [splice_all (by rw [le32_length]; decide), ofLe32_le32, hvalue]

/-- Every answer is the register, so the loop returns it, whichever way it ends. -/
theorem delivers_agreeLoop (index : UInt8) : ∀ (turns : Nat) {b : CardBus}, Device.SameCore s b.device →
    Device.SameCore s (deviceBus.agreeLoop index turns b (s.readReg index)).1.device ∧
      (deviceBus.agreeLoop index turns b (s.readReg index)).2 = s.readReg index := by
  intro turns
  induction turns with
  | zero => intro b h; exact ⟨h, rfl⟩
  | succ turns ih =>
    intro b h
    obtain ⟨hnext, hvalue⟩ := delivers_readOnce h index
    simp only [agreeLoop, hvalue]
    split
    · exact ⟨hnext, rfl⟩
    · exact ih hnext

theorem delivers_readReg (h : Device.SameCore s b.device) (index : UInt8) :
    Device.SameCore s (deviceBus.gpkReadReg b index).1.device ∧ (deviceBus.gpkReadReg b index).2 = s.readReg index := by
  obtain ⟨hnext, hvalue⟩ := delivers_readOnce h index
  simp only [gpkReadReg, hvalue]
  exact delivers_agreeLoop index 6 hnext

theorem delivers_exec (h : Device.SameCore s b.device) (command : UInt8) :
    Device.SameCore (s.step (.exec command 0)).1 (deviceBus.gpkExec b command).device := by
  have hcmd : (deviceBus.gpkCmdNone b WireOpcode.exec.code command 0).device =
      (b.device.countTransfer.step (.exec command 0)).1 := by
    rw [gpkCmdNone_device, coreIssue, decodeCommand_encodeCommand]
    rfl
  have hstep := (h.countTransfer.step (.exec command 0)).1
  rw [← hcmd] at hstep
  unfold gpkExec
  exact (delivers_readReg hstep gpkRegResult).1

/-- The word loop fills the payload window. -/
theorem delivers_uploadLoop (config : Config) (d : List UInt8) : ∀ (n i : Nat) {s : Device} {b : CardBus},
    Device.SameCore s b.device →
    Device.SameCore ((Device.machine config).runFrom s (Device.payloadOps i (uploadWords d i n)))
      (deviceBus.uploadLoop d d.length n i b).device := by
  intro n
  induction n with
  | zero => intro i s b h; exact h
  | succ n ih =>
    intro i s b h
    exact ih (i + 1) (delivers_payloadWord h (UInt8.ofNat i) (uploadWord d d.length i))

end Delivers

/-- Everything `gpk_upload` sends, up to its reads of RESULT and OUT1. -/
def uploadSent (b : CardBus) (handle : UInt32) (d : List UInt8) : CardBus :=
  let b := deviceBus.uploadLoop d d.length ((d.length + 3) / 4) 0 b
  let b := deviceBus.gpkWriteReg b gpkRegArg0 handle
  let b := deviceBus.gpkWriteReg b gpkRegArg1 0
  let b := deviceBus.gpkWriteReg b gpkRegPayloadLen (UInt32.ofNat d.length)
  deviceBus.gpkExec b gpkCmdUpload

/-- With `kOk` in RESULT, OUT1 is returned. -/
theorem gpkUpload_eq {b : CardBus} {handle : UInt32} {d : List UInt8} (hd : d.length ≤ 1024)
    (hok : (deviceBus.gpkReadReg (uploadSent b handle d) gpkRegResult).2 = gpkOk) :
    deviceBus.gpkUpload b handle d (UInt32.ofNat d.length) =
      deviceBus.gpkReadReg (deviceBus.gpkReadReg (uploadSent b handle d) gpkRegResult).1 gpkRegOut1 := by
  have hlen : (UInt32.ofNat d.length).toNat = d.length :=
    UInt32.toNat_ofNat_of_lt' (by simp only [UInt32.size]; omega)
  have hwords : ((UInt32.ofNat d.length + 3) / 4).toNat = (d.length + 3) / 4 := by
    rw [UInt32.toNat_div, UInt32.toNat_add, hlen, show (3 : UInt32).toNat = 3 from rfl,
      show (4 : UInt32).toNat = 4 from rfl, Nat.mod_eq_of_lt (by omega)]
  simp only [gpkUpload, hwords, hlen]
  exact if_neg (not_not.mpr hok)

/-- To the device it is a staged upload at offset 0. -/
theorem delivers_uploadSent (b : CardBus) (handle : UInt32) (d : List UInt8) :
    Device.SameCore ((Device.machine b.device.config).runFrom b.device
      (Device.stagedUpload (uploadWords d 0 ((d.length + 3) / 4)) handle 0 (UInt32.ofNat d.length) 0))
      (uploadSent b handle d).device := by
  have hloop := delivers_uploadLoop b.device.config d ((d.length + 3) / 4) 0 (Device.SameCore.refl b.device)
  have hregs := delivers_writeReg (delivers_writeReg (delivers_writeReg hloop gpkRegArg0 handle) gpkRegArg1 0)
    gpkRegPayloadLen (UInt32.ofNat d.length)
  have hexec := delivers_exec hregs gpkCmdUpload
  unfold Device.stagedUpload
  rw [Machine.runFrom_append]
  exact hexec

/-- **What `gpk_upload` does to the device**: the bytes at the start of the buffer, the mark at their end, their hash
    returned, and two accesses to the pool, both to those bytes. -/
theorem gpkUpload_spec {b : CardBus} {i : Fin kMaxAllocations} {handle : UInt32} {d : List UInt8}
    (hslot : b.device.allocationForHandle handle = some i) (hd : d.length ≤ 1024)
    (hsize : d.length ≤ (b.device.allocations i).size.toNat) (hmark : (b.device.allocations i).uploaded.toNat ≤ d.length) :
    (deviceBus.gpkUpload b handle d (UInt32.ofNat d.length)).1.device.pool =
      b.device.pool.write (b.device.allocations i).offset.toNat d ∧
    (deviceBus.gpkUpload b handle d (UInt32.ofNat d.length)).1.device.allocations =
      Function.update b.device.allocations i { b.device.allocations i with uploaded := UInt32.ofNat d.length } ∧
    (deviceBus.gpkUpload b handle d (UInt32.ofNat d.length)).2 = fnv1a d ∧
    (deviceBus.gpkUpload b handle d (UInt32.ofNat d.length)).1.device.trace = b.device.trace ++
      List.replicate 2 (.access handle (b.device.allocations i).offset.toNat d.length) := by
  have hlen : (UInt32.ofNat d.length).toNat = d.length :=
    UInt32.toNat_ofNat_of_lt' (by simp only [UInt32.size]; omega)
  have hzero : (0 : UInt32) + UInt32.ofNat d.length = UInt32.ofNat d.length := UInt32.zero_add _
  have hmax : Device.max32 (b.device.allocations i).uploaded (UInt32.ofNat d.length) = UInt32.ofNat d.length := by
    apply UInt32.toNat_inj.mp
    rw [Device.max32_toNat, hlen]
    omega
  have hsent := delivers_uploadSent b handle d
  have hfit : (0 : UInt32).toNat + d.length ≤ (b.device.allocations i).size.toNat := by
    rw [show (0 : UInt32).toNat = 0 from rfl, Nat.zero_add]
    exact hsize
  obtain ⟨stage, payload, hu, hok, hout⟩ := Device.run_stagedUpload b.device.config hslot hd hlen hfit
    (holds_uploadWords d) 0
  rw [hzero, hmax, hlen] at hu hout
  rw [hu] at hsent
  obtain ⟨hcore, hresult⟩ := delivers_readReg hsent gpkRegResult
  obtain ⟨hcore', hsum⟩ := delivers_readReg hcore gpkRegOut1
  have hgood : (deviceBus.gpkReadReg (uploadSent b handle d) gpkRegResult).2 = gpkOk := hresult.trans hok
  rw [gpkUpload_eq hd hgood]
  obtain ⟨n, hn⟩ := hcore'
  rw [hn, hsum]
  refine ⟨rfl, ?_, ?_, List.append_assoc _ _ _⟩
  · show Function.update b.device.allocations i { b.device.allocations i with
      uploaded := Device.max32 (b.device.allocations i).uploaded (0 + UInt32.ofNat d.length) } = _
    rw [hzero, hmax]
  · show stage kOut1 = fnv1a d
    rw [hout]
    show fnv1a ((b.device.pool.write _ d).read _ d.length) = fnv1a d
    rw [show (0 : UInt32).toNat = 0 from rfl, Nat.add_zero, Mem.read_write_same]

/-! ## `gpk_upload` -/

/-- Between `s` and `t` the device touched no byte behind the end of its pool. -/
def KeptToPool (s t : Device) : Prop :=
  ∀ handle start len, .access handle start len ∈ t.trace.drop s.trace.length →
    ∀ a, start ≤ a → a < start + len → a < s.config.poolBytes.toNat

/-- What is asked of `gpk_upload(handle, d, |d|)` on the buffer in slot `i`: it keeps to the pool, the bytes are at the
    start of the buffer, every other live buffer is as it was, and the hash of the bytes is returned. -/
def UploadTransparent (b : CardBus) (i : Fin kMaxAllocations) (handle : UInt32) (d : List UInt8) : Prop :=
  let done := deviceBus.gpkUpload b handle d (UInt32.ofNat d.length)
  KeptToPool b.device done.1.device ∧
  done.1.device.pool.read (b.device.allocations i).offset.toNat d.length = d ∧
  (∀ j, j ≠ i → (b.device.allocations j).live = true →
    done.1.device.allocations j = b.device.allocations j ∧
    done.1.device.bufferOf (done.1.device.allocations j) = b.device.bufferOf (b.device.allocations j)) ∧
  done.2 = fnv1a d

/-- Every byte that `d` is going to overwrite is in the pool. -/
def InPool (s : Device) (i : Fin kMaxAllocations) (d : List UInt8) : Prop :=
  ∀ k < d.length, (s.allocations i).offset.toNat + k < s.config.poolBytes.toNat

/-- No byte that `d` is going to overwrite belongs to another live buffer, unless it is overwritten with itself. -/
def OthersClear (s : Device) (i : Fin kMaxAllocations) (d : List UInt8) : Prop :=
  ∀ j, j ≠ i → (s.allocations j).live = true → ∀ k < d.length,
    (s.allocations j).offset.toNat ≤ (s.allocations i).offset.toNat + k →
    (s.allocations i).offset.toNat + k < (s.allocations j).offset.toNat + (s.allocations j).size.toNat →
    d[k]? = some (s.pool ((s.allocations i).offset.toNat + k))

/-- A write leaves a window alone iff the bytes it puts there stood there. -/
theorem read_write_eq_iff {m : Mem} {start off len : Nat} {d : List UInt8} :
    (m.write off d).read start len = m.read start len ↔
      ∀ k < d.length, start ≤ off + k → off + k < start + len → d[k]? = some (m (off + k)) := by
  rw [Mem.read_eq_iff]
  constructor
  · intro h k hk hlow hhigh
    have hbyte := h (off + k) hlow hhigh
    rw [Mem.write_apply, if_pos (Nat.le_add_right off k), Nat.add_sub_cancel_left,
      List.getElem?_eq_getElem hk, Option.getD_some] at hbyte
    rw [List.getElem?_eq_getElem hk, hbyte]
  · intro h a hlow hhigh
    by_cases hin : off ≤ a ∧ a < off + d.length
    · have hbyte := h (a - off) (by omega) (by omega) (by omega)
      rw [show off + (a - off) = a by omega] at hbyte
      rw [Mem.write_apply, if_pos hin.1, hbyte, Option.getD_some]
    · exact Mem.write_of_outside (by omega)

/-- The call keeps to the pool iff the place of the bytes is in it. -/
theorem keptToPool_iff {b : CardBus} {i : Fin kMaxAllocations} {handle : UInt32} {d : List UInt8}
    (hslot : b.device.allocationForHandle handle = some i) (hd : d.length ≤ 1024)
    (hsize : d.length ≤ (b.device.allocations i).size.toNat) (hmark : (b.device.allocations i).uploaded.toNat ≤ d.length) :
    KeptToPool b.device (deviceBus.gpkUpload b handle d (UInt32.ofNat d.length)).1.device ↔ InPool b.device i d := by
  obtain ⟨-, -, -, htrace⟩ := gpkUpload_spec hslot hd hsize hmark
  unfold KeptToPool InPool
  rw [htrace, List.drop_left]
  constructor
  · intro h k hk
    exact h handle _ _ List.mem_cons_self _ (Nat.le_add_right _ _) (Nat.add_lt_add_left hk _)
  · intro h _ start len hmem a hlow hhigh
    obtain ⟨-, rfl, rfl⟩ := Event.access.inj (List.eq_of_mem_replicate hmem)
    have hbyte := h (a - (b.device.allocations i).offset.toNat) (by omega)
    omega

theorem uploadTransparent_iff {b : CardBus} {i : Fin kMaxAllocations} {handle : UInt32} {d : List UInt8}
    (hslot : b.device.allocationForHandle handle = some i) (hd : d.length ≤ 1024)
    (hsize : d.length ≤ (b.device.allocations i).size.toNat) (hmark : (b.device.allocations i).uploaded.toNat ≤ d.length) :
    UploadTransparent b i handle d ↔ InPool b.device i d ∧ OthersClear b.device i d := by
  obtain ⟨hpool, htable, hsum, -⟩ := gpkUpload_spec hslot hd hsize hmark
  have hkept := keptToPool_iff hslot hd hsize hmark
  have hentry : ∀ j, j ≠ i → (deviceBus.gpkUpload b handle d (UInt32.ofNat d.length)).1.device.allocations j =
      b.device.allocations j := by
    intro j hj
    rw [htable, Function.update_of_ne hj]
  have hbuffer : ∀ j, j ≠ i → ((deviceBus.gpkUpload b handle d (UInt32.ofNat d.length)).1.device.bufferOf
      ((deviceBus.gpkUpload b handle d (UInt32.ofNat d.length)).1.device.allocations j) =
      b.device.bufferOf (b.device.allocations j) ↔ ∀ k < d.length,
        (b.device.allocations j).offset.toNat ≤ (b.device.allocations i).offset.toNat + k →
        (b.device.allocations i).offset.toNat + k <
          (b.device.allocations j).offset.toNat + (b.device.allocations j).size.toNat →
        d[k]? = some (b.device.pool ((b.device.allocations i).offset.toNat + k))) := by
    intro j hj
    rw [← read_write_eq_iff, hentry j hj]
    unfold Device.bufferOf
    rw [hpool]
    exact ⟨fun h => congrArg Buffer.bytes h, fun h => by rw [h]⟩
  constructor
  · rintro ⟨hin, -, hothers, -⟩
    exact ⟨hkept.mp hin, fun j hj hlive => (hbuffer j hj).mp (hothers j hj hlive).2⟩
  · rintro ⟨hin, hclear⟩
    refine ⟨hkept.mpr hin, ?_, fun j hj hlive => ⟨hentry j hj, (hbuffer j hj).mpr (hclear j hj hlive)⟩, hsum⟩
    rw [hpool, Mem.read_write_same]

/-- As long as every ALLOC of the run fitted in 32 bits, live buffers lie in the pool. -/
theorem inPool_of_allocsFit {config : Config} {ops : List WireOp} (hfits : Device.AllocsFit config ops)
    {s : Device} (hs : Device.SameCore (Device.after config ops) s) {i : Fin kMaxAllocations}
    (hlive : (s.allocations i).live = true) {d : List UInt8} (hsize : d.length ≤ (s.allocations i).size.toNat) :
    InPool s i d := by
  obtain ⟨n, rfl⟩ := hs
  obtain ⟨hbytes, hinv⟩ := Device.sound_of_allocsFit hfits
  intro k hk
  have hend : ((Device.after config ops).allocations i).offset.toNat +
      ((Device.after config ops).allocations i).size.toNat ≤ config.poolBytes.toNat := (hinv.valid i hlive).in_pool
  show _ < (Device.after config ops).config.poolBytes.toNat
  rw [hbytes]
  simp only [Device.withTransfers_allocations] at hsize ⊢
  omega

/-- Nor do they share bytes. -/
theorem othersClear_of_allocsFit {config : Config} {ops : List WireOp} (hfits : Device.AllocsFit config ops)
    {s : Device} (hs : Device.SameCore (Device.after config ops) s) {i : Fin kMaxAllocations}
    (hlive : (s.allocations i).live = true) {d : List UInt8} (hsize : d.length ≤ (s.allocations i).size.toNat) :
    OthersClear s i d := by
  obtain ⟨n, rfl⟩ := hs
  obtain ⟨-, hinv⟩ := Device.sound_of_allocsFit hfits
  intro j hj hlive' k hk hlow hhigh
  -- byte `k` of the upload would lie in both
  rcases hinv.apart i j (Ne.symm hj) hlive hlive' with hbefore | hbehind
  · have hend : ((Device.after config ops).allocations i).offset.toNat +
        ((Device.after config ops).allocations i).size.toNat ≤
        ((Device.after config ops).allocations j).offset.toNat := hbefore
    simp only [Device.withTransfers_allocations] at hsize hlow
    omega
  · have hend : ((Device.after config ops).allocations j).offset.toNat +
        ((Device.after config ops).allocations j).size.toNat ≤
        ((Device.after config ops).allocations i).offset.toNat := hbehind
    simp only [Device.withTransfers_allocations] at hhigh
    omega

/-- **When `gpk_upload` is transparent.** On a bus that delivers, for a live handle whose buffer holds the bytes and has
    its mark at or below their end: the bytes arrive at the start of the buffer, every other live buffer stays, and
    their hash is returned, and nothing behind the pool is touched, iff the bytes' place is in the pool and no other
    live buffer has a byte there that changes. In a device all of whose ALLOCs fitted in 32 bits that is so. -/
theorem gpk_upload_transparent_iff (b : CardBus) (i : Fin kMaxAllocations) (handle : UInt32) (d : List UInt8)
    (hslot : b.device.allocationForHandle handle = some i) (hd : d.length ≤ 1024)
    (hsize : d.length ≤ (b.device.allocations i).size.toNat) (hmark : (b.device.allocations i).uploaded.toNat ≤ d.length) :
    (UploadTransparent b i handle d ↔ InPool b.device i d ∧ OthersClear b.device i d) ∧
    ∀ (config : Config) (ops : List WireOp), Device.AllocsFit config ops →
      Device.SameCore (Device.after config ops) b.device → UploadTransparent b i handle d := by
  refine ⟨uploadTransparent_iff hslot hd hsize hmark, fun config ops hfits hb => ?_⟩
  have hlive := (Device.allocationForHandle_some hslot).2
  exact (uploadTransparent_iff hslot hd hsize hmark).mpr
    ⟨inPool_of_allocsFit hfits hb hlive hsize, othersClear_of_allocsFit hfits hb hlive hsize⟩

/-- Five bytes into a fresh buffer of a device with a small pool. -/
theorem gpk_upload_transparent_partial :
    let config : Config := { hasPool := true, poolBytes := 65536 }
    let ops : List WireOp := [.writeReg 0 16, .exec HighCommand.alloc.code 0]
    UploadTransparent ⟨Mem.zero, Device.after config ops⟩ 0 1 [1, 2, 3, 4, 5] := by
  intro config ops
  exact (gpk_upload_transparent_iff ⟨Mem.zero, Device.after config ops⟩ 0 1 [1, 2, 3, 4, 5] (by decide +kernel)
    (by decide) (by decide +kernel) (by decide +kernel)).2 config ops (Device.allocsFit_of_small (by decide) ops)
    (Device.SameCore.refl _)

/-- Almost 4 GiB of pool, and three ALLOCs: the second and the third wrap, and are both granted at 0x60000000. -/
def sharedPool : Device :=
  Device.after { hasPool := true, poolBytes := 0xFFFFFFFC }
    [.writeReg 0 0x60000000, .exec HighCommand.alloc.code 0,
     .writeReg 0 0xC0000000, .exec HighCommand.alloc.code 0, .exec HighCommand.alloc.code 0]

/-- A byte uploaded to the second appears in the third. -/
theorem gpk_upload_shared :
    sharedPool.allocationForHandle 2 = some 1 ∧ 1 ≤ (sharedPool.allocations 1).size.toNat ∧
    (sharedPool.allocations 1).uploaded.toNat ≤ 1 ∧ ¬ UploadTransparent ⟨Mem.zero, sharedPool⟩ 1 2 [1] := by
  have hslot : sharedPool.allocationForHandle 2 = some 1 := by decide +kernel
  have hsize : 1 ≤ (sharedPool.allocations 1).size.toNat := by decide +kernel
  have hmark : (sharedPool.allocations 1).uploaded.toNat ≤ 1 := by decide +kernel
  refine ⟨hslot, hsize, hmark, ?_⟩
  rw [uploadTransparent_iff (b := ⟨Mem.zero, sharedPool⟩) (d := [1]) hslot (by decide) hsize hmark]
  rintro ⟨-, hclear⟩
  have hbyte := hclear 2 (by decide) (by decide +kernel) 0 (by decide) (by decide +kernel) (by decide +kernel)
  exact absurd hbyte (by decide +kernel)

/-- Half of 4 GiB of pool, asked for twice: the second grant wraps, and starts where the pool ends. -/
def pastPool : Device :=
  Device.after { hasPool := true, poolBytes := 0x80000000 }
    [.writeReg 0 0x80000000, .exec HighCommand.alloc.code 0, .exec HighCommand.alloc.code 0]

example : ¬ UploadTransparent ⟨Mem.zero, pastPool⟩ 1 2 [1] := by
  have hslot : pastPool.allocationForHandle 2 = some 1 := by decide +kernel
  have hsize : 1 ≤ (pastPool.allocations 1).size.toNat := by decide +kernel
  have hmark : (pastPool.allocations 1).uploaded.toNat ≤ 1 := by decide +kernel
  rw [uploadTransparent_iff (b := ⟨Mem.zero, pastPool⟩) (d := [1]) hslot (by decide) hsize hmark]
  rintro ⟨hin, -⟩
  exact absurd (hin 0 (by decide)) (by decide +kernel)

/-! ## `gpk_read_reg` on a bus that may answer anything -/

section Scripted

variable (answers : Nat → UInt32)

/-- `v` is not what an undriven bus reads as, and was answered by two consecutive transactions among the `n`-th to the
    one before the `m`-th. -/
def Agreed (n m : Nat) (v : UInt32) : Prop :=
  v ≠ allOnes ∧ ∃ k, n ≤ k ∧ k + 1 < m ∧ answers k = v ∧ answers (k + 1) = v

/-- Two consecutive answers of the seven from the `n`-th on are the same and not all ones. -/
def Settles (n : Nat) : Prop := ∃ k < 6, answers (n + k) = answers (n + k + 1) ∧ answers (n + k) ≠ allOnes

/-- How many transactions are over when a `gpk_read_reg` that started at the `n`-th returns. -/
def afterRead (n : Nat) : Nat := ((scriptedBus answers).gpkReadReg n gpkRegResult).1

/-- **The loop stops at the first agreement, or at the end.** -/
theorem agreeLoop_cases (index : UInt8) : ∀ (turns p : Nat),
    (∃ k, p ≤ k ∧ k < p + turns ∧ answers k = answers (k + 1) ∧ answers k ≠ allOnes ∧
      (scriptedBus answers).agreeLoop index turns (p + 1) (answers p) = (k + 2, answers k)) ∨
    ((∀ k, p ≤ k → k < p + turns → answers k = answers (k + 1) → answers k = allOnes) ∧
      (scriptedBus answers).agreeLoop index turns (p + 1) (answers p) = (p + turns + 1, answers (p + turns))) := by
  intro turns
  induction turns with
  | zero =>
    intro p
    exact Or.inr ⟨fun k hlow hhigh => absurd hhigh (by omega), rfl⟩
  | succ turns ih =>
    intro p
    have hturn : (scriptedBus answers).agreeLoop index (turns + 1) (p + 1) (answers p) =
        if answers (p + 1) = answers p ∧ answers (p + 1) ≠ allOnes then (p + 2, answers (p + 1))
        else (scriptedBus answers).agreeLoop index turns (p + 1 + 1) (answers (p + 1)) := rfl
    by_cases hagree : answers (p + 1) = answers p ∧ answers (p + 1) ≠ allOnes
    · rw [hturn, if_pos hagree, hagree.1]
      exact Or.inl ⟨p, Nat.le_refl p, by omega, hagree.1.symm, hagree.1 ▸ hagree.2, rfl⟩
    · rw [hturn, if_neg hagree]
      rcases ih (p + 1) with ⟨k, hlow, hhigh, hsame, hones, heq⟩ | ⟨hnone, heq⟩
      · exact Or.inl ⟨k, by omega, by omega, hsame, hones, heq⟩
      · refine Or.inr ⟨?_, by rw [heq, show p + 1 + turns = p + (turns + 1) by omega]⟩
        intro k hlow hhigh hsame
        by_cases hk : k = p
        · subst hk
          by_contra hones
          exact hagree ⟨hsame.symm, hsame ▸ hones⟩
        · exact hnone k (by omega) (by omega) hsame

/-- What a call returns is agreed iff its answers settle. -/
theorem gpkReadReg_agreed_iff (n : Nat) (index : UInt8) :
    Agreed answers n ((scriptedBus answers).gpkReadReg n index).1 ((scriptedBus answers).gpkReadReg n index).2 ↔
      Settles answers n := by
  have hcall : (scriptedBus answers).gpkReadReg n index = (scriptedBus answers).agreeLoop index 6 (n + 1) (answers n) := rfl
  rw [hcall]
  rcases agreeLoop_cases answers index 6 n with ⟨k, hlow, hhigh, hsame, hones, heq⟩ | ⟨hnone, heq⟩
  · rw [heq]
    constructor
    · intro _
      refine ⟨k - n, by omega, ?_, ?_⟩
      · rw [show n + (k - n) = k by omega]
        exact hsame
      · rw [show n + (k - n) = k by omega]
        exact hones
    · intro _
      exact ⟨hones, k, hlow, by omega, rfl, hsame.symm⟩
  · rw [heq]
    -- nothing agreed, so the last answer has not been given twice in a row either
    constructor
    · rintro ⟨hones, k, hlow, hhigh, hfirst, hsecond⟩
      exact absurd (hfirst ▸ hnone k hlow (by omega) (hfirst.trans hsecond.symm)) hones
    · rintro ⟨k, hk, hsame, hones⟩
      exact absurd (hnone (n + k) (by omega) (by omega) hsame) hones

/-- The position after a call does not depend on what is read. -/
theorem gpkReadReg_fst (n : Nat) (index : UInt8) : ((scriptedBus answers).gpkReadReg n index).1 = afterRead answers n := by
  have hloop : ∀ turns m prev, ((scriptedBus answers).agreeLoop index turns m prev).1 =
      ((scriptedBus answers).agreeLoop gpkRegResult turns m prev).1 := by
    intro turns
    induction turns with
    | zero => intro m prev; rfl
    | succ turns ih =>
      intro m prev
      show (if answers m = prev ∧ answers m ≠ allOnes then (m + 1, answers m)
        else (scriptedBus answers).agreeLoop index turns (m + 1) (answers m)).1 =
        (if answers m = prev ∧ answers m ≠ allOnes then (m + 1, answers m)
        else (scriptedBus answers).agreeLoop gpkRegResult turns (m + 1) (answers m)).1
      split
      · rfl
      · exact ih _ _
  exact hloop 6 (n + 1) (answers n)

/-- `gpk_alloc` takes the handle from its last read. -/
theorem gpkAlloc_handle (n : Nat) (bytes : UInt32) (sizeOut : Bool)
    (hok : ((scriptedBus answers).gpkReadReg (afterRead answers n) gpkRegResult).2 = gpkOk) :
    let p := if sizeOut then afterRead answers (afterRead answers (afterRead answers n))
      else afterRead answers (afterRead answers n)
    ((scriptedBus answers).gpkAlloc n bytes sizeOut).1 = ((scriptedBus answers).gpkReadReg p gpkRegOut0).1 ∧
    ((scriptedBus answers).gpkAlloc n bytes sizeOut).2.1 = ((scriptedBus answers).gpkReadReg p gpkRegOut0).2 := by
  have hcall : (scriptedBus answers).gpkAlloc n bytes sizeOut =
      if sizeOut then
        let size := (scriptedBus answers).gpkReadReg (afterRead answers (afterRead answers n)) gpkRegOut1
        let handle := (scriptedBus answers).gpkReadReg size.1 gpkRegOut0
        (handle.1, handle.2, some size.2)
      else
        let handle := (scriptedBus answers).gpkReadReg (afterRead answers (afterRead answers n)) gpkRegOut0
        (handle.1, handle.2, none) := if_neg (not_not.mpr hok)
  rw [hcall]
  cases sizeOut with
  | false => exact ⟨rfl, rfl⟩
  | true =>
    simp only [if_true]
    rw [gpkReadReg_fst answers (afterRead answers (afterRead answers n)) gpkRegOut1]
    exact ⟨rfl, rfl⟩

/-- The word loop reads nothing. -/
theorem uploadLoop_scripted (data : List UInt8) (len : Nat) :
    ∀ left i n, (scriptedBus answers).uploadLoop data len left i n = n := by
  intro left
  induction left with
  | zero => intro i n; rfl
  | succ left ih => intro i n; exact ih (i + 1) n

/-- `gpk_upload` takes the checksum from its last read. -/
theorem gpkUpload_checksum (n : Nat) (handle : UInt32) (data : List UInt8) (len : UInt32)
    (hok : ((scriptedBus answers).gpkReadReg (afterRead answers n) gpkRegResult).2 = gpkOk) :
    (scriptedBus answers).gpkUpload n handle data len =
      (scriptedBus answers).gpkReadReg (afterRead answers (afterRead answers n)) gpkRegOut1 := by
  simp only [gpkUpload, uploadLoop_scripted]
  exact if_neg (not_not.mpr hok)

/-- **When `gpk_read_reg` reports an answer.** For every sequence of words the bus may answer, what the call that starts
    at the `n`-th transaction returns is not all ones and was answered twice in a row during that call, iff two
    consecutive answers among its first seven are the same and not all ones. So it is with the queue depth, and with the
    handle of `gpk_alloc` and the checksum of `gpk_upload` once their RESULT has read `kOk`. -/
theorem gpk_read_reg_agreed_iff (n : Nat) :
    (∀ index, Agreed answers n ((scriptedBus answers).gpkReadReg n index).1 ((scriptedBus answers).gpkReadReg n index).2 ↔
      Settles answers n) ∧
    (Agreed answers n ((scriptedBus answers).gpkEventDepth n).1 ((scriptedBus answers).gpkEventDepth n).2 ↔
      Settles answers n) ∧
    (((scriptedBus answers).gpkReadReg (afterRead answers n) gpkRegResult).2 = gpkOk →
      (∀ (bytes : UInt32) (sizeOut : Bool),
        let p := if sizeOut then afterRead answers (afterRead answers (afterRead answers n))
          else afterRead answers (afterRead answers n)
        Agreed answers p ((scriptedBus answers).gpkAlloc n bytes sizeOut).1
          ((scriptedBus answers).gpkAlloc n bytes sizeOut).2.1 ↔ Settles answers p) ∧
      ∀ (handle : UInt32) (data : List UInt8) (len : UInt32),
        let p := afterRead answers (afterRead answers n)
        Agreed answers p ((scriptedBus answers).gpkUpload n handle data len).1
          ((scriptedBus answers).gpkUpload n handle data len).2 ↔ Settles answers p) := by
  refine ⟨gpkReadReg_agreed_iff answers n, gpkReadReg_agreed_iff answers n gpkRegEventDepth, fun hok => ⟨?_, ?_⟩⟩
  · intro bytes sizeOut p
    obtain ⟨hposition, hhandle⟩ := gpkAlloc_handle answers n bytes sizeOut hok
    rw [hposition, hhandle]
    exact gpkReadReg_agreed_iff answers p gpkRegOut0
  · intro handle data len p
    rw [gpkUpload_checksum answers n handle data len hok]
    exact gpkReadReg_agreed_iff answers p gpkRegOut1

end Scripted

/-- The first read is lost, then RESULT reads 0 and OUT0 reads 1: the handle is taken from two answers that agree. -/
theorem gpk_read_reg_dropped_first :
    let answers : Nat → UInt32 := fun k => if k = 0 then allOnes else if k < 5 then 0 else 1
    Agreed answers 0 ((scriptedBus answers).gpkEventDepth 0).1 ((scriptedBus answers).gpkEventDepth 0).2 ∧
    Agreed answers 5 ((scriptedBus answers).gpkAlloc 0 16 false).1 ((scriptedBus answers).gpkAlloc 0 16 false).2.1 := by
  intro answers
  obtain ⟨-, hdepth, hclients⟩ := gpk_read_reg_agreed_iff answers 0
  have hposition : afterRead answers (afterRead answers 0) = 5 := by decide
  have halloc := (hclients (by decide)).1 16 false
  simp only [Bool.false_eq_true, if_false, hposition] at halloc
  exact ⟨hdepth.mpr ⟨1, by decide, by decide, by decide⟩, halloc.mpr ⟨0, by decide, by decide, by decide⟩⟩

/-- Nothing drives the bus: all ones are reported as the depth. -/
theorem gpk_read_reg_undriven :
    ((scriptedBus fun _ => allOnes).gpkEventDepth 0).2 = allOnes ∧
    ¬ Agreed (fun _ => allOnes) 0 ((scriptedBus fun _ => allOnes).gpkEventDepth 0).1
      ((scriptedBus fun _ => allOnes).gpkEventDepth 0).2 :=
  ⟨rfl, fun h => h.1 rfl⟩

end NtrBus

end GekkoPak
