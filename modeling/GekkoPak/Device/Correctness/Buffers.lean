import GekkoPak.Basis.Buffers
import GekkoPak.Device.Correctness.Alloc

/-!
# `Device.Correctness.Buffers` — the pool refines independent buffers

`buffers s` abstracts a device to a `Basis.Store`: each live handle to the bytes it owns in the pool and to its
mark. `effects s op` says what an operation does in those terms — an accepted ALLOC, UPLOAD or FREE is one
effect on one handle, an F4 is one write per inline descriptor whose input range is good, everything else is
nothing — and `step_buffers` is the refinement. That allocations do not overlap (`TableInv`) is what makes a
write through one handle invisible through the others.
-/

namespace GekkoPak

open Basis

namespace Device

/-! ## The abstraction -/

/-- What an entry of the table stands for. -/
def bufferOf (s : Device) (a : Allocation) : Buffer := ⟨s.pool.read a.offset.toNat a.size.toNat, a.uploaded.toNat⟩

/-- The device's memory as independent buffers. -/
def buffers (s : Device) : Store UInt32 :=
  fun handle => (s.allocationForHandle handle).map (fun i => s.bufferOf (s.allocations i))

/-- The write of an inline descriptor, if its input handle and range are good in `s`. -/
def inlineWrite (s : Device) (p : ParsedDescriptor) : Option (Effect UInt32) :=
  match s.inputSlot p.desc, p.input with
  | some _, some bs => some (.write p.desc.inputHandle p.desc.inputOffset.toNat bs)
  | _, _ => none

/-- The buffer an accepted ALLOC that ended in `t` creates: handle OUT0, OUT1 bytes of whatever the pool held
    there, nothing marked. -/
def allocEffects (s t : Device) : List (Effect UInt32) :=
  match t.allocationForHandle (t.stage kOut0) with
  | some i => [.create (t.stage kOut0) ⟨s.pool.read (t.allocations i).offset.toNat (t.stage kOut1).toNat, 0⟩]
  | none   => []

/-- The effects of an F1 with command `c` that ended in `t`: one for an accepted (RESULT is `kOk`) ALLOC, UPLOAD
    or FREE. -/
def execEffects (s : Device) (c : Option HighCommand) (t : Device) : List (Effect UInt32) :=
  if t.stage kResult = Status.ok.code then
    match c with
    | some .alloc  => s.allocEffects t
    | some .upload =>
      [.write (s.stage kArg0) (s.stage kArg1).toNat (s.payload.read 0 (s.stage kPayloadLen).toNat)]
    | some .free   => [.drop (s.stage kArg0)]
    | _            => []
  else []

/-- The effects of one wire operation. -/
def effects (s : Device) : WireOp → List (Effect UInt32)
  | .exec command sequence => s.execEffects (HighCommand.ofCode command) (s.exec command sequence)
  | .writeBlock selector word (some bytes) =>
    if BlockAccepted selector word bytes then
      match parse bytes (blockLength word) with
      | .ok parsed => parsed.filterMap s.inlineWrite
      | .error _   => []
    else []
  | _ => []

/-- The effects of a list of wire operations, from `s` on. -/
def effectsFrom (s : Device) : List WireOp → List (Effect UInt32)
  | []        => []
  | op :: ops => s.effects op ++ effectsFrom (s.step op).1 ops

/-! ## One effect -/

theorem buffers_congr {s t : Device} (hpool : t.pool = s.pool) (htable : t.allocations = s.allocations) :
    t.buffers = s.buffers := by
  unfold buffers bufferOf allocationForHandle
  rw [hpool, htable]

theorem buffers_of_slot {s : Device} {handle : UInt32} {i : Fin kMaxAllocations}
    (h : s.allocationForHandle handle = some i) : s.buffers handle = some (s.bufferOf (s.allocations i)) := by
  unfold buffers
  rw [h]
  rfl

theorem buffers_eq_none {s : Device} {handle : UInt32} (h : s.allocationForHandle handle = none) :
    s.buffers handle = none := by
  unfold buffers
  rw [h]
  rfl

/-- Different handles resolve to different slots. -/
theorem slot_ne {s : Device} {h k : UInt32} {i j : Fin kMaxAllocations} (hi : s.allocationForHandle h = some i)
    (hj : s.allocationForHandle k = some j) (hne : k ≠ h) : j ≠ i := by
  rintro rfl
  exact hne ((allocationForHandle_some hj).1.trans (allocationForHandle_some hi).1.symm)

/-- **A write in range** through handle `h`, with the mark raised to cover it, is a write to that buffer. -/
theorem buffers_write {s t : Device} {poolBytes : Nat} (hinv : TableInv poolBytes s.allocations) {h : UInt32}
    {i : Fin kMaxAllocations} (hslot : s.allocationForHandle h = some i) {off : UInt32} {bs : List UInt8}
    {mark : UInt32} (hin : off.toNat + bs.length ≤ (s.allocations i).size.toNat)
    (hmark : mark.toNat = max (s.allocations i).uploaded.toNat (off.toNat + bs.length))
    (hpool : t.pool = s.pool.write ((s.allocations i).offset.toNat + off.toNat) bs)
    (htable : t.allocations = Function.update s.allocations i { s.allocations i with uploaded := mark }) :
    t.buffers = Store.apply s.buffers (.write h off.toNat bs) := by
  have hlive := (allocationForHandle_some hslot).2
  have hshape : SameShape s t := by
    intro j
    rw [htable]
    by_cases hj : j = i
    · subst hj; rw [Function.update_self]; exact ⟨rfl, rfl, rfl⟩
    · rw [Function.update_of_ne hj]; exact ⟨rfl, rfl, rfl⟩
  funext k
  by_cases hk : k = h
  · subst hk
    have hslot' : t.allocationForHandle k = some i := (hshape.allocationForHandle k).trans hslot
    rw [buffers_of_slot hslot', Store.apply, Function.update_self, buffers_of_slot hslot, htable,
      Function.update_self]
    show some (Buffer.mk (t.pool.read _ _) mark.toNat) = some (Buffer.mk (splice (s.pool.read _ _) _ _) _)
    rw [hpool, Mem.read_write_inside hin, hmark]
    rfl
  · have hne : (Effect.write h off.toNat bs).key ≠ k := Ne.symm hk
    rw [Store.apply_of_ne hne]
    cases hj : s.allocationForHandle k with
    | none => rw [buffers_eq_none hj, buffers_eq_none ((hshape.allocationForHandle k).trans hj)]
    | some j =>
      have hji := slot_ne hslot hj hk
      have hjlive := (allocationForHandle_some hj).2
      rw [buffers_of_slot hj, buffers_of_slot ((hshape.allocationForHandle k).trans hj), htable,
        Function.update_of_ne hji]
      show some (Buffer.mk (t.pool.read _ _) _) = some (Buffer.mk (s.pool.read _ _) _)
      -- the other buffer lies wholly to one side of this one, and so of the bytes written
      have hapart := hinv.apart j i hji hjlive hlive
      rw [hpool, Mem.read_write_disjoint]
      rcases hapart with h1 | h1
      · right
        have h1' : (s.allocations j).offset.toNat + (s.allocations j).size.toNat ≤ (s.allocations i).offset.toNat := h1
        omega
      · left
        have h1' : (s.allocations i).offset.toNat + (s.allocations i).size.toNat ≤ (s.allocations j).offset.toNat := h1
        omega

/-- The handle table after one entry changed. -/
theorem allocationForHandle_update {s t : Device} {i : Fin kMaxAllocations} {a : Allocation}
    (htable : t.allocations = Function.update s.allocations i a) (k : UInt32) :
    t.allocationForHandle k =
      if k = UInt32.ofNat (i.val + 1) then (if a.live then some i else none) else s.allocationForHandle k := by
  by_cases hk : k = UInt32.ofNat (i.val + 1)
  · rw [if_pos hk, hk, allocationForHandle_slot, htable, Function.update_self]
  · rw [if_neg hk]
    unfold allocationForHandle
    split
    · rfl
    · rename_i hrange
      have hne : (⟨k.toNat - 1, by
          have h0 : k.toNat ≠ 0 := fun h0 => hrange (Or.inl (UInt32.toNat_inj.mp h0))
          omega⟩ : Fin kMaxAllocations) ≠ i := by
        -- the slot a handle other than `i + 1` leads to is not `i`
        intro he
        have hv : k.toNat - 1 = i.val := congrArg Fin.val he
        have h0 : k.toNat ≠ 0 := fun h0 => hrange (Or.inl (UInt32.toNat_inj.mp h0))
        apply hk
        apply UInt32.toNat_inj.mp
        rw [slotHandle_toNat]
        omega
      simp only [htable, Function.update_of_ne hne]

/-- Other entries stand for the same buffers as long as the pool does not move. -/
theorem buffers_update_of_ne {s t : Device} {i : Fin kMaxAllocations} {a : Allocation} (hpool : t.pool = s.pool)
    (htable : t.allocations = Function.update s.allocations i a) {k : UInt32}
    (hk : k ≠ UInt32.ofNat (i.val + 1)) : t.buffers k = s.buffers k := by
  have hres : t.allocationForHandle k = s.allocationForHandle k := by
    rw [allocationForHandle_update htable, if_neg hk]
  cases hj : s.allocationForHandle k with
  | none => rw [buffers_eq_none hj, buffers_eq_none (hres.trans hj)]
  | some j =>
    have hji : j ≠ i := by
      rintro rfl
      exact hk (allocationForHandle_some hj).1
    rw [buffers_of_slot hj, buffers_of_slot (hres.trans hj), htable, Function.update_of_ne hji]
    unfold bufferOf
    rw [hpool]

/-- **FREE drops one buffer.** -/
theorem buffers_drop {s t : Device} {h : UInt32} {i : Fin kMaxAllocations}
    (hslot : s.allocationForHandle h = some i) (hpool : t.pool = s.pool)
    (htable : t.allocations = Function.update s.allocations i { s.allocations i with live := false, uploaded := 0 }) :
    t.buffers = Store.apply s.buffers (.drop h) := by
  obtain ⟨rfl, -⟩ := allocationForHandle_some hslot
  funext k
  by_cases hk : k = UInt32.ofNat (i.val + 1)
  · subst hk
    have hres := allocationForHandle_update htable (UInt32.ofNat (i.val + 1))
    rw [if_pos rfl] at hres
    rw [buffers_eq_none hres, Store.apply, Function.update_self]
  · have hne : (Effect.drop (UInt32.ofNat (i.val + 1))).key ≠ k := Ne.symm hk
    rw [Store.apply_of_ne hne, buffers_update_of_ne hpool htable hk]

/-- **ALLOC creates one buffer**, with nothing marked. -/
theorem buffers_create {s t : Device} {slot : Fin kMaxAllocations} {c size : UInt32} (hpool : t.pool = s.pool)
    (htable : t.allocations = Function.update s.allocations slot ⟨c, size, 0, true⟩) :
    t.buffers = Store.apply s.buffers
      (.create (UInt32.ofNat (slot.val + 1)) ⟨s.pool.read c.toNat size.toNat, 0⟩) := by
  funext k
  by_cases hk : k = UInt32.ofNat (slot.val + 1)
  · subst hk
    have hres := allocationForHandle_update htable (UInt32.ofNat (slot.val + 1))
    rw [if_pos rfl] at hres
    rw [buffers_of_slot hres, Store.apply, Function.update_self, htable, Function.update_self]
    unfold bufferOf
    rw [hpool]
    rfl
  · have hne : (Effect.create (UInt32.ofNat (slot.val + 1)) ⟨s.pool.read c.toNat size.toNat, 0⟩).key ≠ k :=
      Ne.symm hk
    rw [Store.apply_of_ne hne, buffers_update_of_ne hpool htable hk]

/-! ## One operation -/

/-- The effect of an ALLOC that filled `slot`. -/
theorem allocEffects_allocated (s : Device) (slot : Fin kMaxAllocations) (off size : UInt32) :
    s.allocEffects ((s.setAllocation slot ⟨off, size, 0, true⟩).report .ok (UInt32.ofNat (slot.val + 1)) size 0 0) =
      [.create (UInt32.ofNat (slot.val + 1)) ⟨s.pool.read off.toNat size.toNat, 0⟩] := by
  have hentry : (s.setAllocation slot ⟨off, size, 0, true⟩).allocations slot = ⟨off, size, 0, true⟩ :=
    Function.update_self _ _ _
  have hres : ((s.setAllocation slot ⟨off, size, 0, true⟩).report .ok (UInt32.ofNat (slot.val + 1)) size
      0 0).allocationForHandle (UInt32.ofNat (slot.val + 1)) = some slot := by
    rw [allocationForHandle_slot]
    show (if ((s.setAllocation slot ⟨off, size, 0, true⟩).allocations slot).live then some slot else none) = _
    rw [hentry]
    rfl
  unfold allocEffects
  rw [show ((s.setAllocation slot ⟨off, size, 0, true⟩).report .ok (UInt32.ofNat (slot.val + 1)) size 0 0).stage
    kOut0 = UInt32.ofNat (slot.val + 1) from rfl, hres]
  show [Effect.create _ ⟨s.pool.read ((s.setAllocation slot ⟨off, size, 0, true⟩).allocations slot).offset.toNat
    size.toNat, 0⟩] = _
  rw [hentry]

theorem exec_buffers {s : Device} {poolBytes : Nat} (hinv : TableInv poolBytes s.allocations)
    {c : Option HighCommand} {t : Device} (hstep : ExecStep s c t) :
    t.buffers = (s.execEffects c t).foldl Store.apply s.buffers := by
  cases hstep with
  | refused st hst =>   -- RESULT tells a refusal apart, and it has no effects
    have heff : s.execEffects c (s.report st 0 0 0 0) = [] := if_neg (fun h => hst (Status.code_inj h))
    rw [heff]
    rfl
  | hello | getCaps | submitted | polled | collected | completed => rfl
  | allocated slot off hne hle hfit hslot hsearch =>
    rw [show s.execEffects (some .alloc) _ = s.allocEffects _ from rfl, allocEffects_allocated]
    exact buffers_create rfl rfl
  | uploaded i checksum hslot _ hoff hfit =>
    obtain ⟨hadd, hin⟩ := range_check hoff hfit
    refine buffers_write hinv hslot ?_ ?_ rfl rfl
    · rw [Mem.read_length]; exact hin
    · rw [max32_toNat, hadd, Mem.read_length]
  | freed i hslot => exact buffers_drop hslot rfl rfl

/-- The inline copy of a well-formed descriptor with a good range is a write to the buffer it names. -/
theorem staged_buffers {s : Device} {poolBytes : Nat} (hinv : TableInv poolBytes s.allocations)
    {p : ParsedDescriptor} (hp : p.WellFormed) {i : Fin kMaxAllocations} (hin : s.inputSlot p.desc = some i) :
    (s.staged i p).buffers = (s.inlineWrite p).toList.foldl Store.apply s.buffers := by
  obtain ⟨hslot, hoff, hlen⟩ := inputSlot_some hin
  obtain ⟨hadd, hrange⟩ := range_check hoff hlen
  unfold staged inlineWrite
  cases hbs : p.input with
  | none => rw [hin]; rfl
  | some bs =>
    have hbytes := hp.input_length hbs
    rw [hin]
    refine buffers_write hinv hslot ?_ ?_ rfl rfl
    · rw [hbytes]; exact hrange
    · rw [max32_toNat, hadd, hbytes]

theorem inlineWrite_of_badInput {s : Device} {p : ParsedDescriptor} (h : s.inputSlot p.desc = none) :
    s.inlineWrite p = none := by
  unfold inlineWrite
  rw [h]

theorem inlineWrite_of_notInline {s : Device} {p : ParsedDescriptor} (h : p.input = none) : s.inlineWrite p = none := by
  unfold inlineWrite
  rw [h]
  cases s.inputSlot p.desc <;> rfl

theorem inlineWrite_congr {s t : Device} (h : SameShape s t) (p : ParsedDescriptor) :
    t.inlineWrite p = s.inlineWrite p := by
  unfold inlineWrite
  rw [h.inputSlot]

theorem descriptor_buffers {s t : Device} {poolBytes : Nat} (hinv : TableInv poolBytes s.allocations)
    {batchSize share : UInt32} {p : ParsedDescriptor} (hp : p.WellFormed) {r : CompletionRecordV1}
    (hd : DescriptorStep s batchSize share p t r) :
    (t.pushCompletion r).1.buffers = (s.inlineWrite p).toList.foldl Store.apply s.buffers := by
  cases hd with
  | badInput hin => rw [inlineWrite_of_badInput hin]; rfl
  | notUploaded i hin hnone => rw [inlineWrite_of_notInline hnone]; rfl
  | badOutput i hin | noSlot i hin | accepted i _ hin => exact staged_buffers hinv hp hin

theorem descriptor_tableInv {s t : Device} {poolBytes : Nat} (hinv : TableInv poolBytes s.allocations)
    {batchSize share : UInt32} {p : ParsedDescriptor} {r : CompletionRecordV1}
    (hd : DescriptorStep s batchSize share p t r) : TableInv poolBytes (t.pushCompletion r).1.allocations := by
  cases hd with
  | badInput | notUploaded => exact hinv
  | badOutput i hin | noSlot i hin | accepted i _ hin => exact tableInv_staged hinv hin

theorem runBlock_buffers {s : Device} {poolBytes : Nat} (hinv : TableInv poolBytes s.allocations)
    {parsed : List ParsedDescriptor} (hwf : ∀ p ∈ parsed, p.WellFormed) :
    (s.runBlock parsed).1.buffers = (parsed.filterMap s.inlineWrite).foldl Store.apply s.buffers := by
  -- along the loop the table stays sound and keeps its shape, so every later range is judged as in `s`
  have hloop : TableInv poolBytes (s.runBlock parsed).1.allocations ∧ SameShape s (s.runBlock parsed).1 ∧
      (s.runBlock parsed).1.buffers = (parsed.filterMap s.inlineWrite).foldl Store.apply s.buffers := by
    refine processDescriptors_run
      (I := fun done t _ => TableInv poolBytes t.allocations ∧ SameShape s t ∧
        t.buffers = (done.filterMap s.inlineWrite).foldl Store.apply s.buffers)
      ?_ ⟨hinv, SameShape.refl s, rfl⟩
    rintro done p hp t dropped u r ⟨ht, hshape, hbuf⟩ hd
    refine ⟨descriptor_tableInv ht hd, hshape.trans (sameShape_descriptor hd), ?_⟩
    rw [descriptor_buffers ht (hwf p hp) hd, hbuf, inlineWrite_congr hshape, List.filterMap_append,
      List.foldl_append]
    cases hw : s.inlineWrite p <;> simp [hw]
  exact hloop.2.2

/-- The effects of an F4: none if it is refused, at the door or by the parser, else those of what it parsed. -/
theorem writeBlock_effects (s : Device) (selector : UInt8) (word : UInt32) (data : Option (List UInt8)) :
    (∃ st, s.effects (.writeBlock selector word data) = [] ∧ (s.writeBlock selector word data).1 = s.setResult st) ∨
    ∃ parsed st, (∀ p ∈ parsed, p.WellFormed) ∧
      s.effects (.writeBlock selector word data) = parsed.filterMap s.inlineWrite ∧
      (s.writeBlock selector word data).1 = (s.runBlock parsed).1.setResult st := by
  rcases writeBlock_cases s selector word data with
    ⟨heq, hno⟩ | ⟨bytes, rfl, hacc, ⟨st, hparse, heq⟩ | ⟨parsed, hparse, heq⟩⟩
  · refine Or.inl ⟨.badBlock, ?_, by rw [heq]⟩
    cases data with
    | none => rfl
    | some bytes => exact if_neg (hno bytes rfl)
  · refine Or.inl ⟨st, ?_, by rw [heq]⟩
    rw [effects, if_pos hacc, hparse]
  · refine Or.inr ⟨parsed, _, parse_wellFormed hacc.2.2.2 hacc.2.2.1 hparse, ?_, by rw [heq]⟩
    rw [effects, if_pos hacc, hparse]

/-- **Refinement, one operation.** -/
theorem step_buffers {s : Device} {poolBytes : Nat} (hinv : TableInv poolBytes s.allocations) (op : WireOp) :
    (s.step op).1.buffers = (s.effects op).foldl Store.apply s.buffers := by
  cases op with
  | writeReg index value =>
    have hq := quiet_writeReg s index value
    exact buffers_congr hq.pool hq.allocations
  | exec command sequence => exact exec_buffers hinv (exec_step s command sequence)
  | readReg index => rfl
  | writePayloadWord index value =>
    have hq := quiet_writePayloadWord s index value
    exact buffers_congr hq.pool hq.allocations
  | writeBlock selector word data =>
    show (s.writeBlock selector word data).1.buffers = _
    rcases writeBlock_effects s selector word data with ⟨st, heff, heq⟩ | ⟨parsed, st, hwf, heff, heq⟩
    · rw [heq, heff]; rfl
    · rw [heq, heff, ← runBlock_buffers hinv hwf]
      rfl
  | readBlock selector word out =>
    show (s.readBlock selector word out).1.buffers = _
    rcases readBlock_cases s selector word out with ⟨heq, -⟩ | ⟨outBytes, q, -, -, -, heq⟩
    · rw [heq]; rfl
    · rw [heq]; rfl

/-! ## Whole runs -/

/-- A handle is created only while it stands for nothing, and by an operation that does nothing else. -/
theorem create_fresh {s : Device} {op : WireOp} {k : UInt32} {b : Buffer} (h : .create k b ∈ s.effects op) :
    s.buffers k = none ∧ b.mark = 0 ∧ s.effects op = [.create k b] := by
  cases op with
  | writeReg | readReg | writePayloadWord | readBlock => cases h
  | exec command sequence =>
    have hstep := exec_step s command sequence
    have hmem : .create k b ∈ s.execEffects (HighCommand.ofCode command) (s.exec command sequence) := h
    show s.buffers k = none ∧ b.mark = 0 ∧
      s.execEffects (HighCommand.ofCode command) (s.exec command sequence) = [.create k b]
    generalize HighCommand.ofCode command = c at hstep hmem ⊢
    generalize s.exec command sequence = t at hstep hmem ⊢
    cases hstep with
    | refused st hst =>
      have heff : s.execEffects c (s.report st 0 0 0 0) = [] := if_neg (fun h => hst (Status.code_inj h))
      rw [heff] at hmem
      cases hmem
    | hello | getCaps | submitted | polled | collected | completed => cases hmem
    | uploaded | freed => cases List.mem_singleton.mp hmem
    | allocated slot off hne hle hfit hslot hsearch =>
      rw [show s.execEffects (some .alloc) _ = s.allocEffects _ from rfl, allocEffects_allocated] at hmem ⊢
      obtain ⟨rfl, rfl⟩ := Effect.create.inj (List.mem_singleton.mp hmem)
      -- ALLOC takes a slot that is not live, whose handle therefore resolves to nothing
      have hdead : (s.allocations slot).live = false := by
        have hfound := firstSlot_some hslot
        simpa using hfound
      refine ⟨buffers_eq_none ?_, rfl, rfl⟩
      rw [allocationForHandle_slot, hdead]
      rfl
  | writeBlock selector word data =>   -- an F4 writes to buffers and creates none
    have hwrites : ∀ parsed : List ParsedDescriptor, .create k b ∉ parsed.filterMap s.inlineWrite := by
      intro parsed hmem
      obtain ⟨p, -, hp⟩ := List.mem_filterMap.mp hmem
      unfold inlineWrite at hp
      split at hp <;> cases hp
    cases data with
    | none => cases h
    | some bytes =>
      rw [effects] at h
      split at h
      · split at h
        · exact absurd h (hwrites _)
        · cases h
      · cases h

/-- **A resident buffer along a run.** By induction on the run: no step creates a handle that stands for
    something, so as long as nothing drops it, a step only overlays writes to it. -/
theorem resident_run {config : Config} {poolBytes : UInt32} (hpool : poolBytes.toNat < 2 ^ 31) {h : UInt32} :
    ∀ (post : List WireOp) {s : Device} {b : Buffer}, Sound poolBytes s → s.buffers h = some b →
      .drop h ∉ s.effectsFrom post →
      ((machine config).runFrom s post).buffers h =
        some (Store.overlayAll b (Store.writesTo h (s.effectsFrom post))) := by
  intro post
  induction post with
  | nil => intro s b _ hb _; exact hb
  | cons op post ih =>
    intro s b hs hb hdrop
    rw [effectsFrom, List.mem_append, not_or] at hdrop
    have hcreate : ∀ b', .create h b' ∉ s.effects op := by
      intro b' hmem
      rw [(create_fresh hmem).1] at hb
      cases hb
    have hnext : (s.step op).1.buffers h = some (Store.overlayAll b (Store.writesTo h (s.effects op))) := by
      rw [step_buffers hs.2 op]
      exact Store.foldl_apply_resident hcreate hdrop.1 hb
    rw [effectsFrom, Store.writesTo_append, Store.overlayAll_append]
    exact ih (sound_step hpool op hs) hnext hdrop.2

theorem effectsFrom_append (ops ops' : List WireOp) (config : Config) :
    ∀ s : Device, s.effectsFrom (ops ++ ops') =
      s.effectsFrom ops ++ ((machine config).runFrom s ops).effectsFrom ops' := by
  induction ops with
  | nil => intro s; rfl
  | cons op ops ih =>
    intro s
    rw [List.cons_append, effectsFrom, effectsFrom, ih, List.append_assoc]
    rfl

theorem sound_after {config : Config} (hpool : config.poolBytes.toNat < 2 ^ 31) (ops : List WireOp) :
    Sound config.poolBytes (after config ops) := ⟨after_poolBytes config ops, tableInv_after hpool ops⟩

/-- A reset device has no buffers. -/
theorem buffers_reset (config : Config) : (after config []).buffers = fun _ => none := by
  funext k
  refine buffers_eq_none ?_
  cases hk : (after config []).allocationForHandle k with
  | none => rfl
  | some i => cases (allocationForHandle_some hk).2

/-- **Device memory refines independent buffers.** With a pool below 2 GiB, after every run `pre`: the next
    operation does to the buffers exactly its effects; the buffers are all effects so far, in order, from
    nothing; a buffer that exists and is not freed along `post` then holds the overlay, in order, of the writes
    to its own handle, whatever else `post` does; and ALLOC hands out only handles that stand for nothing, with
    nothing marked. -/
theorem memory_refines_buffers (config : Config) (hbytes : config.poolBytes.toNat < 2 ^ 31) (pre : List WireOp) :
    (∀ op, (after config (pre ++ [op])).buffers =
      ((after config pre).effects op).foldl Store.apply (after config pre).buffers) ∧
    (after config pre).buffers = ((after config []).effectsFrom pre).foldl Store.apply (fun _ => none) ∧
    (∀ h b post, (after config pre).buffers h = some b → .drop h ∉ (after config pre).effectsFrom post →
      (after config (pre ++ post)).buffers h =
        some (Store.overlayAll b (Store.writesTo h ((after config pre).effectsFrom post)))) ∧
    (∀ op h b, .create h b ∈ (after config pre).effects op →
      (after config pre).buffers h = none ∧ (after config (pre ++ [op])).buffers h = some b ∧ b.mark = 0) := by
  have hone : ∀ ops op, (after config (ops ++ [op])).buffers =
      ((after config ops).effects op).foldl Store.apply (after config ops).buffers := by
    intro ops op
    rw [after, Machine.run_concat]
    exact step_buffers (tableInv_after hbytes ops) op
  refine ⟨hone pre, ?_, ?_, ?_⟩
  · induction pre using List.reverseRecOn with
    | nil => exact buffers_reset config
    | append_singleton pre op ih =>
      rw [hone pre op, ih, effectsFrom_append pre [op] config, List.foldl_append]
      show _ = (Device.effects _ op ++ []).foldl _ _
      rw [List.append_nil]
      rfl
  · intro h b post hb hdrop
    rw [after, Machine.run_append]
    exact resident_run hbytes post (sound_after hbytes pre) hb hdrop
  · intro op h b hmem
    obtain ⟨hnone, hmark, heff⟩ := create_fresh hmem
    refine ⟨hnone, ?_, hmark⟩
    rw [hone pre op, heff]
    exact Function.update_self _ _ _

/-- Eight bytes allocated, the first four uploaded, a second buffer allocated in between. -/
theorem memory_refines_buffers_upload :
    let config : Config := { hasPool := true, poolBytes := 65536 }
    let pre : List WireOp := [.writeReg 0 8, .exec HighCommand.alloc.code 0]
    let post : List WireOp := [.exec HighCommand.alloc.code 0, .writePayloadWord 0 0x11223344, .writeReg 0 1,
      .writeReg 4 4, .exec HighCommand.upload.code 0]
    (after config (pre ++ post)).buffers 1 = some ⟨[0x44, 0x33, 0x22, 0x11, 0, 0, 0, 0], 4⟩ := by
  intro config pre post
  have hpre : (after config pre).buffers 1 = some ⟨[0, 0, 0, 0, 0, 0, 0, 0], 0⟩ := by decide +kernel
  have hdrop : .drop 1 ∉ (after config pre).effectsFrom post := by decide +kernel
  have hover : Store.overlayAll ⟨[0, 0, 0, 0, 0, 0, 0, 0], 0⟩
      (Store.writesTo 1 ((after config pre).effectsFrom post)) = ⟨[0x44, 0x33, 0x22, 0x11, 0, 0, 0, 0], 4⟩ := by
    decide +kernel
  rw [(memory_refines_buffers config (by decide) pre).2.2.1 1 _ post hpre hdrop, hover]

end Device

end GekkoPak
