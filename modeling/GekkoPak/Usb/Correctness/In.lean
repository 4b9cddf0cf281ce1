import GekkoPak.Usb.Correctness.Blocks

/-!
# `Usb.Correctness.In` — IN transfers

A transfer is cut into blocks of 512 bytes, and block `k` travels through buffer `k % 2`. While block `k` is being sent
(`Sending`) the next one is written to the other buffer (`Ahead`), so that its send can be started the moment the event
of block `k` arrives. `buf` is flipped only when a block is written: it names the buffer of block `k` again once the
block after it is in place, and is not looked at when there is none.
-/

namespace GekkoPak

open Basis

namespace Usb

/-! ## What `in_send_block` does -/

section SendBlock

variable (fw : Firmware) (b : Bus) (e : UsbEp) (start : Bool)

/-- With something left, the next block is written, and the buffers change over. -/
theorem inSendBlock_data (h : e.offset.toNat < e.length.toNat) :
    ∃ (words : List UInt32) (len : UInt32), len.toNat = min 512 (e.length.toNat - e.offset.toNat) ∧
      (words.flatMap le32).take len.toNat = b.mem.read (e.tx + e.offset.toNat) len.toNat ∧
      fw.inSendBlock b e start =
        ({ b with history := b.history ++ [.write (.writeData e.buf e.addr (if start then 1 else 0) len) words] },
         { e with offset := e.offset + len, buf := 1 - e.buf }) := by
  have hsub : (e.length - e.offset).toNat = e.length.toNat - e.offset.toNat :=
    UInt32.toNat_sub_of_le _ _ (UInt32.le_iff_toNat_le.mpr (Nat.le_of_lt h))
  have hlen : (capBlock (e.length - e.offset)).toNat = min 512 (e.length.toNat - e.offset.toNat) := by
    rw [capBlock_toNat, hsub]
  have hpos : capBlock (e.length - e.offset) > 0 := UInt32.lt_iff_toNat_lt.mpr (by rw [hlen]; show 0 < _; omega)
  refine ⟨writeLoop b.mem (e.tx + e.offset.toNat) (capBlock (e.length - e.offset)).toNat (fw.pacing b.history).polls 0 0,
    capBlock (e.length - e.offset), hlen, ?_, ?_⟩
  · exact payload_writeLoop _ _ (by rw [hlen]; omega) _
  · unfold Firmware.inSendBlock
    extract_lets len
    rw [if_pos hpos]
    rfl

/-- With nothing left, only a transfer that has just been set up sends anything: an empty packet. -/
theorem inSendBlock_empty (h : e.offset = e.length) :
    fw.inSendBlock b e start = (if start then b.usbCmd (.writeData e.buf e.addr 1 0) else b, e) := by
  have hzero : capBlock (e.length - e.offset) = 0 := by
    rw [h, UInt32.sub_self]
    rfl
  unfold Firmware.inSendBlock
  extract_lets len
  rw [if_neg (by show ¬ len > 0; rw [show len = 0 from hzero]; decide)]
  cases start <;> rfl

end SendBlock

/-! ## What the cartridge makes of it -/

theorem sender_concat (ep : UInt8) (bufs : UInt8 → Mem) (history : List Action) (a : Action) :
    (sender ep bufs).run (history ++ [a]) = ((sender ep bufs).run history).step ep a :=
  Machine.run_concat _ _ _

theorem Sender.spares_of_none {ep : UInt8} {c : Sender} {a : Action} (h : a.fills ep = none) : Sender.Spares ep c a := by
  intro off hfills
  rw [h] at hfills
  cases hfills

/-! ## Block `k` on its way -/

section Wire

variable (mem : Mem) (ep : UInt8) (buffer total : Nat) (bufs : UInt8 → Mem)

/-- The bytes of block `k` are in its buffer. -/
def InPlace (k : Nat) (history : List Action) : Prop :=
  (((sender ep bufs).run history).bufs (parity k)).read 0 (chunkLen 512 total k) =
    mem.read (buffer + 512 * k) (chunkLen 512 total k)

/-- Block `k` is being sent, those before it have been, and nothing has gone wrong or been reported. -/
structure Wire (k : Nat) (history : List Action) : Prop where
  sending : ((sender ep bufs).run history).sending = [(parity k, UInt32.ofNat (chunkLen 512 total k))]
  sent    : ((sender ep bufs).run history).sent = mem.chunks 512 buffer total k
  here    : InPlace mem ep buffer total bufs k history
  spares  : (sender ep bufs).Along (Sender.Spares ep) history
  fits    : ∀ a ∈ history, a.Fits
  quiet   : completions history = []

variable {mem ep buffer total bufs} {k : Nat} {history : List Action}

/-- Storing block `j` puts it in place. -/
theorem inPlace_stored {j : Nat} {last : UInt8} {len : UInt32} {words : List UInt32}
    (hlen : len.toNat = chunkLen 512 total j)
    (hwords : (words.flatMap le32).take len.toNat = mem.read (buffer + 512 * j) len.toNat) :
    InPlace mem ep buffer total bufs j (history ++ [.write (.writeData (parity j) ep last len) words]) := by
  have hstep : (((sender ep bufs).run history).step ep (.write (.writeData (parity j) ep last len) words)).bufs (parity j)
      = (((sender ep bufs).run history).bufs (parity j)).write 0 ((words.flatMap le32).take len.toNat) := by
    rw [Sender.step, if_pos rfl]
    exact Function.update_self _ _ _
  have hread := Mem.read_write_same (((sender ep bufs).run history).bufs (parity j)) 0
    (mem.read (buffer + 512 * j) len.toNat)
  rw [Mem.read_length] at hread
  unfold InPlace
  rw [sender_concat, hstep, hwords, ← hlen]
  exact hread

/-- **A write to the other buffer** leaves the block that is being sent alone. -/
theorem Wire.stored (h : Wire mem ep buffer total bufs k history) {len : UInt32}
    (hlen : len.toNat = chunkLen 512 total (k + 1)) (words : List UInt32) :
    Wire mem ep buffer total bufs k (history ++ [.write (.writeData (parity (k + 1)) ep 0 len) words]) := by
  have hstep : ((sender ep bufs).run history).step ep (.write (.writeData (parity (k + 1)) ep 0 len) words) =
      ((sender ep bufs).run history).store (parity (k + 1)) 0 len (words.flatMap le32) := if_pos rfl
  refine ⟨?_, ?_, ?_, ?_, fits_concat h.fits ⟨parity_lt _, chunkLen_le hlen⟩, ?_⟩
  · rw [sender_concat, hstep]
    exact h.sending
  · rw [sender_concat, hstep]
    exact h.sent
  · have hother : (((sender ep bufs).run history).store (parity (k + 1)) 0 len (words.flatMap le32)).bufs (parity k) =
        ((sender ep bufs).run history).bufs (parity k) := Function.update_of_ne (parity_succ_ne k).symm _ _
    unfold InPlace
    rw [sender_concat, hstep, hother]
    exact h.here
  · refine Machine.along_concat h.spares ?_
    intro off hfills
    have hoff : some (parity (k + 1)) = some off := (if_pos rfl).symm.trans hfills
    rw [← Option.some.inj hoff, h.sending]
    simpa using parity_succ_ne k
  · rw [completions_concat _ (by simp)]
    exact h.quiet

/-- The event of block `k`: it has been sent, and nothing is under way. -/
theorem Wire.finished (h : Wire mem ep buffer total bufs k history) (n : UInt32) :
    (sender ep bufs).run (history ++ [.event ep n]) =
      { (sender ep bufs).run history with sending := [], sent := mem.chunks 512 buffer total (k + 1) } := by
  have hhere := h.here
  unfold InPlace at hhere
  rw [sender_concat, Sender.step, if_pos rfl, Sender.finish, h.sending]
  simp only [chunkLen_toNat, hhere, h.sent, Mem.chunks_succ]

theorem Wire.spares_event (h : Wire mem ep buffer total bufs k history) (n : UInt32) :
    (sender ep bufs).Along (Sender.Spares ep) (history ++ [.event ep n]) :=
  Machine.along_concat h.spares (Sender.spares_of_none rfl)

/-- **The event of block `k` and the start of the next one**, which is in place. -/
theorem Wire.begun (h : Wire mem ep buffer total bufs k history)
    (hnext : InPlace mem ep buffer total bufs (k + 1) history) (n : UInt32) :
    Wire mem ep buffer total bufs (k + 1) (history ++ [.event ep n] ++
      [.cmd (.beginXfer ep (parity (k + 1)) (UInt32.ofNat (chunkLen 512 total (k + 1))))]) := by
  have hfits := fits_concat (fits_concat h.fits (a := .event ep n) trivial)
    (a := .cmd (.beginXfer ep (parity (k + 1)) (UInt32.ofNat (chunkLen 512 total (k + 1)))))
    ⟨parity_lt _, chunkLen_le (chunkLen_toNat _ _)⟩
  refine ⟨?_, ?_, ?_, ?_, hfits, ?_⟩
  · rw [sender_concat, h.finished, Sender.step, if_pos rfl]
    rfl
  · rw [sender_concat, h.finished, Sender.step, if_pos rfl]
  · unfold InPlace
    rw [sender_concat, h.finished, Sender.step, if_pos rfl]
    exact hnext
  · exact Machine.along_concat (h.spares_event n) (Sender.spares_of_none rfl)
  · rw [completions_concat _ (by simp), completions_concat _ (by simp)]
    exact h.quiet

/-- The first block, written and started at once. -/
theorem wire_first {len : UInt32} {words : List UInt32} (hlen : len.toNat = chunkLen 512 total 0)
    (hwords : (words.flatMap le32).take len.toNat = mem.read (buffer + 512 * 0) len.toNat) :
    Wire mem ep buffer total bufs 0 [.write (.writeData (parity 0) ep 1 len) words] := by
  have hrun : (sender ep bufs).run [.write (.writeData (parity 0) ep 1 len) words] =
      Sender.store ⟨bufs, [], []⟩ (parity 0) 1 len (words.flatMap le32) := if_pos rfl
  have hhere := @inPlace_stored mem ep buffer total bufs [] 0 1 len words hlen hwords
  refine ⟨?_, ?_, hhere, ?_, List.forall_mem_singleton.mpr ⟨parity_lt _, chunkLen_le hlen⟩, rfl⟩
  · rw [hrun, ← hlen, UInt32.ofNat_toNat]
    rfl
  · rw [hrun]
    rfl
  · exact Machine.along_concat (Machine.along_nil _ _) (fun off _ => List.not_mem_nil)

/-- The empty packet. -/
theorem wire_empty : Wire mem ep buffer 0 bufs 0 [.cmd (.writeData (parity 0) ep 1 0)] := by
  have hrun : (sender ep bufs).run [.cmd (.writeData (parity 0) ep 1 0)] =
      Sender.store ⟨bufs, [], []⟩ (parity 0) 1 0 [] := if_pos rfl
  refine ⟨?_, ?_, rfl, ?_, List.forall_mem_singleton.mpr ⟨parity_lt _, by decide⟩, rfl⟩
  · rw [hrun]
    rfl
  · rw [hrun]
    rfl
  · exact Machine.along_concat (Machine.along_nil _ _) (fun off _ => List.not_mem_nil)

end Wire

/-! ## The driver, block by block -/

section Transfer

variable (mem : Mem) (ep : UInt8) (buffer : Nat) (total : UInt16) (bufs : UInt8 → Mem)

/-- The endpoint while block `k` is being sent. -/
structure Sending (k : Nat) (b : Bus) (e : UsbEp) : Prop where
  wire      : Wire mem ep buffer total.toNat bufs k b.history
  memory    : b.mem = mem
  addr      : e.addr = ep
  tx        : e.tx = buffer
  active    : e.active = true
  length    : e.length = total.toUInt32
  remaining : e.remaining.toNat = total.toNat - 512 * k

/-- The block after it has still to be written, to the other buffer. -/
structure Loaded (k : Nat) (b : Bus) (e : UsbEp) : Prop extends Sending mem ep buffer total bufs k b e where
  offset : e.offset.toNat = min total.toNat (512 * (k + 1))
  buf    : 512 * (k + 1) < total.toNat → e.buf = parity (k + 1)

/-- The block after it is in place, if there is one. -/
structure Ahead (k : Nat) (b : Bus) (e : UsbEp) : Prop extends Sending mem ep buffer total bufs k b e where
  offset : e.offset.toNat = min total.toNat (512 * (k + 2))
  buf    : 512 * (k + 1) < total.toNat → e.buf = parity k
  next   : 512 * (k + 1) < total.toNat → InPlace mem ep buffer total.toNat bufs (k + 1) b.history

variable {mem ep buffer total bufs} {k : Nat} {b : Bus} {e : UsbEp}

theorem Sending.length_toNat (h : Sending mem ep buffer total bufs k b e) : e.length.toNat = total.toNat := by
  rw [h.length]
  rfl

/-- **The next block is written while this one is being sent.** -/
theorem Loaded.sendBlock (fw : Firmware) (h : Loaded mem ep buffer total bufs k b e) :
    Ahead mem ep buffer total bufs k (fw.inSendBlock b e false).1 (fw.inSendBlock b e false).2 := by
  have hlength := h.length_toNat
  have htotal := total.toNat_lt
  by_cases hmore : 512 * (k + 1) < total.toNat
  · have hoff : e.offset.toNat = 512 * (k + 1) := by rw [h.offset]; omega
    obtain ⟨words, len, hlen, htake, hblock⟩ := inSendBlock_data fw b e false (by omega)
    rw [hlength, hoff] at hlen
    rw [h.memory, h.tx, hoff] at htake
    rw [if_neg Bool.false_ne_true, h.buf hmore, h.addr] at hblock
    rw [hblock]
    refine ⟨⟨h.wire.stored hlen words, h.memory, rfl, h.tx, h.active, h.length, h.remaining⟩, ?_, ?_, ?_⟩
    · show (e.offset + len).toNat = _
      rw [UInt32.toNat_add, hoff, hlen]
      omega
    · intro _
      show 1 - parity (k + 1) = parity k
      rw [one_sub_parity, parity_add_two]
    · intro _
      exact inPlace_stored hlen htake
  · have hoff : e.offset = e.length := by
      apply UInt32.toNat_inj.mp
      rw [h.offset, hlength]
      omega
    rw [inSendBlock_empty fw b e false hoff, if_neg Bool.false_ne_true]
    exact ⟨h.toSending, by rw [h.offset]; omega, fun hlt => absurd hlt hmore, fun hlt => absurd hlt hmore⟩

/-- **`dcd_edpt_xfer`**: the first block is on its way, and the second in place. -/
theorem inXfer_ahead (fw : Firmware) (e : UsbEp) (buffer : Nat) (total : UInt16) :
    Ahead mem e.addr buffer total bufs 0 (fw.inXfer ⟨mem, []⟩ e buffer total).1 (fw.inXfer ⟨mem, []⟩ e buffer total).2 := by
  unfold Firmware.inXfer
  extract_lets e0 r
  have htotal := total.toNat_lt
  have hlength : e0.length.toNat = total.toNat := rfl
  have hoffset : e0.offset.toNat = 0 := rfl
  refine Loaded.sendBlock fw ?_
  rcases Nat.eq_zero_or_pos total.toNat with hzero | hpos
  · -- nothing to send: an empty packet
    have htotal0 : total = 0 := UInt16.toNat_inj.mp hzero
    subst htotal0
    have hr : r = (Bus.usbCmd ⟨mem, []⟩ (.writeData (parity 0) e.addr 1 0), e0) := inSendBlock_empty fw ⟨mem, []⟩ e0 true rfl
    rw [hr]
    exact ⟨⟨wire_empty, rfl, rfl, rfl, rfl, rfl, rfl⟩, rfl, fun hlt => absurd hlt (by decide)⟩
  · obtain ⟨words, len, hlen, htake, hblock⟩ := inSendBlock_data fw ⟨mem, []⟩ e0 true (by omega)
    rw [hlength, hoffset] at hlen
    have hr : r = (⟨mem, [.write (.writeData (parity 0) e.addr 1 len) words]⟩,
        { e0 with offset := 0 + len, buf := 1 - parity 0 }) := hblock
    rw [hr]
    refine ⟨⟨wire_first hlen htake, rfl, rfl, rfl, rfl, rfl, rfl⟩, ?_, ?_⟩
    · show (0 + len).toNat = _
      rw [UInt32.zero_add, hlen]
      omega
    · intro _
      rfl

theorem Sending.remaining_sub (h : Sending mem ep buffer total bufs k b e) :
    (e.remaining - UInt32.ofNat (chunkLen 512 total.toNat k)).toNat = total.toNat - 512 * (k + 1) := by
  have hremaining := h.remaining
  have hlen := chunkLen_toNat total.toNat k
  rw [UInt32.toNat_sub_of_le _ _ (UInt32.le_iff_toNat_le.mpr (by rw [hlen, chunkLen]; omega)), hlen, chunkLen]
  omega

/-- **`in_complete`, with more to come**: the next block is started, and the one after it put in place. -/
theorem Ahead.advance (fw : Firmware) (h : Ahead mem ep buffer total bufs k b e)
    (hmore : 512 * (k + 1) < total.toNat) :
    let len := UInt32.ofNat (chunkLen 512 total.toNat k)
    let r := fw.inComplete { b with history := b.history ++ [.event ep len] } e len
    Ahead mem ep buffer total bufs (k + 1) r.1 r.2 := by
  intro len r
  have hsub : (e.remaining - len).toNat = total.toNat - 512 * (k + 1) := h.remaining_sub
  have hne : e.remaining - len ≠ 0 := by
    intro hzero
    rw [hzero] at hsub
    have : total.toNat - 512 * (k + 1) = 0 := hsub.symm
    omega
  have hcap : capBlock (e.remaining - len) = UInt32.ofNat (chunkLen 512 total.toNat (k + 1)) := by
    apply UInt32.toNat_inj.mp
    rw [capBlock_toNat, hsub, chunkLen_toNat, chunkLen]
  have hcmd : Command.beginXfer e.addr (1 - e.buf) (capBlock (e.remaining - len)) =
      .beginXfer ep (parity (k + 1)) (UInt32.ofNat (chunkLen 512 total.toNat (k + 1))) := by
    rw [hcap, h.addr, h.buf hmore, one_sub_parity]
  have hr : r = fw.inSendBlock ⟨b.mem, b.history ++ [.event ep len] ++
      [.cmd (.beginXfer ep (parity (k + 1)) (UInt32.ofNat (chunkLen 512 total.toNat (k + 1))))]⟩
      { e with remaining := e.remaining - len } false := by
    show fw.inComplete _ e len = _
    unfold Firmware.inComplete
    rw [if_neg (by rw [h.active]; exact Bool.noConfusion)]
    extract_lets e'
    rw [if_neg hne]
    show fw.inSendBlock (Bus.usbCmd _ (.beginXfer e.addr (1 - e.buf) (capBlock (e.remaining - len)))) e' false = _
    rw [hcmd]
    rfl
  rw [hr]
  refine Loaded.sendBlock fw ⟨⟨h.wire.begun (h.next hmore) len, h.memory, h.addr, h.tx, h.active, h.length, hsub⟩,
    h.offset, ?_⟩
  intro _
  exact (h.buf hmore).trans (parity_add_two k).symm

/-- **`in_complete`, with the last block sent**: the transfer is reported and the endpoint left inactive. -/
theorem Ahead.complete (fw : Firmware) (h : Ahead mem ep buffer total bufs k b e)
    (hlast : total.toNat ≤ 512 * (k + 1)) :
    let len := UInt32.ofNat (chunkLen 512 total.toNat k)
    fw.inComplete { b with history := b.history ++ [.event ep len] } e len =
      (⟨b.mem, b.history ++ [.event ep len] ++ [.xferComplete ep total.toUInt32]⟩,
       { e with remaining := e.remaining - len, active := false }) := by
  intro len
  have hsub : (e.remaining - len).toNat = total.toNat - 512 * (k + 1) := h.remaining_sub
  have hzero : e.remaining - len = 0 := by
    apply UInt32.toNat_inj.mp
    rw [hsub]
    exact Nat.sub_eq_zero_of_le hlast
  unfold Firmware.inComplete
  rw [if_neg (by rw [h.active]; exact Bool.noConfusion)]
  extract_lets e'
  rw [if_pos hzero]
  show (Bus.xferComplete _ e.addr e.length, _) = _
  rw [h.addr, h.length]
  rfl

end Transfer

/-! ## The endpoint among the others -/

theorem tuEdptDirIn_inAddr : ∀ i : Fin 16, tuEdptDirIn (inAddr i) = true := by decide

theorem epIndex_inAddr : ∀ i : Fin 16, epIndex (inAddr i) = i := by decide

/-- `dcd_edpt_xfer` on IN endpoint `i`. -/
theorem dcdEdptXfer_in (fw : Firmware) (s : Bus × Dcd) (i : Fin 16) (buffer : Nat) (total : UInt16) :
    ((fw.dcdEdptXfer s (inAddr i) buffer total).1, ((fw.dcdEdptXfer s (inAddr i) buffer total).2.sIn i).ep) =
      fw.inXfer s.1 (s.2.sIn i).ep buffer total := by
  simp only [Firmware.dcdEdptXfer, tuEdptDirIn_inAddr, if_true]
  exact call_endpoint s.2.sIn (epIndex_inAddr i) _ _

/-- A transfer event for IN endpoint `i`. -/
theorem xferEvent_in (fw : Firmware) (s : Bus × Dcd) (i : Fin 16) (n : UInt32) :
    ((fw.xferEvent s (inAddr i) n).1, ((fw.xferEvent s (inAddr i) n).2.sIn i).ep) =
      fw.inComplete { s.1 with history := s.1.history ++ [.event (inAddr i) n] } (s.2.sIn i).ep n := by
  simp only [Firmware.xferEvent, tuEdptDirIn_inAddr, if_true]
  exact call_endpoint s.2.sIn (epIndex_inAddr i) _ _

/-! ## The transfer -/

section Rounds

variable (fw : Firmware) {mem : Mem} {d : Dcd} {i : Fin 16} {buffer : Nat} {total : UInt16} {bufs : UInt8 → Mem}

/-- A round, with block `k` on its way. -/
theorem inRound_eq {k : Nat} {s : Bus × Dcd}
    (h : Wire mem (inAddr i) buffer total.toNat bufs k s.1.history) :
    fw.inRound (inAddr i) bufs s = fw.xferEvent s (inAddr i) (UInt32.ofNat (chunkLen 512 total.toNat k)) := by
  unfold Firmware.inRound
  rw [h.sending]

/-- A round with more to come. -/
theorem Ahead.round {k : Nat} {s : Bus × Dcd} (h : Ahead mem (inAddr i) buffer total bufs k s.1 (s.2.sIn i).ep)
    (hmore : 512 * (k + 1) < total.toNat) :
    Ahead mem (inAddr i) buffer total bufs (k + 1) (fw.inRound (inAddr i) bufs s).1
      ((fw.inRound (inAddr i) bufs s).2.sIn i).ep := by
  have hnext := h.advance fw hmore
  have hevent := xferEvent_in fw s i (UInt32.ofNat (chunkLen 512 total.toNat k))
  rw [← inRound_eq fw h.wire] at hevent
  simp only [← hevent] at hnext
  exact hnext

/-- The last round. -/
theorem Ahead.lastRound {k : Nat} {s : Bus × Dcd} (h : Ahead mem (inAddr i) buffer total bufs k s.1 (s.2.sIn i).ep)
    (hlast : total.toNat ≤ 512 * (k + 1)) :
    (fw.inRound (inAddr i) bufs s).1.history = s.1.history ++
        [.event (inAddr i) (UInt32.ofNat (chunkLen 512 total.toNat k))] ++ [.xferComplete (inAddr i) total.toUInt32] ∧
      ((fw.inRound (inAddr i) bufs s).2.sIn i).ep.active = false := by
  have hevent := (xferEvent_in fw s i (UInt32.ofNat (chunkLen 512 total.toNat k))).trans (h.complete fw hlast)
  rw [← inRound_eq fw h.wire] at hevent
  obtain ⟨hbus, hep⟩ := Prod.mk.inj hevent
  exact ⟨by rw [hbus], by rw [hep]⟩

/-- **Block by block**: after `k` rounds block `k` is on its way. -/
theorem ahead_iterate (k : Nat) (hk : k < chunkCount 512 total.toNat) :
    let s := (fw.inRound (inAddr i) bufs)^[k] (fw.dcdEdptXfer (⟨mem, []⟩, d) (inAddr i) buffer total)
    Ahead mem (inAddr i) buffer total bufs k s.1 (s.2.sIn i).ep := by
  induction k with
  | zero =>
    have hstart := dcdEdptXfer_in fw (⟨mem, []⟩, d) i buffer total
    have hahead := @inXfer_ahead mem bufs fw (d.sIn i).ep buffer total
    rw [← hstart, (d.sIn i).addressed] at hahead
    exact hahead
  | succ k ih =>
    have hmore : 512 * (k + 1) < total.toNat := (succ_lt_chunkCount (by decide) total.toNat k).mp hk
    simp only [Function.iterate_succ_apply']
    exact (ih (by omega)).round fw hmore

/-- **USB IN transfers.** Whatever the buffer, its length and the pace of the cartridge, the rounds of a transfer send
    the buffer block by block and in order (nothing at all as one empty packet), never write to a buffer that is being
    sent, and end with the one report of the whole length, nothing under way and the endpoint inactive. -/
theorem in_transfer_delivers (fw : Firmware) (mem : Mem) (d : Dcd) (i : Fin 16) (buffer : Nat) (total : UInt16)
    (bufs : UInt8 → Mem) :
    let s := (fw.inRound (inAddr i) bufs)^[chunkCount 512 total.toNat]
      (fw.dcdEdptXfer (⟨mem, []⟩, d) (inAddr i) buffer total)
    let c := (sender (inAddr i) bufs).run s.1.history
    c.sent.flatten = mem.read buffer total.toNat ∧
      c.sent = mem.chunks 512 buffer total.toNat (chunkCount 512 total.toNat) ∧
      (total = 0 → c.sent = [[]]) ∧
      (sender (inAddr i) bufs).Along (Sender.Spares (inAddr i)) s.1.history ∧
      (∀ a ∈ s.1.history, a.Fits) ∧
      c.sending = [] ∧
      completions s.1.history = [(inAddr i, total.toUInt32)] ∧
      s.1.history.getLast? = some (.xferComplete (inAddr i) total.toUInt32) ∧
      (s.2.sIn i).ep.active = false := by
  intro s c
  obtain ⟨k, hk⟩ : ∃ k, chunkCount 512 total.toNat = k + 1 := ⟨_, rfl⟩
  have hlast : total.toNat ≤ 512 * (k + 1) :=
    Nat.not_lt.mp (fun hlt => absurd ((succ_lt_chunkCount (by decide) total.toNat k).mpr hlt) (by omega))
  have hahead := @ahead_iterate fw mem d i buffer total bufs k (by omega)
  obtain ⟨hbus, hactive⟩ := hahead.lastRound fw hlast
  rw [← Function.iterate_succ_apply' (fw.inRound (inAddr i) bufs), Nat.succ_eq_add_one, ← hk] at hbus hactive
  have hwire := hahead.wire
  generalize ((fw.inRound (inAddr i) bufs)^[k] (fw.dcdEdptXfer (⟨mem, []⟩, d) (inAddr i) buffer total)).1.history =
    history at hwire hbus
  have hrun : c = { (sender (inAddr i) bufs).run history with
      sending := [], sent := mem.chunks 512 buffer total.toNat (chunkCount 512 total.toNat) } := by
    show (sender (inAddr i) bufs).run s.1.history = _
    rw [show s.1.history = _ from hbus, sender_concat, hwire.finished, hk]
    rfl
  have hsent : c.sent = mem.chunks 512 buffer total.toNat (chunkCount 512 total.toNat) := by rw [hrun]
  refine ⟨?_, hsent, ?_, ?_, ?_, by rw [hrun], ?_, ?_, ?_⟩
  · rw [hsent, Mem.chunks_all mem (by decide)]
  · intro hzero
    rw [hsent, hzero]
    rfl
  · show (sender (inAddr i) bufs).Along _ s.1.history
    rw [hbus]
    exact Machine.along_concat (hwire.spares_event _) (Sender.spares_of_none rfl)
  · rw [hbus]
    exact fits_concat (fits_concat hwire.fits trivial) trivial
  · rw [hbus, completions_complete, completions_concat _ (by simp), hwire.quiet]
    rfl
  · rw [hbus, List.getLast?_concat]
  · exact hactive

end Rounds

end Usb

end GekkoPak
