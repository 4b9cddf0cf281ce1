import GekkoPak.Usb.Correctness.Blocks

/-!
# `Usb.Correctness.Out` — OUT transfers

The host's bytes arrive block by block, block `k` in buffer `k % 2`. When a full block has come in and more may follow,
the other buffer is armed before this one is copied out. What decides that more may follow is `length - offset - 512`,
with `offset` still at the start of the block just received: how much the transfer is short of after it. A block that
is not full ends the transfer, and so does the one that leaves nothing short.
-/

namespace GekkoPak

open Basis

namespace Usb

/-! ## What is left after this block -/

/-- `(int32_t)length - (int32_t)offset - 512`, cut off at 512. -/
theorem capSigned_toInt {length offset : UInt32} (hlength : length.toNat < 2 ^ 16) (hoffset : offset.toNat < 2 ^ 16) :
    (capSigned (length.toInt32 - offset.toInt32 - 512)).toInt =
      min 512 ((length.toNat : Int) - offset.toNat - 512) := by
  have hword : ∀ x : UInt32, x.toInt32 = Int32.ofInt x.toNat := by
    intro x
    rw [Int32.ofInt_eq_ofNat, ← UInt32.toInt32_ofNat', UInt32.ofNat_toNat]
  have hsub : length.toInt32 - offset.toInt32 - 512 = Int32.ofInt ((length.toNat : Int) - offset.toNat - 512) := by
    rw [hword, hword, Int32.ofInt_sub, Int32.ofInt_sub]
    rfl
  have hval : (length.toInt32 - offset.toInt32 - 512).toInt = (length.toNat : Int) - offset.toNat - 512 := by
    rw [hsub, Int32.toInt_ofInt_of_le (by omega) (by omega)]
  unfold capSigned
  split
  · rename_i h
    have hlt := Int32.lt_iff_toInt_lt.mp h
    rw [hval, show (512 : Int32).toInt = 512 from rfl] at hlt
    rw [Int.min_eq_left (by omega)]
    rfl
  · rename_i h
    have hle : ¬ (512 : Int32).toInt < _ := fun hlt => h (Int32.lt_iff_toInt_lt.mpr hlt)
    rw [hval, show (512 : Int32).toInt = 512 from rfl] at hle
    rw [hval, Int.min_eq_right (by omega)]

/-! ## What `out_receive_block` does -/

section ReceiveBlock

variable (fw : Firmware) (b : Bus) (e : UsbEp)

/-- With bytes received and not yet copied, they are, and the buffers change over. -/
theorem outReceiveBlock_data {bytes : List UInt8} (hpos : e.offset.toNat < e.received.toNat)
    (hle : e.received.toNat ≤ e.offset.toNat + 512) (hbytes : bytes.length = 4 * 128)
    (hresponse : fw.response b.history (.readData e.buf e.addr) = wordsOf bytes) :
    fw.outReceiveBlock b e =
      (⟨b.mem.write (e.rx + e.offset.toNat) (bytes.take (e.received.toNat - e.offset.toNat)),
        b.history ++ [.read (.readData e.buf e.addr)]⟩, { e with offset := e.received, buf := 1 - e.buf }) := by
  have hsub : (e.received - e.offset).toNat = e.received.toNat - e.offset.toNat :=
    UInt32.toNat_sub_of_le _ _ (UInt32.le_iff_toNat_le.mpr (Nat.le_of_lt hpos))
  have hne : e.received - e.offset ≠ 0 := by
    intro hzero
    rw [hzero] at hsub
    have hnil : e.received.toNat - e.offset.toNat = 0 := hsub.symm
    omega
  have hcap : capBlock (e.received - e.offset) = e.received - e.offset := by
    apply UInt32.toNat_inj.mp
    rw [capBlock_toNat, hsub]
    omega
  have hoffset : e.offset + (e.received - e.offset) = e.received := by
    rw [UInt32.add_comm, UInt32.sub_add_cancel]
  unfold Firmware.outReceiveBlock
  extract_lets len
  rw [if_neg hne]
  show (fw.usbReadBlock b _ _ (capBlock (e.received - e.offset)),
    { e with offset := e.offset + capBlock (e.received - e.offset), buf := 1 - e.buf }) = _
  rw [hcap, hoffset, Firmware.usbReadBlock, hresponse, hsub, readLoop_wordsOf _ _ hbytes (by omega)]

theorem outReceiveBlock_empty (h : e.received = e.offset) : fw.outReceiveBlock b e = (b, e) := by
  unfold Firmware.outReceiveBlock
  extract_lets len
  rw [if_pos (show e.received - e.offset = 0 by rw [h, UInt32.sub_self])]

end ReceiveBlock

/-! ## Waiting for block `k` -/

theorem receiver_concat (ep : UInt8) (bufs : UInt8 → Mem) (stream : List UInt8) (history : List Action) (a : Action) :
    (receiver ep bufs stream).run (history ++ [a]) = ((receiver ep bufs stream).run history).step ep a :=
  Machine.run_concat _ _ _

theorem Receiver.spares_of_none {ep : UInt8} {c : Receiver} {a : Action} (h : a.asks ep = none) :
    Receiver.Spares ep c a := by
  intro off hasks
  rw [h] at hasks
  cases hasks

theorem arms_concat (ep : UInt8) (history : List Action) (a : Action) :
    ((history ++ [a]).map (Action.arms ep)).sum = (history.map (Action.arms ep)).sum + a.arms ep := by
  simp

section Wire

variable (ep : UInt8) (bufs : UInt8 → Mem) (stream : List UInt8) (total : Nat)

/-- The buffer of block `k` is armed, the host has sent what comes before, and nothing has gone wrong or been
    reported. -/
structure Waits (k : Nat) (history : List Action) : Prop where
  armed  : ((receiver ep bufs stream).run history).armed = [(parity k, UInt32.ofNat (chunkLen 512 total k))]
  host   : ((receiver ep bufs stream).run history).host = stream.drop (512 * k)
  spares : (receiver ep bufs stream).Along (Receiver.Spares ep) history
  fits   : ∀ a ∈ history, a.Fits
  quiet  : completions history = []
  budget : (history.map (Action.arms ep)).sum = min total (512 * (k + 1))

variable {ep bufs stream total} {k : Nat} {history : List Action}

/-- What the host sends into the buffer of block `k`. -/
def hostBlock (stream : List UInt8) (total k : Nat) : List UInt8 :=
  (stream.drop (512 * k)).take (chunkLen 512 total k)

theorem hostBlock_length (stream : List UInt8) (total k : Nat) :
    (hostBlock stream total k).length = min (chunkLen 512 total k) (stream.length - 512 * k) := by
  rw [hostBlock, List.length_take, List.length_drop]

/-- Block `k` has come in. -/
theorem Waits.came (h : Waits ep bufs stream total k history) (n : UInt32) :
    (receiver ep bufs stream).run (history ++ [.event ep n]) =
      { bufs := Function.update ((receiver ep bufs stream).run history).bufs (parity k)
          ((((receiver ep bufs stream).run history).bufs (parity k)).write 0 (hostBlock stream total k))
        armed := []
        host := stream.drop (512 * k + chunkLen 512 total k) } := by
  rw [receiver_concat, Receiver.step, if_pos rfl, Receiver.fill, h.armed]
  simp only [chunkLen_toNat, h.host, hostBlock, List.drop_drop]

theorem Waits.stored (h : Waits ep bufs stream total k history) (n : UInt32) :
    ((receiver ep bufs stream).run (history ++ [.event ep n])).bufs (parity k) =
      (((receiver ep bufs stream).run history).bufs (parity k)).write 0 (hostBlock stream total k) := by
  rw [h.came]
  exact Function.update_self _ _ _

/-- The other buffer is armed before block `k` is read. -/
theorem Waits.rearmed (h : Waits ep bufs stream total k history) (n len : UInt32) :
    (receiver ep bufs stream).run (history ++ [.event ep n] ++ [.cmd (.beginXfer ep (parity (k + 1)) len)]) =
      { (receiver ep bufs stream).run (history ++ [.event ep n]) with armed := [(parity (k + 1), len)] } := by
  rw [receiver_concat, h.came, Receiver.step, if_pos rfl]
  rfl

theorem not_mem_rearmed (k : Nat) (len : UInt32) : parity k ∉ [(parity (k + 1), len)].map Prod.fst := by
  simpa using (parity_succ_ne k).symm

theorem Waits.spares_event (h : Waits ep bufs stream total k history) (n : UInt32) :
    (receiver ep bufs stream).Along (Receiver.Spares ep) (history ++ [.event ep n]) :=
  Machine.along_concat h.spares (Receiver.spares_of_none rfl)

/-- A read of a buffer that is not armed. -/
theorem spares_read (h : (receiver ep bufs stream).Along (Receiver.Spares ep) history)
    (hfree : parity k ∉ ((receiver ep bufs stream).run history).armed.map Prod.fst) :
    (receiver ep bufs stream).Along (Receiver.Spares ep) (history ++ [.read (.readData (parity k) ep)]) := by
  refine Machine.along_concat h ?_
  intro off hasks
  have hoff : some (parity k) = some off := (if_pos rfl).symm.trans hasks
  rw [← Option.some.inj hoff]
  exact hfree

/-- **A full block and the next buffer armed**: block `k` is read while the other buffer waits. -/
theorem Waits.next (h : Waits ep bufs stream total k history) (hmore : 512 * (k + 1) < total) (n : UInt32) :
    Waits ep bufs stream total (k + 1) (history ++ [.event ep n] ++
      [.cmd (.beginXfer ep (parity (k + 1)) (UInt32.ofNat (chunkLen 512 total (k + 1))))] ++
      [.read (.readData (parity k) ep)]) := by
  have hfull : chunkLen 512 total k = 512 := by rw [chunkLen]; omega
  have harmed := h.rearmed n (UInt32.ofNat (chunkLen 512 total (k + 1)))
  have hfits := fits_concat (fits_concat (fits_concat h.fits (a := .event ep n) trivial)
    (a := .cmd (.beginXfer ep (parity (k + 1)) (UInt32.ofNat (chunkLen 512 total (k + 1)))))
    ⟨parity_lt _, chunkLen_le (chunkLen_toNat _ _)⟩) (a := .read (.readData (parity k) ep)) (parity_lt k)
  refine ⟨?_, ?_, ?_, hfits, ?_, ?_⟩
  · rw [receiver_concat, harmed]
    rfl
  · rw [receiver_concat, harmed, h.came]
    show stream.drop (512 * k + chunkLen 512 total k) = _
    rw [hfull, Nat.mul_succ]
  · refine spares_read (Machine.along_concat (h.spares_event n) (Receiver.spares_of_none rfl)) ?_
    rw [harmed]
    exact not_mem_rearmed k _
  · rw [completions_concat _ (by simp), completions_concat _ (by simp), completions_concat _ (by simp)]
    exact h.quiet
  · have harms : (Action.cmd (.beginXfer ep (parity (k + 1)) (UInt32.ofNat (chunkLen 512 total (k + 1))))).arms ep =
        chunkLen 512 total (k + 1) := (if_pos rfl).trans (chunkLen_toNat _ _)
    have hevent : (Action.event ep n).arms ep = 0 := rfl
    have hread : (Action.read (.readData (parity k) ep)).arms ep = 0 := rfl
    rw [arms_concat, arms_concat, arms_concat, h.budget, harms, hevent, hread, Nat.add_zero, Nat.add_zero,
      min_add_chunkLen]

/-- Block `k` has come in, and nothing is armed any more. -/
structure Came (ep : UInt8) (bufs : UInt8 → Mem) (stream : List UInt8) (total k : Nat) (history : List Action) :
    Prop where
  armed  : ((receiver ep bufs stream).run history).armed = []
  host   : ((receiver ep bufs stream).run history).host = stream.drop (512 * k + chunkLen 512 total k)
  spares : (receiver ep bufs stream).Along (Receiver.Spares ep) history
  fits   : ∀ a ∈ history, a.Fits
  quiet  : completions history = []
  budget : (history.map (Action.arms ep)).sum = min total (512 * (k + 1))

theorem Waits.event (h : Waits ep bufs stream total k history) (n : UInt32) :
    Came ep bufs stream total k (history ++ [.event ep n]) := by
  have hcame := h.came n
  refine ⟨by rw [hcame], by rw [hcame], h.spares_event n, fits_concat h.fits trivial, ?_, ?_⟩
  · rw [completions_concat _ (by simp)]
    exact h.quiet
  · rw [arms_concat, h.budget]
    rfl

theorem Came.read (h : Came ep bufs stream total k history) :
    Came ep bufs stream total k (history ++ [.read (.readData (parity k) ep)]) := by
  refine ⟨?_, ?_, ?_, fits_concat h.fits (parity_lt k), ?_, ?_⟩
  · rw [receiver_concat]
    exact h.armed
  · rw [receiver_concat]
    exact h.host
  · exact spares_read h.spares (by rw [h.armed]; exact List.not_mem_nil)
  · rw [completions_concat _ (by simp)]
    exact h.quiet
  · rw [arms_concat, h.budget]
    rfl

/-- The first buffer, armed. -/
theorem waits_first : Waits ep bufs stream total 0
    [.cmd (.beginXfer ep (parity 0) (UInt32.ofNat (chunkLen 512 total 0)))] := by
  have hrun : (receiver ep bufs stream).run [.cmd (.beginXfer ep (parity 0) (UInt32.ofNat (chunkLen 512 total 0)))] =
      ⟨bufs, [(parity 0, UInt32.ofNat (chunkLen 512 total 0))], stream⟩ := if_pos rfl
  refine ⟨by rw [hrun], by rw [hrun]; rfl, ?_, ?_, rfl, ?_⟩
  · exact Machine.along_concat (Machine.along_nil _ _) (Receiver.spares_of_none rfl)
  · exact List.forall_mem_singleton.mpr ⟨parity_lt _, chunkLen_le (chunkLen_toNat _ _)⟩
  · show (if ep = ep then (UInt32.ofNat (chunkLen 512 total 0)).toNat else 0) + 0 = _
    rw [if_pos rfl, chunkLen_toNat, chunkLen]
    omega

end Wire

/-! ## What `out_complete` does -/

section Complete

variable (fw : Firmware) {b : Bus} {e : UsbEp} {transferred : UInt32}

/-- How much the transfer is short of after this block, 512 at most. -/
def shortOf (e : UsbEp) : Int32 := capSigned (e.length.toInt32 - e.offset.toInt32 - 512)

/-- A full block, and something short: the other buffer is armed first. -/
theorem outComplete_more (hactive : e.active = true) (ht : transferred = 512) (hshort : shortOf e > 0) :
    fw.outComplete b e transferred =
      fw.outReceiveBlock (b.usbCmd (.beginXfer e.addr (1 - e.buf) (shortOf e).toUInt32))
        { e with received := e.received + transferred } := by
  have hne : ¬ (transferred < 512 ∨ shortOf e = 0) := by
    rintro (hlt | hzero)
    · rw [ht] at hlt
      exact absurd hlt (by decide)
    · rw [hzero] at hshort
      exact absurd hshort (by decide)
  unfold Firmware.outComplete
  rw [if_neg (by rw [hactive]; exact Bool.noConfusion)]
  extract_lets e' len b' r
  have hlen : len = shortOf e := rfl
  rw [hlen, if_neg hne]
  show fw.outReceiveBlock (if transferred = 512 ∧ shortOf e > 0 then _ else b) e' = _
  rw [if_pos ⟨ht, hshort⟩]
  rfl

/-- A block that is not full, or nothing short: the transfer is over. -/
theorem outComplete_last (hactive : e.active = true) (hlast : transferred < 512 ∨ shortOf e = 0) {r : Bus × UsbEp}
    (hr : fw.outReceiveBlock b { e with received := e.received + transferred } = r) :
    fw.outComplete b e transferred = (r.1.xferComplete r.2.addr r.2.offset, { r.2 with active := false }) := by
  have hno : ¬ (transferred = 512 ∧ shortOf e > 0) := by
    rintro ⟨ht, hshort⟩
    rcases hlast with hlt | hzero
    · rw [ht] at hlt
      exact absurd hlt (by decide)
    · rw [hzero] at hshort
      exact absurd hshort (by decide)
  unfold Firmware.outComplete
  rw [if_neg (by rw [hactive]; exact Bool.noConfusion)]
  extract_lets e' len b' r'
  have hlen : len = shortOf e := rfl
  have hb' : b' = b := if_neg hno
  have hr' : r' = r := by
    show fw.outReceiveBlock b' e' = r
    rw [hb']
    exact hr
  clear_value r'
  subst hr'
  rw [hlen, if_pos hlast]

end Complete

/-! ## The driver, block by block -/

section Transfer

variable (mem : Mem) (ep : UInt8) (buffer : Nat) (total : UInt16) (bufs : UInt8 → Mem) (stream : List UInt8)

/-- The endpoint while the buffer of block `k` is armed. -/
structure Receiving (k : Nat) (b : Bus) (e : UsbEp) : Prop where
  wire     : Waits ep bufs stream total.toNat k b.history
  reached  : 512 * k ≤ stream.length
  short    : 512 * k < total.toNat
  memory   : b.mem = mem.write buffer (stream.take (512 * k))
  addr     : e.addr = ep
  rx       : e.rx = buffer
  active   : e.active = true
  length   : e.length = total.toUInt32
  offset   : e.offset.toNat = 512 * k
  received : e.received = e.offset
  buf      : e.buf = parity k

variable {mem ep buffer total bufs stream} {fw : Firmware} {k : Nat} {b : Bus} {e : UsbEp}

/-- The count the event of block `k` carries. -/
def hostCount (stream : List UInt8) (total k : Nat) : UInt32 := UInt32.ofNat (hostBlock stream total k).length

theorem hostCount_toNat (stream : List UInt8) (total k : Nat) :
    (hostCount stream total k).toNat = (hostBlock stream total k).length :=
  UInt32.toNat_ofNat_of_lt' (by rw [hostBlock_length, chunkLen]; show _ < 2 ^ 32; omega)

theorem Receiving.shortOf_toInt (h : Receiving mem ep buffer total bufs stream k b e) :
    (shortOf e).toInt = min 512 ((total.toNat : Int) - 512 * (k + 1)) := by
  have hlength : e.length.toNat = total.toNat := by rw [h.length]; rfl
  have htotal := total.toNat_lt
  have hshort := h.short
  unfold shortOf
  rw [capSigned_toInt (by omega) (by rw [h.offset]; omega), hlength, h.offset]
  omega

/-- What has been received, with block `k`. -/
theorem Receiving.received_toNat (h : Receiving mem ep buffer total bufs stream k b e) :
    (e.received + hostCount stream total.toNat k).toNat = 512 * k + (hostBlock stream total.toNat k).length := by
  have htotal := total.toNat_lt
  have hshort := h.short
  have hlen := hostBlock_length stream total.toNat k
  rw [chunkLen] at hlen
  rw [h.received, UInt32.toNat_add, h.offset, hostCount_toNat]
  omega

/-- **The block is copied out**, if there is anything in it, from a buffer that has come in and is not armed. -/
theorem Receiving.receiveBlock (hserves : fw.Serves ep bufs stream)
    (h : Receiving mem ep buffer total bufs stream k b e) {history : List Action} {m : Mem}
    (hstored : ((receiver ep bufs stream).run history).bufs (parity k) = m.write 0 (hostBlock stream total.toNat k))
    (hfree : parity k ∉ ((receiver ep bufs stream).run history).armed.map Prod.fst)
    (hpos : 0 < (hostBlock stream total.toNat k).length) :
    fw.outReceiveBlock ⟨b.mem, history⟩ { e with received := e.received + hostCount stream total.toNat k } =
      (⟨mem.write buffer (stream.take (512 * k) ++ hostBlock stream total.toNat k),
        history ++ [.read (.readData (parity k) ep)]⟩,
       { e with
         received := e.received + hostCount stream total.toNat k
         offset := e.received + hostCount stream total.toNat k
         buf := parity (k + 1) }) := by
  have hreceived := h.received_toNat
  have hlen := hostBlock_length stream total.toNat k
  rw [chunkLen] at hlen
  have hoffset := h.offset
  have hread : ((m.write 0 (hostBlock stream total.toNat k)).read 0 (4 * 128)).take
      (hostBlock stream total.toNat k).length = hostBlock stream total.toNat k := by
    rw [Mem.take_read (by omega), Mem.read_write_same]
  have hfront : (stream.take (512 * k)).length = 512 * k := by
    rw [List.length_take]
    exact Nat.min_eq_left h.reached
  have hresponse := hserves history (parity k) hfree
  rw [hstored] at hresponse
  have hblock := outReceiveBlock_data fw ⟨b.mem, history⟩
    { e with received := e.received + hostCount stream total.toNat k }
    (show e.offset.toNat < (e.received + hostCount stream total.toNat k).toNat by omega)
    (show (e.received + hostCount stream total.toNat k).toNat ≤ e.offset.toNat + 512 by omega)
    (Mem.read_length _ _ _) (by rw [h.buf, h.addr]; exact hresponse)
  have hmem : b.mem.write (e.rx + e.offset.toNat) (((m.write 0 (hostBlock stream total.toNat k)).read 0 (4 * 128)).take
      ((e.received + hostCount stream total.toNat k).toNat - e.offset.toNat)) =
      mem.write buffer (stream.take (512 * k) ++ hostBlock stream total.toNat k) := by
    have hjoin := Mem.write_write_append mem buffer (stream.take (512 * k)) (hostBlock stream total.toNat k)
    rw [hfront] at hjoin
    rw [hreceived, hoffset, Nat.add_sub_cancel_left, hread, h.rx, h.memory, hjoin]
  rw [hblock]
  refine Prod.ext ?_ ?_
  · show Bus.mk (b.mem.write _ _) (history ++ [.read (.readData e.buf e.addr)]) = _
    rw [h.buf, h.addr]
    exact congrArg (fun m' => Bus.mk m' _) hmem
  · show UsbEp.mk _ _ _ _ _ _ _ (1 - e.buf) _ = _
    rw [h.buf, one_sub_parity]

/-- **`out_complete`, with a full block and more to come.** -/
theorem Receiving.advance (hserves : fw.Serves ep bufs stream) (h : Receiving mem ep buffer total bufs stream k b e)
    (hhost : 512 * (k + 1) ≤ stream.length) (hmore : 512 * (k + 1) < total.toNat) :
    let count := hostCount stream total.toNat k
    let r := fw.outComplete { b with history := b.history ++ [.event ep count] } e count
    Receiving mem ep buffer total bufs stream (k + 1) r.1 r.2 := by
  intro count r
  have hlen : (hostBlock stream total.toNat k).length = 512 := by
    rw [hostBlock_length, chunkLen]
    omega
  have hcount : count = 512 := UInt32.toNat_inj.mp ((hostCount_toNat _ _ _).trans hlen)
  have hshort := h.shortOf_toInt
  have hpos : shortOf e > 0 := Int32.lt_iff_toInt_lt.mpr (by rw [hshort]; show (0 : Int) < _; omega)
  have hword : (shortOf e).toUInt32 = UInt32.ofNat (chunkLen 512 total.toNat (k + 1)) := by
    have hcast : shortOf e = Int32.ofNat (chunkLen 512 total.toNat (k + 1)) := by
      apply Int32.toInt_inj.mp
      rw [hshort, Int32.toInt_ofNat_of_lt (by rw [chunkLen]; omega), chunkLen]
      omega
    rw [hcast, Int32.toUInt32_ofNat']
  have hcmd : Command.beginXfer e.addr (1 - e.buf) (shortOf e).toUInt32 =
      .beginXfer ep (parity (k + 1)) (UInt32.ofNat (chunkLen 512 total.toNat (k + 1))) := by
    rw [hword, h.addr, h.buf, one_sub_parity]
  have hstored := h.wire.stored count
  have harmed := h.wire.rearmed count (UInt32.ofNat (chunkLen 512 total.toNat (k + 1)))
  have hreceive := h.receiveBlock hserves (by rw [harmed]; exact hstored) (by rw [harmed]; exact not_mem_rearmed k _)
    (by omega)
  have hmore' := @outComplete_more fw { b with history := b.history ++ [.event ep count] } e count h.active hcount hpos
  rw [hcmd] at hmore'
  have hr : r = _ := hmore'.trans hreceive
  have hmem : stream.take (512 * k) ++ hostBlock stream total.toNat k = stream.take (512 * (k + 1)) := by
    rw [hostBlock, show chunkLen 512 total.toNat k = 512 by rw [chunkLen]; omega, Nat.mul_succ, List.take_add]
  have hreceived := h.received_toNat
  rw [hlen] at hreceived
  rw [hr]
  exact ⟨h.wire.next hmore count, hhost, hmore, congrArg (mem.write buffer) hmem, h.addr, h.rx, h.active, h.length, hreceived, rfl, rfl⟩

/-- **`out_complete`, with the last block**: what the host sent is in memory, and is reported. -/
theorem Receiving.complete (hserves : fw.Serves ep bufs stream) (h : Receiving mem ep buffer total bufs stream k b e)
    (hstream : stream.length ≤ total.toNat) (hlast : stream.length < 512 * (k + 1) ∨ total.toNat ≤ 512 * (k + 1)) :
    let count := hostCount stream total.toNat k
    let r := fw.outComplete { b with history := b.history ++ [.event ep count] } e count
    ∃ history, Came ep bufs stream total.toNat k history ∧
      r.1 = ⟨mem.write buffer stream, history ++ [.xferComplete ep (UInt32.ofNat stream.length)]⟩ ∧
      r.2.active = false := by
  intro count r
  have hlen := hostBlock_length stream total.toNat k
  rw [chunkLen] at hlen
  have hreached := h.reached
  have hreceived := h.received_toNat
  have hall : 512 * k + (hostBlock stream total.toNat k).length = stream.length := by omega
  have hlast' : count < 512 ∨ shortOf e = 0 := by
    rcases Nat.lt_or_ge (hostBlock stream total.toNat k).length 512 with hlt | hge
    · exact Or.inl (UInt32.lt_iff_toNat_lt.mpr (by rw [hostCount_toNat]; exact hlt))
    · refine Or.inr (Int32.toInt_inj.mp ?_)
      rw [h.shortOf_toInt]
      show _ = (0 : Int)
      omega
  have hword : e.received + count = UInt32.ofNat stream.length := by
    rw [← hall, ← hreceived, UInt32.ofNat_toNat]
  rcases Nat.eq_zero_or_pos (hostBlock stream total.toNat k).length with hnil | hpos
  · -- an empty block: nothing to copy, and everything before it has been
    have hcount : count = 0 := UInt32.toNat_inj.mp ((hostCount_toNat _ _ _).trans hnil)
    have hsame : e.received + count = e.offset := by rw [hcount, UInt32.add_zero, h.received]
    have hr : r = _ := outComplete_last fw h.active hlast' (outReceiveBlock_empty fw _ _ hsame)
    refine ⟨_, h.wire.event count, ?_, by rw [hr]⟩
    rw [hr]
    show Bus.mk b.mem (b.history ++ [.event ep count] ++ [.xferComplete e.addr e.offset]) = _
    rw [h.memory, h.addr, ← hsame, hword, List.take_of_length_le (by omega)]
  · have hcame := h.wire.came count
    have hreceive := h.receiveBlock hserves (h.wire.stored count) (by rw [hcame]; exact List.not_mem_nil) hpos
    have hr : r = _ := outComplete_last fw h.active hlast' hreceive
    have hmem : stream.take (512 * k) ++ hostBlock stream total.toNat k = stream := by
      have hrest : hostBlock stream total.toNat k = stream.drop (512 * k) :=
        List.take_of_length_le (by rw [List.length_drop, chunkLen]; omega)
      rw [hrest, List.take_append_drop]
    refine ⟨_, (h.wire.event count).read, ?_, by rw [hr]⟩
    rw [hr]
    show Bus.mk (mem.write buffer (stream.take (512 * k) ++ hostBlock stream total.toNat k)) (b.history ++
      [.event ep count] ++ [.read (.readData (parity k) ep)] ++ [.xferComplete e.addr (e.received + count)]) = _
    rw [hmem, h.addr, hword]

/-- **`dcd_edpt_xfer`**: the first buffer is armed. -/
theorem outXfer_receiving (e : UsbEp) (hpos : 0 < total.toNat) :
    Receiving mem e.addr buffer total bufs stream 0 (outXfer ⟨mem, []⟩ e buffer total).1
      (outXfer ⟨mem, []⟩ e buffer total).2 := by
  have hfirst : (if total > 512 then 512 else total.toUInt32) = UInt32.ofNat (chunkLen 512 total.toNat 0) := by
    apply UInt32.toNat_inj.mp
    rw [chunkLen_toNat, chunkLen]
    split
    · rename_i h
      have hlt : 512 < total.toNat := UInt16.lt_iff_toNat_lt.mp h
      show 512 = _
      omega
    · rename_i h
      have hle : ¬ 512 < total.toNat := fun hlt => h (UInt16.lt_iff_toNat_lt.mpr hlt)
      show total.toNat = _
      omega
  have hwire : Waits e.addr bufs stream total.toNat 0 (outXfer ⟨mem, []⟩ e buffer total).1.history := by
    show Waits e.addr bufs stream total.toNat 0
      [.cmd (.beginXfer e.addr (parity 0) (if total > 512 then 512 else total.toUInt32))]
    rw [hfirst]
    exact waits_first
  refine ⟨hwire, Nat.zero_le _, by omega, ?_, rfl, rfl, rfl, rfl, rfl, rfl, rfl⟩
  show mem = mem.write buffer (stream.take (512 * 0))
  rw [Nat.mul_zero, List.take_zero, Mem.write_nil]

end Transfer

/-! ## The endpoint among the others -/

theorem tuEdptDirIn_outAddr : ∀ i : Fin 16, tuEdptDirIn (outAddr i) = false := by decide

theorem epIndex_outAddr : ∀ i : Fin 16, epIndex (outAddr i) = i := by decide

/-- `dcd_edpt_xfer` on OUT endpoint `i`. -/
theorem dcdEdptXfer_out (fw : Firmware) (s : Bus × Dcd) (i : Fin 16) (buffer : Nat) (total : UInt16) :
    ((fw.dcdEdptXfer s (outAddr i) buffer total).1, ((fw.dcdEdptXfer s (outAddr i) buffer total).2.sOut i).ep) =
      outXfer s.1 (s.2.sOut i).ep buffer total := by
  simp only [Firmware.dcdEdptXfer, tuEdptDirIn_outAddr, Bool.false_eq_true, if_false]
  exact call_endpoint s.2.sOut (epIndex_outAddr i) _ _

/-- A transfer event for OUT endpoint `i`. -/
theorem xferEvent_out (fw : Firmware) (s : Bus × Dcd) (i : Fin 16) (n : UInt32) :
    ((fw.xferEvent s (outAddr i) n).1, ((fw.xferEvent s (outAddr i) n).2.sOut i).ep) =
      fw.outComplete { s.1 with history := s.1.history ++ [.event (outAddr i) n] } (s.2.sOut i).ep n := by
  simp only [Firmware.xferEvent, tuEdptDirIn_outAddr, Bool.false_eq_true, if_false]
  exact call_endpoint s.2.sOut (epIndex_outAddr i) _ _

/-! ## The transfer -/

section Rounds

variable {fw : Firmware} {mem : Mem} {d : Dcd} {i : Fin 16} {buffer : Nat} {total : UInt16} {bufs : UInt8 → Mem}
variable {stream : List UInt8} {k : Nat} {s : Bus × Dcd}

/-- A round, with the buffer of block `k` armed. -/
theorem outRound_eq (fw : Firmware) (h : Waits (outAddr i) bufs stream total.toNat k s.1.history) :
    fw.outRound (outAddr i) bufs stream s = fw.xferEvent s (outAddr i) (hostCount stream total.toNat k) := by
  unfold Firmware.outRound
  rw [h.armed]
  simp only [h.host, chunkLen_toNat, List.length_drop, hostCount, hostBlock_length]

/-- A round with a full block and more to come. -/
theorem Receiving.round (hserves : fw.Serves (outAddr i) bufs stream)
    (h : Receiving mem (outAddr i) buffer total bufs stream k s.1 (s.2.sOut i).ep)
    (hhost : 512 * (k + 1) ≤ stream.length) (hmore : 512 * (k + 1) < total.toNat) :
    Receiving mem (outAddr i) buffer total bufs stream (k + 1) (fw.outRound (outAddr i) bufs stream s).1
      ((fw.outRound (outAddr i) bufs stream s).2.sOut i).ep := by
  have hnext := h.advance hserves hhost hmore
  have hevent := xferEvent_out fw s i (hostCount stream total.toNat k)
  rw [← outRound_eq fw h.wire] at hevent
  simp only [← hevent] at hnext
  exact hnext

/-- The last round. -/
theorem Receiving.lastRound (hserves : fw.Serves (outAddr i) bufs stream)
    (h : Receiving mem (outAddr i) buffer total bufs stream k s.1 (s.2.sOut i).ep)
    (hstream : stream.length ≤ total.toNat) (hlast : stream.length < 512 * (k + 1) ∨ total.toNat ≤ 512 * (k + 1)) :
    ∃ history, Came (outAddr i) bufs stream total.toNat k history ∧
      (fw.outRound (outAddr i) bufs stream s).1 =
        ⟨mem.write buffer stream, history ++ [.xferComplete (outAddr i) (UInt32.ofNat stream.length)]⟩ ∧
      ((fw.outRound (outAddr i) bufs stream s).2.sOut i).ep.active = false := by
  have hdone := h.complete hserves hstream hlast
  have hevent := xferEvent_out fw s i (hostCount stream total.toNat k)
  rw [← outRound_eq fw h.wire] at hevent
  simp only [← hevent] at hdone
  exact hdone

/-- **Block by block**: after `k` full blocks the buffer of block `k` is armed. -/
theorem receiving_iterate (hpos : 0 < total.toNat) (hserves : fw.Serves (outAddr i) bufs stream) (k : Nat)
    (hk : k < min (chunkCount 512 total.toNat) (stream.length / 512 + 1)) :
    let s := (fw.outRound (outAddr i) bufs stream)^[k] (fw.dcdEdptXfer (⟨mem, []⟩, d) (outAddr i) buffer total)
    Receiving mem (outAddr i) buffer total bufs stream k s.1 (s.2.sOut i).ep := by
  induction k with
  | zero =>
    have hstart := dcdEdptXfer_out fw (⟨mem, []⟩, d) i buffer total
    have hreceiving := @outXfer_receiving mem buffer total bufs stream (d.sOut i).ep hpos
    rw [← hstart, (d.sOut i).addressed] at hreceiving
    exact hreceiving
  | succ k ih =>
    have hmore : 512 * (k + 1) < total.toNat := (succ_lt_chunkCount (by decide) total.toNat k).mp (by omega)
    simp only [Function.iterate_succ_apply']
    exact (ih (by omega)).round hserves (by omega) hmore

/-- **USB OUT transfers.** Whatever the length, a host that sends no more than that, in full blocks and one short or
    empty block where it ends early, finds its bytes in memory and nothing else changed there. The transfer is
    reported once, last of all and with the length of what came; nothing stays armed, no more than the length was ever
    armed, and no buffer is read while it is. -/
theorem out_transfer_delivers (fw : Firmware) (mem : Mem) (d : Dcd) (i : Fin 16) (buffer : Nat) (total : UInt16)
    (bufs : UInt8 → Mem) (stream : List UInt8) (hpos : 1 ≤ total.toNat) (hstream : stream.length ≤ total.toNat)
    (hserves : fw.Serves (outAddr i) bufs stream) :
    let s := (fw.outRound (outAddr i) bufs stream)^[min (chunkCount 512 total.toNat) (stream.length / 512 + 1)]
      (fw.dcdEdptXfer (⟨mem, []⟩, d) (outAddr i) buffer total)
    let c := (receiver (outAddr i) bufs stream).run s.1.history
    s.1.mem = mem.write buffer stream ∧
      completions s.1.history = [(outAddr i, UInt32.ofNat stream.length)] ∧
      s.1.history.getLast? = some (.xferComplete (outAddr i) (UInt32.ofNat stream.length)) ∧
      c.armed = [] ∧ c.host = [] ∧
      (s.1.history.map (Action.arms (outAddr i))).sum ≤ total.toNat ∧
      (receiver (outAddr i) bufs stream).Along (Receiver.Spares (outAddr i)) s.1.history ∧
      (∀ a ∈ s.1.history, a.Fits) ∧
      (s.2.sOut i).ep.active = false := by
  intro s c
  obtain ⟨k, hk⟩ : ∃ k, min (chunkCount 512 total.toNat) (stream.length / 512 + 1) = k + 1 :=
    ⟨min ((total.toNat - 1) / 512) (stream.length / 512), Nat.succ_min_succ _ _⟩
  have hlast : stream.length < 512 * (k + 1) ∨ total.toNat ≤ 512 * (k + 1) := by
    have hcount := succ_lt_chunkCount (b := 512) (by decide) total.toNat k
    omega
  have hreceiving := @receiving_iterate fw mem d i buffer total bufs stream hpos hserves k (by omega)
  obtain ⟨history, hcame, hbus, hactive⟩ := hreceiving.lastRound hserves hstream hlast
  rw [← Function.iterate_succ_apply' (fw.outRound (outAddr i) bufs stream), Nat.succ_eq_add_one, ← hk] at hbus hactive
  have hhistory : s.1.history = history ++ [.xferComplete (outAddr i) (UInt32.ofNat stream.length)] := by rw [hbus]
  have hrun : c = (receiver (outAddr i) bufs stream).run history := by
    show (receiver (outAddr i) bufs stream).run s.1.history = _
    rw [hhistory, receiver_concat]
    rfl
  refine ⟨by rw [hbus], ?_, ?_, ?_, ?_, ?_, ?_, ?_, hactive⟩
  · rw [hhistory, completions_complete, hcame.quiet]
    rfl
  · rw [hhistory, List.getLast?_concat]
  · rw [hrun, hcame.armed]
  · rw [hrun, hcame.host, chunkLen]
    exact List.drop_eq_nil_of_le (by omega)
  · rw [hhistory, arms_concat, hcame.budget]
    exact Nat.min_le_left _ _
  · rw [hhistory]
    exact Machine.along_concat hcame.spares (Receiver.spares_of_none rfl)
  · rw [hhistory]
    exact fits_concat hcame.fits trivial

/-- A cartridge that is ready at every poll and serves the buffers the host fills. -/
def servingFirmware (bufs : UInt8 → Mem) (stream : List UInt8) : Firmware where
  pacing _ := ⟨List.replicate kBlockPhaseWords true, List.count_replicate_self, by rw [List.length_replicate]; decide⟩
  response history c :=
    match c with
    | .readData off ep => wordsOf ((((receiver ep bufs stream).run history).bufs off).read 0 (4 * kBlockPhaseWords))
    | _                => []

/-- Five hundred and fourteen bytes where six hundred would fit: one full block and a short one. -/
theorem out_transfer_short :
    let ep : UsbEp := ⟨0, 0, 0, 0, 0, 0, 0, 0, false⟩
    let d := (dcdInit ⟨Mem.zero, []⟩ (fun _ => ep) (fun _ => ep)).2
    let stream : List UInt8 := List.replicate 514 7
    let fw := servingFirmware (fun _ => Mem.zero) stream
    let s := (fw.outRound (outAddr 2) (fun _ => Mem.zero) stream)^[2]
      (fw.dcdEdptXfer (⟨Mem.zero, []⟩, d) (outAddr 2) 1000 600)
    s.1.mem = Mem.zero.write 1000 stream ∧ completions s.1.history = [(2, 514)] := by
  intro ep d stream fw s
  have hlen : stream.length = 514 := List.length_replicate
  clear_value stream
  have h := out_transfer_delivers fw Mem.zero d 2 1000 600 (fun _ => Mem.zero) stream (by decide)
    (by rw [hlen]; decide) (fun _ _ _ => rfl)
  have hrounds : min (chunkCount 512 (600 : UInt16).toNat) (514 / 512 + 1) = 2 := by decide
  rw [hlen, hrounds] at h
  obtain ⟨hmem, hdone, -⟩ := h
  exact ⟨hmem, hdone⟩

end Rounds

end Usb

end GekkoPak
