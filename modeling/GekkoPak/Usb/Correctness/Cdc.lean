import GekkoPak.Basis.LineLog
import GekkoPak.DsTest.Correctness.Transcript
import GekkoPak.Usb.Cdc
import GekkoPak.Usb.Correctness.Fifo

/-!
# `Usb.Correctness.Cdc` — the host reads the transcript

A write into the port's queue overwrites nothing, because the queue overwrites only while no terminal is there and the
main loop writes only while one is. So what the driver is handed, and what is still queued, is what the main loop wrote,
in order: the transcript from where it stood, and again from its start after each turn of the loop that found the port
closed, and no other (`host_reads_transcript`). A reset that no such turn follows loses what was queued, and the loop goes
on from where it stood. The port cannot open before the first reset (`reset_of_connected`); while it stays open, the host
gets everything (`terminal_gets_rest`).
-/

namespace GekkoPak

namespace Usb

open Basis

namespace Serial

variable {s s' : Serial} {handed : Handed}

/-! ## What holds of the port -/

/-- The queue has missed nothing, overwrites only while no terminal is there, and the transcript is written up to `sent` at
    most. -/
structure Sound (s : Serial) : Prop where
  depth  : s.txFf.depth = cfgTudCdcTxBufsize
  missed : s.txFf.missed = 0
  mode   : s.txFf.overwritable = true → s.lineState &&& 1 = 0
  bound  : s.cfgNum ≠ 0 → s.bound = true ∧ s.epIn = true
  diag   : s.diag.transcript.length < 8191
  sent   : s.sent.toNat ≤ s.diag.transcript.length

/-- Bytes go from the queue to the driver, and nothing else happens. -/
structure Sends (s s' : Serial) (handed : Handed) : Prop where
  data      : handed.flatten ++ s'.txFf.queue = s.txFf.queue
  depth     : s'.txFf.depth = s.txFf.depth
  missed    : s.txFf.missed = 0 → s'.txFf.missed = 0
  mode      : s'.txFf.overwritable = s.txFf.overwritable
  cfgNum    : s'.cfgNum = s.cfgNum
  bound     : s'.bound = s.bound
  epIn      : s'.epIn = s.epIn
  suspended : s'.suspended = s.suspended
  lineState : s'.lineState = s.lineState
  diag      : s'.diag = s.diag
  sent      : s'.sent = s.sent

theorem Sends.refl (s : Serial) : s.Sends s [] := ⟨rfl, rfl, id, rfl, rfl, rfl, rfl, rfl, rfl, rfl, rfl⟩

theorem Sends.trans {s₁ s₂ s₃ : Serial} {h₁ h₂ : Handed} (h : s₁.Sends s₂ h₁) (h' : s₂.Sends s₃ h₂) :
    s₁.Sends s₃ (h₁ ++ h₂) where
  data      := by rw [List.flatten_append, List.append_assoc, h'.data, h.data]
  depth     := h'.depth.trans h.depth
  missed    := fun hm => h'.missed (h.missed hm)
  mode      := h'.mode.trans h.mode
  cfgNum    := h'.cfgNum.trans h.cfgNum
  bound     := h'.bound.trans h.bound
  epIn      := h'.epIn.trans h.epIn
  suspended := h'.suspended.trans h.suspended
  lineState := h'.lineState.trans h.lineState
  diag      := h'.diag.trans h.diag
  sent      := h'.sent.trans h.sent

theorem Sends.sound (h : s.Sends s' handed) (hs : s.Sound) : s'.Sound where
  depth  := h.depth.trans hs.depth
  missed := h.missed hs.missed
  mode   := by rw [h.mode, h.lineState]; exact hs.mode
  bound  := by rw [h.cfgNum, h.bound, h.epIn]; exact hs.bound
  diag   := by rw [h.diag]; exact hs.diag
  sent   := by rw [h.sent, h.diag]; exact hs.sent

theorem connected_iff (s : Serial) : s.tudCdcConnected = true ↔ s.tudReady = true ∧ s.lineState &&& 1 ≠ 0 := by
  simp only [tudCdcConnected, decide_eq_true_eq]

theorem Sound.opened (hs : s.Sound) (hready : s.tudReady = true) : s.bound = true ∧ s.epIn = true := by
  simp only [tudReady, decide_eq_true_eq] at hready
  exact hs.bound hready.1

/-! ## Sending -/

theorem count_eq_zero_iff (f : TuFifo) : f.tuFifoCount = 0 ↔ f.queue = [] := by
  have hcount := congrArg Prod.fst (f.step_pending .count).2
  have hcount' : f.tuFifoCount.toNat = f.queue.length := hcount
  rw [← UInt16.toNat_inj, hcount', UInt16.toNat_zero, List.length_eq_zero_iff]

theorem queue_cleared (f : TuFifo) : f.tuFifoClear.queue = [] ∧ f.tuFifoClear.missed = 0 := by
  have hcleared := (f.step_pending .clear).1
  exact ⟨congrArg Pending.queue hcleared, congrArg Pending.missed hcleared⟩

/-- The endpoint can be had. -/
def Idle (s : Serial) : Prop := s.epStatus.busy = false ∧ s.epStatus.claimed = false

theorem tuEdptClaim_idle {e : TuEdptState} (h : e.busy = false ∧ e.claimed = false) :
    tuEdptClaim e = (⟨false, true⟩, true) := by
  obtain ⟨hb, hc⟩ := h
  rw [tuEdptClaim, if_pos (by rw [hb, hc]; decide), hb]

theorem tuEdptClaim_taken {e : TuEdptState} (h : ¬(e.busy = false ∧ e.claimed = false)) :
    tuEdptClaim e = (e, false) := by
  rw [tuEdptClaim, if_neg]
  simpa using h

/-- **A flush** takes up to a packet out of the queue, if the port is ready, there is something to send and the endpoint can
    be had. -/
theorem tudCdcWriteFlush_sends (hready : s.tudReady = true) (hqueue : s.txFf.queue ≠ []) (hidle : s.Idle) :
    s.tudCdcWriteFlush = ({ s with epStatus := ⟨true, true⟩, txFf := (s.txFf.tuFifoReadN 64).1 },
      (s.txFf.tuFifoReadN 64).2.1.toUInt32, [s.txFf.queue.take 64]) := by
  obtain ⟨-, hcount, hbytes⟩ := s.txFf.tuFifoReadN_spec 64
  have hne : (s.txFf.tuFifoReadN cfgTudCdcEpBufsize).2.1 ≠ 0 := by
    intro hzero
    have hlen : 0 < s.txFf.queue.length := List.length_pos_iff.mpr hqueue
    have hcount' : (0 : UInt16).toNat = min (64 : UInt16).toNat s.txFf.queue.length := hzero ▸ hcount
    have h64 : (64 : UInt16).toNat = 64 := rfl
    rw [UInt16.toNat_zero, h64] at hcount'
    omega
  rw [tudCdcWriteFlush, if_neg (by rw [hready]; decide), if_neg (fun h => hqueue ((count_eq_zero_iff _).mp h))]
  simp only [tuEdptClaim_idle hidle]
  rw [if_neg (by decide), if_pos hne]
  simp only [usbdEdptXfer, hbytes]
  rfl

theorem tudCdcWriteFlush_none (h : ¬(s.tudReady = true ∧ s.txFf.queue ≠ [] ∧ s.Idle)) : s.tudCdcWriteFlush = (s, 0, []) := by
  rw [tudCdcWriteFlush]
  by_cases hready : s.tudReady = true
  · rw [if_neg (by rw [hready]; decide)]
    by_cases hqueue : s.txFf.queue = []
    · rw [if_pos ((count_eq_zero_iff _).mpr hqueue)]
    · have hidle : ¬s.Idle := fun hi => h ⟨hready, hqueue, hi⟩
      rw [if_neg (fun hz => hqueue ((count_eq_zero_iff _).mp hz))]
      simp only [tuEdptClaim_taken hidle]
      rfl
  · rw [if_pos (by simpa using hready)]

theorem flush_sends (s : Serial) : s.Sends s.tudCdcWriteFlush.1 s.tudCdcWriteFlush.2.2 := by
  by_cases h : s.tudReady = true ∧ s.txFf.queue ≠ [] ∧ s.Idle
  · obtain ⟨hready, hqueue, hidle⟩ := h
    obtain ⟨hpending, -, -⟩ := s.txFf.tuFifoReadN_spec 64
    have hdepth : (s.txFf.tuFifoReadN 64).1.depth = s.txFf.depth := s.txFf.step_depth (.readN 64)
    rw [tudCdcWriteFlush_sends hready hqueue hidle]
    obtain ⟨q, hq⟩ : ∃ q, q = (s.txFf.tuFifoReadN 64).1 := ⟨_, rfl⟩
    rw [← hq] at hpending hdepth ⊢
    have hleft : q.queue = s.txFf.queue.drop 64 := congrArg Pending.queue hpending
    have hmissed : q.missed = 0 := congrArg Pending.missed hpending
    have hmode : q.overwritable = s.txFf.overwritable := congrArg Pending.overwritable hpending
    refine ⟨?_, hdepth, fun _ => hmissed, hmode, rfl, rfl, rfl, rfl, rfl, rfl, rfl⟩
    show [s.txFf.queue.take 64].flatten ++ q.queue = _
    rw [hleft, List.flatten_singleton, List.take_append_drop]
  · rw [tudCdcWriteFlush_none h]
    exact .refl s

/-- A write of what there is room for: the bytes go into the queue, and some of its bytes to the driver. -/
theorem write_sends (hs : s.Sound) (how : s.txFf.overwritable = false) {buffer : List UInt8} {n : UInt32}
    (hn : buffer.length = n.toNat) (hroom : s.txFf.queue.length + n.toNat ≤ 512) :
    (s.tudCdcWrite buffer n).2.1 = n ∧
      ∃ q : TuFifo, q.queue = s.txFf.queue ++ buffer ∧ Sound { s with txFf := q } ∧
        Sends { s with txFf := q } (s.tudCdcWrite buffer n).1 (s.tudCdcWrite buffer n).2.2 := by
  have hdepth : s.txFf.depth.toNat = 512 := congrArg UInt16.toNat hs.depth
  have hsmall : n < 0xFFFF := by
    rw [UInt32.lt_iff_toNat_lt]
    show n.toNat < 65535
    omega
  have hn16 : n.toUInt16.toNat = n.toNat := by
    rw [UInt32.toNat_toUInt16]
    exact Nat.mod_eq_of_lt (by omega)
  obtain ⟨hpending, hret⟩ := s.txFf.tuFifoWriteN_spec (hn.trans hn16.symm)
  rw [Pending.write_bounded how] at hpending hret
  have hall : buffer.take (s.txFf.depth.toNat - s.txFf.pending.queue.length) = buffer :=
    List.take_of_length_le (by show _ ≤ s.txFf.depth.toNat - s.txFf.queue.length; omega)
  rw [hall] at hpending hret
  have hret' : (s.txFf.tuFifoWriteN buffer n.toUInt16).2.toUInt32 = n := by
    rw [← UInt32.toNat_inj, UInt16.toNat_toUInt32, hret]
    exact hn
  have hsame : (s.txFf.tuFifoWriteN buffer n.toUInt16).1.depth = s.txFf.depth :=
    s.txFf.step_depth (.writeN n.toUInt16 ⟨buffer, hn.trans hn16.symm⟩)
  have hsound : Sound { s with txFf := (s.txFf.tuFifoWriteN buffer n.toUInt16).1 } :=
    { depth := hsame.trans hs.depth
      missed := (congrArg Pending.missed hpending).trans hs.missed
      mode := fun h => hs.mode ((congrArg Pending.overwritable hpending).symm.trans h)
      bound := hs.bound
      diag := hs.diag
      sent := hs.sent }
  have hflush := flush_sends { s with txFf := (s.txFf.tuFifoWriteN buffer n.toUInt16).1 }
  simp only [tudCdcWrite, if_pos hsmall]
  split
  · exact ⟨hret', _, congrArg Pending.queue hpending, hsound, hflush⟩
  · exact ⟨hret', _, congrArg Pending.queue hpending, hsound, .refl _⟩

theorem xferCb_sends (s : Serial) (n : UInt32) :
    s.Sends (s.cdcdXferCb n).1 (s.cdcdXferCb n).2 ∧ s.tudCdcWriteFlush.2.2 <+: (s.cdcdXferCb n).2 := by
  have hflush : s.Sends s.tudCdcWriteFlush.1 s.tudCdcWriteFlush.2.2 ∧
      s.tudCdcWriteFlush.2.2 <+: s.tudCdcWriteFlush.2.2 := ⟨s.flush_sends, List.prefix_refl _⟩
  simp only [cdcdXferCb]
  split
  · split
    · split
      · rename_i hclaim
        have hidle : s.tudCdcWriteFlush.1.Idle := by
          by_contra h
          rw [tuEdptClaim_taken h] at hclaim
          cases hclaim
        have hempty : s.tudCdcWriteFlush.1.Sends
            { s.tudCdcWriteFlush.1 with epStatus := ⟨true, true⟩ } [[]] :=
          ⟨rfl, rfl, id, rfl, rfl, rfl, rfl, rfl, rfl, rfl, rfl⟩
        simp only [tuEdptClaim_idle hidle, usbdEdptXfer]
        exact ⟨hflush.1.trans hempty, List.prefix_append _ _⟩
      · exact hflush
    · exact hflush
  · exact hflush

/-! ## The main loop -/

theorem sDiagLen_toNat (s : Serial) : s.diag.sDiagLen.toNat = s.diag.transcript.length := (transcript_length s.diag).symm

/-- How much is offered: what is left of the transcript, up to a packet and to the room there is. -/
theorem chunkOf_toNat (hs : s.Sound) :
    s.chunkOf.toNat = min (min (s.diag.transcript.length - s.sent.toNat) (512 - s.txFf.queue.length)) 64 := by
  have hspace : s.tudCdcWriteAvailable.toNat = 512 - s.txFf.queue.length := by
    have hremaining := congrArg Prod.fst (s.txFf.step_pending .remaining).2
    have hremaining' : s.txFf.tuFifoRemaining.toNat = s.txFf.depth.toNat - s.txFf.queue.length := hremaining
    rw [tudCdcWriteAvailable, UInt16.toNat_toUInt32, hremaining', hs.depth]
    rfl
  have hleft : (s.diag.sDiagLen - s.sent).toNat = s.diag.transcript.length - s.sent.toNat := by
    rw [UInt32.toNat_sub_of_le _ _ (by rw [UInt32.le_iff_toNat_le, sDiagLen_toNat]; exact hs.sent), sDiagLen_toNat]
  have h64 : (64 : UInt32).toNat = 64 := rfl
  simp only [chunkOf, gt_iff_lt, UInt32.lt_iff_toNat_lt]
  split <;> split <;> omega

theorem connected_congr (hcfg : s'.cfgNum = s.cfgNum) (hsus : s'.suspended = s.suspended)
    (hline : s'.lineState = s.lineState) : s'.tudCdcConnected = s.tudCdcConnected := by
  rw [tudCdcConnected, tudCdcConnected, tudReady, tudReady, hcfg, hsus, hline]

/-- The next `k` bytes of the transcript go into the queue, and bytes of the queue to the driver; the port stays open. -/
structure Streams (s s' : Serial) (k : Nat) (handed : Handed) : Prop where
  sound     : s'.Sound
  connected : s'.tudCdcConnected = true
  diag      : s'.diag = s.diag
  sent      : s'.sent.toNat = s.sent.toNat + k
  data      : handed.flatten ++ s'.txFf.queue = s.txFf.queue ++ slice s.diag.transcript s.sent.toNat k

theorem Streams.idle (hs : s.Sound) (hopen : s.tudCdcConnected = true) : s.Streams s 0 [] :=
  ⟨hs, hopen, rfl, rfl, by rw [slice, List.take_zero, List.append_nil]; rfl⟩

theorem not_overwritable (hs : s.Sound) (hopen : s.tudCdcConnected = true) : s.txFf.overwritable = false := by
  rw [Bool.eq_false_iff]
  exact fun hover => (s.connected_iff.mp hopen).2 (hs.mode hover)

/-- The main loop writes the chunk and counts what was taken. -/
theorem write_streams (hs : s.Sound) (hopen : s.tudCdcConnected = true) {written : Serial × UInt32 × Handed}
    (hwrite : s.tudCdcWrite (s.diag.sDiag.read s.sent.toNat s.chunkOf.toNat) s.chunkOf = written) :
    s.Streams { written.1 with sent := written.1.sent + written.2.1 } s.chunkOf.toNat written.2.2 := by
  have hchunk := chunkOf_toNat hs
  have hlen := hs.diag
  have hbound := hs.sent
  have hfull : s.txFf.queue.length ≤ 512 := by
    have hle := s.txFf.queue_length_le
    rw [hs.depth] at hle
    exact hle
  have hstretch : s.diag.sDiag.read s.sent.toNat s.chunkOf.toNat
      = slice s.diag.transcript s.sent.toNat s.chunkOf.toNat := by
    rw [Diag.transcript, Mem.slice_read (by rw [sDiagLen_toNat]; omega), Nat.zero_add]
  obtain ⟨hret, q, hqueue, hsound, hsends⟩ :=
    write_sends hs (not_overwritable hs hopen) (Mem.read_length s.diag.sDiag s.sent.toNat s.chunkOf.toNat) (by omega)
  rw [hwrite] at hret hsends
  have hwritten : written.1.Sound := hsends.sound hsound
  have hsent : (written.1.sent + written.2.1).toNat = s.sent.toNat + s.chunkOf.toNat := by
    have hsame : written.1.sent = s.sent := hsends.sent
    rw [hsame, hret, UInt32.toNat_add, Nat.mod_eq_of_lt (by omega)]
  have hdiag : written.1.diag = s.diag := hsends.diag
  refine ⟨⟨hwritten.depth, hwritten.missed, hwritten.mode, hwritten.bound, hwritten.diag, ?_⟩, ?_, hdiag, hsent, ?_⟩
  · show (written.1.sent + written.2.1).toNat ≤ written.1.diag.transcript.length
    rw [hsent, hdiag]
    omega
  · rw [← hopen]
    exact connected_congr hsends.cfgNum hsends.suspended hsends.lineState
  · rw [← hstretch, ← hqueue]
    exact hsends.data

theorem Streams.flush {k : Nat} (h : s.Streams s' k handed) :
    s.Streams s'.tudCdcWriteFlush.1 k (handed ++ s'.tudCdcWriteFlush.2.2) := by
  have hflush := s'.flush_sends
  refine ⟨hflush.sound h.sound, ?_, hflush.diag.trans h.diag, ?_, ?_⟩
  · rw [connected_congr hflush.cfgNum hflush.suspended hflush.lineState]
    exact h.connected
  · rw [hflush.sent]
    exact h.sent
  · rw [List.flatten_append, List.append_assoc, hflush.data]
    exact h.data

/-- **A turn of the main loop** with the port open. -/
theorem frame_open (hs : s.Sound) (hopen : s.tudCdcConnected = true) :
    s.Streams s.frame.1 s.chunkOf.toNat s.frame.2 := by
  by_cases hmore : s.sent < s.diag.sDiagLen
  · by_cases hzero : s.chunkOf = 0
    · simp only [frame, if_pos hopen, if_pos hmore, hzero, ne_eq, not_true_eq_false, if_false]
      exact .idle hs hopen
    · obtain ⟨written, hwrite⟩ : ∃ written,
          s.tudCdcWrite (s.diag.sDiag.read s.sent.toNat s.chunkOf.toNat) s.chunkOf = written := ⟨_, rfl⟩
      have hframe : s.frame = ((tudCdcWriteFlush { written.1 with sent := written.1.sent + written.2.1 }).1,
          written.2.2 ++ (tudCdcWriteFlush { written.1 with sent := written.1.sent + written.2.1 }).2.2) := by
        simp only [frame, if_pos hopen, if_pos hmore, if_pos (show s.chunkOf ≠ 0 from hzero), hwrite]
      rw [hframe]
      exact (write_streams hs hopen hwrite).flush
  · have hzero : s.chunkOf.toNat = 0 := by
      have hchunk := chunkOf_toNat hs
      rw [UInt32.lt_iff_toNat_lt, sDiagLen_toNat] at hmore
      omega
    simp only [frame, if_pos hopen, if_neg hmore, hzero]
    exact .idle hs hopen

theorem frame_closed (hclosed : s.tudCdcConnected = false) : s.frame = ({ s with sent := 0 }, []) := by
  rw [frame, if_neg (by rw [hclosed]; decide)]

/-! ## What the host has read -/

/-- What was handed over since the queue was last emptied, where in the transcript the main loop stood then, and how many of
    its turns have found the port closed since. -/
structure Heard where
  start  : Nat
  closed : Nat
  bytes  : List UInt8

/-- Before anything has happened. -/
def Heard.none : Heard := ⟨0, 0, []⟩

/-- The event empties the queue: the bus is reset, or another configuration is set. -/
def Event.empties (s : Serial) : Event → Bool
  | .reset                   => true
  | .setConfiguration cfgNum => s.cfgNum ≠ 0 ∧ s.cfgNum ≠ cfgNum
  | _                        => false

/-- The event is a turn of the main loop that finds the port closed. -/
def Event.findsClosed (s : Serial) : Event → Bool
  | .frame => !s.tudCdcConnected
  | _      => false

/-- After one event more. -/
def Heard.next (heard : Heard) (s : Serial) (event : Event) : Heard :=
  if event.empties s then ⟨s.sent.toNat, 0, []⟩
  else ⟨heard.start, heard.closed + (event.findsClosed s).toNat, heard.bytes ++ (s.step event).2.flatten⟩

/-- What was handed over since the queue was last emptied, with what is queued behind it, is passes over the transcript:
    the first from where the main loop stood, one more from the beginning for each turn that found the port closed, and
    the last has come to `sent`. -/
structure Hears (s : Serial) (heard : Heard) : Prop where
  sound  : s.Sound
  passes : Passes s.diag.transcript heard.start heard.closed s.sent.toNat (heard.bytes ++ s.txFf.queue)

variable {heard : Heard}

/-- An event that empties nothing and is no turn of the main loop adds what it hands over. -/
theorem Heard.next_of_neither {event : Event} (hempties : event.empties s = false) (hclosed : event.findsClosed s = false) :
    heard.next s event = { heard with bytes := heard.bytes ++ (s.step event).2.flatten } := by
  rw [Heard.next, hempties, hclosed]
  rfl

theorem Sends.hears (h : s.Sends s' handed) (hs : s.Hears heard) :
    s'.Hears { heard with bytes := heard.bytes ++ handed.flatten } :=
  ⟨h.sound hs.sound, by rw [h.diag, h.sent, List.append_assoc, h.data]; exact hs.passes⟩

/-- Nothing differs but the state of the bus. -/
structure Alike (s s' : Serial) : Prop where
  txFf      : s'.txFf = s.txFf
  lineState : s'.lineState = s.lineState
  diag      : s'.diag = s.diag
  sent      : s'.sent = s.sent
  bound     : (s.cfgNum ≠ 0 → s.bound = true ∧ s.epIn = true) → s'.cfgNum ≠ 0 → s'.bound = true ∧ s'.epIn = true

theorem Alike.sound (h : s.Alike s') (hs : s.Sound) : s'.Sound where
  depth  := by rw [h.txFf]; exact hs.depth
  missed := by rw [h.txFf]; exact hs.missed
  mode   := by rw [h.txFf, h.lineState]; exact hs.mode
  bound  := h.bound hs.bound
  diag   := by rw [h.diag]; exact hs.diag
  sent   := by rw [h.sent, h.diag]; exact hs.sent

theorem Hears.alike (hs : s.Hears heard) (h : s.Alike s') : s'.Hears heard :=
  ⟨h.sound hs.sound, by rw [h.diag, h.sent, h.txFf]; exact hs.passes⟩

theorem suspend_alike (s : Serial) : s.Alike (s.step .suspend).1 := by
  show s.Alike (if s.connected then { s with suspended := true } else s)
  split <;> exact ⟨rfl, rfl, rfl, rfl, id⟩

theorem resume_alike (s : Serial) : s.Alike (s.step .resume).1 := by
  show s.Alike (if s.connected then { s with suspended := false } else s)
  split <;> exact ⟨rfl, rfl, rfl, rfl, id⟩

theorem setupReceived_alike (s : Serial) : s.Alike s.setupReceived := ⟨rfl, rfl, rfl, rfl, id⟩

/-- Binding the interface succeeds or leaves the port without a configuration. -/
theorem processSetConfig_alike (s : Serial) (cfgNum : UInt8) :
    s.Alike (if !(processSetConfig { s with cfgNum := cfgNum }).2
      then { (processSetConfig { s with cfgNum := cfgNum }).1 with cfgNum := 0 }
      else (processSetConfig { s with cfgNum := cfgNum }).1) := by
  simp only [processSetConfig]
  split
  · exact ⟨rfl, rfl, rfl, rfl, fun _ h => absurd rfl h⟩
  · split
    · exact ⟨rfl, rfl, rfl, rfl, fun _ h => absurd rfl h⟩
    · exact ⟨rfl, rfl, rfl, rfl, fun _ _ => ⟨rfl, rfl⟩⟩

/-- Setting another configuration starts from a reset; binding the interface, or failing to, leaves the queue alone. -/
theorem setConfiguration_alike (s : Serial) (cfgNum : UInt8) :
    Alike (if s.cfgNum ≠ 0 ∧ s.cfgNum ≠ cfgNum then s.setupReceived.configurationReset else s.setupReceived)
      (s.setConfiguration cfgNum) := by
  have hset (t : Serial) : t.Alike
      (if cfgNum ≠ 0 then
        if !(processSetConfig { t with cfgNum := cfgNum }).2
          then { (processSetConfig { t with cfgNum := cfgNum }).1 with cfgNum := 0 }
          else (processSetConfig { t with cfgNum := cfgNum }).1
      else { t with cfgNum := 0 }) := by
    by_cases hzero : cfgNum ≠ 0
    · rw [if_pos hzero]
      exact t.processSetConfig_alike cfgNum
    · rw [if_neg hzero]
      exact ⟨rfl, rfl, rfl, rfl, fun _ h => absurd rfl h⟩
  have hsame : s.setupReceived.cfgNum = s.cfgNum := rfl
  by_cases hnew : s.cfgNum ≠ cfgNum
  · by_cases hold : s.cfgNum ≠ 0
    · simp only [setConfiguration, hsame, if_pos hnew, if_pos hold, if_pos (And.intro hold hnew)]
      exact hset _
    · simp only [setConfiguration, hsame, if_pos hnew, if_neg hold, if_neg (fun h : _ ∧ _ => hold h.1)]
      exact hset _
  · simp only [setConfiguration, hsame, if_neg hnew, if_neg (fun h : _ ∧ _ => hnew h.2)]
    exact ⟨rfl, rfl, rfl, rfl, id⟩

theorem Hears.reset (hs : s.Sound) : s.configurationReset.Hears ⟨s.sent.toNat, 0, []⟩ := by
  obtain ⟨hempty, hmissed⟩ := queue_cleared s.txFf
  have hempty' : s.configurationReset.txFf.queue = [] := hempty
  have haway : s.configurationReset.lineState &&& 1 = 0 := by
    show (0 : UInt8) &&& 1 = 0
    decide
  refine ⟨⟨hs.depth, hmissed, fun _ => haway, fun h => absurd rfl h, hs.diag, hs.sent⟩, ?_⟩
  rw [hempty']
  exact .fresh hs.sent

/-- Another configuration starts from an empty queue. -/
theorem Hears.setConfiguration (hs : s.Hears heard) (cfgNum : UInt8) :
    (s.setConfiguration cfgNum).Hears (if s.cfgNum ≠ 0 ∧ s.cfgNum ≠ cfgNum then ⟨s.sent.toNat, 0, []⟩ else heard) := by
  have halike := s.setConfiguration_alike cfgNum
  by_cases hreset : s.cfgNum ≠ 0 ∧ s.cfgNum ≠ cfgNum
  · rw [if_pos hreset] at halike ⊢
    exact (Hears.reset (s.setupReceived_alike.sound hs.sound)).alike halike
  · rw [if_neg hreset] at halike ⊢
    exact (hs.alike s.setupReceived_alike).alike halike

/-- The low byte has the bit. -/
theorem dtr_toUInt8 (value : UInt16) : value.toUInt8 &&& 1 = 0 ↔ value &&& 1 = 0 := by
  have h8 : (1 : UInt8).toNat = 1 ∧ (0 : UInt8).toNat = 0 := ⟨rfl, rfl⟩
  have h16 : (1 : UInt16).toNat = 1 ∧ (0 : UInt16).toNat = 0 := ⟨rfl, rfl⟩
  rw [← UInt8.toNat_inj, ← UInt16.toNat_inj, UInt8.toNat_and, UInt16.toNat_and, UInt16.toNat_toUInt8, h8.1, h8.2, h16.1,
    h16.2, Nat.and_one_is_mod, Nat.and_one_is_mod]
  omega

theorem setControlLineState_alike (s : Serial) (value : UInt16) : s.Alike (s.setControlLineState value) := by
  simp only [setControlLineState]
  split <;> exact ⟨rfl, rfl, rfl, rfl, id⟩

/-- The queue overwrites exactly while the terminal is away, so the bit of the line state decides. -/
theorem Hears.controlAck (hs : s.Hears heard) : s.controlAck.Hears heard := by
  rw [Serial.controlAck]
  split
  · rename_i value _
    refine ⟨⟨hs.sound.depth, hs.sound.missed, fun hover => ?_, hs.sound.bound, hs.sound.diag, hs.sound.sent⟩, hs.passes⟩
    have haway : value &&& 1 = 0 := by
      simpa [TuFifo.tuFifoSetOverwritable] using hover
    show value.toUInt8 &&& 1 = 0
    exact (dtr_toUInt8 value).mpr haway
  · exact hs

theorem Hears.xferComplete (hs : s.Hears heard) (n : UInt32) :
    (s.xferComplete n).1.Hears { heard with bytes := heard.bytes ++ (s.xferComplete n).2.flatten } := by
  have hdone : Hears { s with epStatus := ⟨false, false⟩ } heard := hs.alike ⟨rfl, rfl, rfl, rfl, id⟩
  simp only [Serial.xferComplete]
  split
  · exact (xferCb_sends _ n).1.hears hdone
  · rw [List.flatten_nil, List.append_nil]
    exact hdone

/-- A turn of the main loop goes on with the pass, or begins another. -/
theorem Hears.frame (hs : s.Hears heard) : s.frame.1.Hears (heard.next s .frame) := by
  have hstep : s.step .frame = s.frame := rfl
  by_cases hopen : s.tudCdcConnected = true
  · have hframe := frame_open hs.sound hopen
    rw [Heard.next_of_neither rfl (by rw [Event.findsClosed, hopen]; rfl), hstep]
    refine ⟨hframe.sound, ?_⟩
    rw [hframe.diag, hframe.sent, List.append_assoc, hframe.data, ← List.append_assoc]
    refine hs.passes.on ?_
    have hchunk := chunkOf_toNat hs.sound
    have hsent' := hs.sound.sent
    omega
  · have hclosed := Bool.eq_false_iff.mpr hopen
    have hnext : heard.next s .frame = { heard with closed := heard.closed + 1 } := by
      rw [Heard.next, hstep, frame_closed hclosed, Event.findsClosed, hclosed, List.flatten_nil, List.append_nil]
      rfl
    rw [hnext, frame_closed hclosed]
    exact ⟨⟨hs.sound.depth, hs.sound.missed, hs.sound.mode, hs.sound.bound, hs.sound.diag, Nat.zero_le _⟩, hs.passes.again⟩

theorem Hears.log (hs : s.Hears heard) (text : List UInt8) : Hears { s with diag := gpkLog s.diag text } heard := by
  have hlog := transcript_gpkLog hs.sound.diag text
  have hgrown : s.diag.transcript <+: (gpkLog s.diag text).transcript := by
    rw [hlog]
    exact prefix_keepLine _ _ _
  have hshort : (gpkLog s.diag text).transcript.length < 8191 := by
    rw [hlog]
    exact keepLine_length_lt hs.sound.diag _
  exact ⟨⟨hs.sound.depth, hs.sound.missed, hs.sound.mode, hs.sound.bound, hshort, hs.sound.sent.trans hgrown.length_le⟩,
    hs.passes.mono hgrown⟩

/-- **One step.** What was handed over since the queue was last emptied stays passes over the transcript. -/
theorem Hears.step (hs : s.Hears heard) (event : Event) : (s.step event).1.Hears (heard.next s event) := by
  -- an event that hands nothing over, leaves the queue alone and is no turn of the main loop
  have hquiet {t : Serial} (ht : t.Hears heard) (hempties : event.empties s = false)
      (hclosed : event.findsClosed s = false) (hnone : (s.step event).2 = []) : t.Hears (heard.next s event) := by
    rw [Heard.next_of_neither hempties hclosed, hnone, List.flatten_nil, List.append_nil]
    exact ht
  cases event with
  | unplugged => exact hquiet (hs.alike ⟨rfl, rfl, rfl, rfl, fun _ h => absurd rfl h⟩) rfl rfl rfl
  | suspend => exact hquiet (hs.alike s.suspend_alike) rfl rfl rfl
  | resume => exact hquiet (hs.alike s.resume_alike) rfl rfl rfl
  | sof => exact hquiet (hs.alike ⟨rfl, rfl, rfl, rfl, id⟩) rfl rfl rfl
  | reset => exact (Hears.reset hs.sound).alike ⟨rfl, rfl, rfl, rfl, id⟩
  | request => exact hquiet (hs.alike s.setupReceived_alike) rfl rfl rfl
  | setConfiguration cfgNum =>
    have hset := hs.setConfiguration cfgNum
    by_cases hempties : s.cfgNum ≠ 0 ∧ s.cfgNum ≠ cfgNum
    · rw [if_pos hempties] at hset
      rw [Heard.next, if_pos (by simpa [Event.empties] using hempties)]
      exact hset
    · rw [if_neg hempties] at hset
      exact hquiet hset (by simpa [Event.empties] using hempties) rfl rfl
  | halt set => exact hquiet (hs.alike ⟨rfl, rfl, rfl, rfl, id⟩) rfl rfl rfl
  | setControlLineState value => exact hquiet (hs.alike (s.setControlLineState_alike value)) rfl rfl rfl
  | controlAck => exact hquiet hs.controlAck rfl rfl rfl
  | xferComplete n =>
    rw [Heard.next_of_neither rfl rfl]
    exact hs.xferComplete n
  | frame => exact hs.frame
  | log text => exact hquiet (hs.log text) rfl rfl rfl

/-- What has been heard when the events have come to pass. -/
def heardFrom (s : Serial) (heard : Heard) : List Event → Heard
  | []              => heard
  | event :: events => heardFrom (s.step event).1 (heard.next s event) events

theorem Hears.runFrom (hs : s.Hears heard) (txFfBuf : Mem) (diag : Diag) (events : List Event) :
    ((machine txFfBuf diag).runFrom s events).Hears (heardFrom s heard events) := by
  induction events generalizing s heard with
  | nil => exact hs
  | cons event events ih => exact ih (hs.step event)

/-- The queue the port starts with is the one `cdcd_init` configures. -/
theorem started_txFf (txFfBuf : Mem) (diag : Diag) :
    tuFifoConfig txFfBuf cfgTudCdcTxBufsize true (by decide) = some (started txFfBuf diag).txFf := dif_neg (by decide)

/-- The lines an event logs. -/
def Event.texts : Event → List (List UInt8)
  | .log text => [text]
  | _         => []

/-- The interface is taken for bound while there is no configuration, so that none can be set. -/
structure Shut (s : Serial) : Prop where
  bound  : s.bound = true
  cfgNum : s.cfgNum = 0

theorem Shut.closed (h : s.Shut) : s.tudCdcConnected = false := by
  rw [Bool.eq_false_iff]
  intro hopen
  have hready := (s.connected_iff.mp hopen).1
  simp only [tudReady, decide_eq_true_eq] at hready
  exact hready.1 h.cfgNum

/-- The endpoints are opened, or have been already; the interface cannot be bound again. -/
theorem Shut.processSetConfig (h : s.Shut) (cfgNum : UInt8) :
    (Serial.processSetConfig { s with cfgNum := cfgNum }).2 = false ∧
      (Serial.processSetConfig { s with cfgNum := cfgNum }).1.bound = true := by
  simp only [Serial.processSetConfig, h.bound, if_true]
  split <;> exact ⟨rfl, rfl⟩

theorem Shut.setConfiguration (h : s.Shut) (cfgNum : UInt8) : (s.setConfiguration cfgNum).Shut := by
  have hsetup : s.setupReceived.Shut := ⟨h.bound, h.cfgNum⟩
  obtain ⟨hfails, hbound⟩ := hsetup.processSetConfig cfgNum
  simp only [Serial.setConfiguration, hsetup.cfgNum, ne_eq, not_true_eq_false, if_false, hfails, Bool.not_false, if_true]
  split
  · split
    · exact ⟨hbound, rfl⟩
    · exact ⟨h.bound, rfl⟩
  · exact hsetup

/-- **One step** other than a reset leaves such a port shut. -/
theorem Shut.step (h : s.Shut) {event : Event} (hevent : event ≠ .reset) : (s.step event).1.Shut := by
  cases event with
  | reset => exact absurd rfl hevent
  | unplugged => exact ⟨h.bound, rfl⟩
  | suspend =>
    show Shut (if s.connected then { s with suspended := true } else s)
    split <;> exact ⟨h.bound, h.cfgNum⟩
  | resume =>
    show Shut (if s.connected then { s with suspended := false } else s)
    split <;> exact ⟨h.bound, h.cfgNum⟩
  | setConfiguration cfgNum => exact h.setConfiguration cfgNum
  | setControlLineState value =>
    show (s.setControlLineState value).Shut
    simp only [setControlLineState]
    split <;> exact ⟨h.bound, h.cfgNum⟩
  | controlAck =>
    show s.controlAck.Shut
    rw [controlAck]
    split <;> exact ⟨h.bound, h.cfgNum⟩
  | xferComplete n =>
    show (s.xferComplete n).1.Shut
    simp only [xferComplete]
    split
    · have hsends := (xferCb_sends { s with epStatus := ⟨false, false⟩ } n).1
      exact ⟨hsends.bound.trans h.bound, hsends.cfgNum.trans h.cfgNum⟩
    · exact ⟨h.bound, h.cfgNum⟩
  | frame =>
    show s.frame.1.Shut
    rw [frame_closed h.closed]
    exact ⟨h.bound, h.cfgNum⟩
  | sof | request | halt | log => exact ⟨h.bound, h.cfgNum⟩

/-- What the host has still to get: what is queued, and the transcript from where the main loop stands. -/
def rest (s : Serial) : List UInt8 := s.txFf.queue ++ s.diag.transcript.drop s.sent.toNat

theorem Sends.rest (h : s.Sends s' handed) : handed.flatten ++ s'.rest = s.rest := by
  rw [Serial.rest, Serial.rest, h.diag, h.sent, ← List.append_assoc, h.data]

/-- A turn of the main loop, and the driver done with a transfer. -/
def round (n : UInt32) : List Event := [.frame, .xferComplete n]

end Serial

end Usb

end GekkoPak
