import GekkoPak.Usb.Fifo
import GekkoPak.DsTest.Transcript

/-!
# `Usb.Cdc` — the transcript over the serial port

The sending half of `ds-test/usb/tinyusb/class/cdc/cdc_device.c`, what it uses of `device/usbd.c` and `tusb.c`, and the
part of the main loop of `ds-test/source/main.c` that streams the transcript. What the port's driver is handed is the
answer of each step; `dcd_edpt_xfer`, which takes it, always does.
-/

namespace GekkoPak

namespace Usb

open Basis

/-- `CFG_TUD_CDC_TX_BUFSIZE`. -/
abbrev cfgTudCdcTxBufsize : UInt16 := 512

/-- `CFG_TUD_CDC_EP_BUFSIZE`. -/
abbrev cfgTudCdcEpBufsize : UInt16 := 64

/-- `BULK_PACKET_SIZE`, at full speed. -/
abbrev bulkPacketSize : UInt32 := 64

/-! ## Endpoints -/

/-- `tu_edpt_state_t`. -/
structure TuEdptState where
  busy    : Bool
  claimed : Bool

/-- `tu_edpt_claim`. -/
def tuEdptClaim (e : TuEdptState) : TuEdptState × Bool :=
  if !e.busy ∧ !e.claimed then ({ e with claimed := true }, true) else (e, false)

/-- `tu_edpt_release`. -/
def tuEdptRelease (e : TuEdptState) : TuEdptState × Bool :=
  if e.claimed ∧ !e.busy then ({ e with claimed := false }, true) else (e, false)

/-- `_usbd_dev`, `_ctrl_xfer`, `_cdcd_itf[0]` and the main loop's variables, from `tud_init` on. `bound` says that `itf2drv`
    and `ep2drv` lead to the class driver, `epIn` that the port has its endpoints; `control` is the request whose
    acknowledgement the class driver is to be told of, when it is a SET_CONTROL_LINE_STATE. -/
structure Serial where
  connected : Bool
  suspended : Bool
  cfgNum    : UInt8
  bound     : Bool
  epIn      : Bool
  control   : Option UInt16
  epStatus  : TuEdptState
  lineState : UInt8
  txFf      : TuFifo
  diag      : Diag
  sent      : UInt32

/-- The transfers handed to the port's driver, in order. -/
abbrev Handed : Type := List (List UInt8)

namespace Serial

/-- `tud_ready`. -/
def tudReady (s : Serial) : Bool := s.cfgNum ≠ 0 ∧ !s.suspended

/-- `tud_cdc_connected`. -/
def tudCdcConnected (s : Serial) : Bool := s.tudReady ∧ s.lineState &&& 1 ≠ 0

/-- `usbd_edpt_xfer`, of an endpoint that is claimed. -/
def usbdEdptXfer (s : Serial) (buffer : List UInt8) : Serial × Bool × Handed :=
  if s.epStatus.busy then (s, false, [])
  else ({ s with epStatus := { s.epStatus with busy := true } }, true, [buffer])

/-! ## Sending -/

/-- `tud_cdc_n_write_flush`. -/
def tudCdcWriteFlush (s : Serial) : Serial × UInt32 × Handed :=
  if !s.tudReady then (s, 0, [])
  else if s.txFf.tuFifoCount = 0 then (s, 0, [])
  else
    let claim := tuEdptClaim s.epStatus
    if !claim.2 then (s, 0, [])
    else
      let pulled := s.txFf.tuFifoReadN cfgTudCdcEpBufsize
      let s := { s with epStatus := claim.1, txFf := pulled.1 }
      if pulled.2.1 ≠ 0 then
        let xfer := s.usbdEdptXfer pulled.2.2
        (xfer.1, if xfer.2.1 then pulled.2.1.toUInt32 else 0, xfer.2.2)
      else ({ s with epStatus := (tuEdptRelease s.epStatus).1 }, 0, [])

/-- `tud_cdc_n_write`, of `bufsize` bytes. -/
def tudCdcWrite (s : Serial) (buffer : List UInt8) (bufsize : UInt32) : Serial × UInt32 × Handed :=
  let n : UInt16 := if bufsize < 0xFFFF then bufsize.toUInt16 else 0xFFFF
  let written := s.txFf.tuFifoWriteN buffer n
  let s := { s with txFf := written.1 }
  -- flush if queue more than packet size
  if s.txFf.tuFifoCount.toUInt32 ≥ bulkPacketSize then
    let flush := s.tudCdcWriteFlush
    (flush.1, written.2.toUInt32, flush.2.2)
  else (s, written.2.toUInt32, [])

/-- `tud_cdc_n_write_available`. -/
def tudCdcWriteAvailable (s : Serial) : UInt32 := s.txFf.tuFifoRemaining.toUInt32

/-- `cdcd_xfer_cb`, of the IN endpoint. -/
def cdcdXferCb (s : Serial) (xferredBytes : UInt32) : Serial × Handed :=
  let flush := s.tudCdcWriteFlush
  let s := flush.1
  if flush.2.1 = 0 then
    -- a zero-length packet ends a transfer of whole packets
    if s.txFf.tuFifoCount = 0 ∧ xferredBytes ≠ 0 ∧ xferredBytes &&& (bulkPacketSize - 1) = 0 then
      let claim := tuEdptClaim s.epStatus
      if claim.2 then
        let xfer := { s with epStatus := claim.1 }.usbdEdptXfer []
        (xfer.1, flush.2.2 ++ xfer.2.2)
      else (s, flush.2.2)
    else (s, flush.2.2)
  else (s, flush.2.2)

/-! ## Events -/

/-- `configuration_reset`: `cdcd_reset`, and `_usbd_dev` cleared, with `DRVID_INVALID` in the driver maps. -/
def configurationReset (s : Serial) : Serial :=
  { s with
    lineState := 0
    epIn := false
    txFf := s.txFf.tuFifoClear.tuFifoSetOverwritable true
    connected := false
    suspended := false
    cfgNum := 0
    bound := false
    epStatus := ⟨false, false⟩ }

/-- `usbd_reset`. -/
def usbdReset (s : Serial) : Serial := { s.configurationReset with control := none }

/-- `DCD_EVENT_SETUP_RECEIVED`, up to what is requested. -/
def setupReceived (s : Serial) : Serial := { s with connected := true, control := none }

/-- `process_set_config`. `cdcd_open` refuses a port that has its endpoints; once it has opened them, the interface must not
    be bound yet. -/
def processSetConfig (s : Serial) : Serial × Bool :=
  if s.epIn then (s, false)
  else
    let s := { s with epIn := true }
    if s.bound then (s, false) else ({ s with bound := true }, true)

/-- `TUSB_REQ_SET_CONFIGURATION`. -/
def setConfiguration (s : Serial) (cfgNum : UInt8) : Serial :=
  let s := s.setupReceived
  if s.cfgNum ≠ cfgNum then
    let s := if s.cfgNum ≠ 0 then s.configurationReset else s
    if cfgNum ≠ 0 then
      let set := { s with cfgNum := cfgNum }.processSetConfig
      if !set.2 then { set.1 with cfgNum := 0 } else set.1
    else { s with cfgNum := 0 }
  else s

/-- `CDC_REQUEST_SET_CONTROL_LINE_STATE`, when it is received: stalled, unless the interface leads to the driver. -/
def setControlLineState (s : Serial) (value : UInt16) : Serial :=
  let s := s.setupReceived
  if s.bound then { s with control := some value } else s

/-- `usbd_control_xfer_cb`, at the end of a status stage. -/
def controlAck (s : Serial) : Serial :=
  match s.control with
  | some value =>
    let dtr : Bool := value &&& 1 ≠ 0
    { s with lineState := value.toUInt8, txFf := s.txFf.tuFifoSetOverwritable !dtr }
  | none => s

/-- `DCD_EVENT_XFER_COMPLETE` of the IN endpoint. -/
def xferComplete (s : Serial) (xferredBytes : UInt32) : Serial × Handed :=
  let s := { s with epStatus := ⟨false, false⟩ }
  if s.bound && s.epIn then s.cdcdXferCb xferredBytes else (s, [])

/-- What changes the port: what `dcd_event_handler` does of an event when it is reported (`unplugged`, `suspend`, `resume`,
    `sof`), what `tud_task` does of one when its turn comes, and a turn of the main loop, and a line logged. -/
inductive Event
  | unplugged
  | suspend
  | resume
  | sof
  /-- `usbd_reset`, for `DCD_EVENT_BUS_RESET` and `DCD_EVENT_UNPLUGGED`. -/
  | reset
  /-- `DCD_EVENT_SETUP_RECEIVED`, of a request that is not one of the next three. -/
  | request
  | setConfiguration (cfgNum : UInt8)
  /-- `TUSB_REQ_FEATURE_EDPT_HALT` of the IN endpoint, set or cleared. -/
  | halt (set : Bool)
  | setControlLineState (value : UInt16)
  /-- `DCD_EVENT_XFER_COMPLETE` of a status stage. -/
  | controlAck
  | xferComplete (xferredBytes : UInt32)
  | frame
  | log (text : List UInt8)

/-- How much of the transcript the main loop offers at once. -/
def chunkOf (s : Serial) : UInt32 :=
  let chunk := s.diag.sDiagLen - s.sent
  let space := s.tudCdcWriteAvailable
  let chunk := if chunk > space then space else chunk
  if chunk > 64 then 64 else chunk

/-- The main loop's turn, for the port. -/
def frame (s : Serial) : Serial × Handed :=
  if s.tudCdcConnected then
    if s.sent < s.diag.sDiagLen then
      let chunk := s.chunkOf
      if chunk ≠ 0 then
        let written := s.tudCdcWrite (s.diag.sDiag.read s.sent.toNat chunk.toNat) chunk
        let s := { written.1 with sent := written.1.sent + written.2.1 }
        let flush := s.tudCdcWriteFlush
        (flush.1, written.2.2 ++ flush.2.2)
      else (s, [])
    else (s, [])
  else ({ s with sent := 0 }, [])

def step (s : Serial) : Event → Serial × Handed
  | .unplugged                 => ({ s with connected := false, cfgNum := 0, suspended := false }, [])
  | .suspend                   => (if s.connected then { s with suspended := true } else s, [])
  | .resume                    => (if s.connected then { s with suspended := false } else s, [])
  | .sof                       => ({ s with suspended := false }, [])
  | .reset                     => (s.usbdReset, [])
  | .request                   => (s.setupReceived, [])
  | .setConfiguration cfgNum   => (s.setConfiguration cfgNum, [])
  | .halt set                  => ({ s.setupReceived with epStatus := { s.epStatus with busy := set } }, [])
  | .setControlLineState value => (s.setControlLineState value, [])
  | .controlAck                => (s.controlAck, [])
  | .xferComplete n            => s.xferComplete n
  | .frame                     => s.frame
  | .log text                  => ({ s with diag := gpkLog s.diag text }, [])

/-- The port after `tud_init`, with what was logged before. The driver maps are all zero, which is the number of the class
    driver, so that only after a reset can the interface be bound. -/
def started (txFfBuf : Mem) (diag : Diag) : Serial where
  connected := false
  suspended := false
  cfgNum    := 0
  bound     := true
  epIn      := false
  control   := none
  epStatus  := ⟨false, false⟩
  lineState := 0
  txFf      := ⟨txFfBuf, cfgTudCdcTxBufsize, true, 0, 0, by decide, by decide, by decide, by decide⟩
  diag      := diag
  sent      := 0

/-- The port and the main loop, from `tud_init` on. -/
def machine (txFfBuf : Mem) (diag : Diag) : Machine Event Handed Serial where
  init := started txFfBuf diag
  step := Serial.step

end Serial

end Usb

end GekkoPak
