import GekkoPak.Basis.Chunks
import GekkoPak.Basis.Machine
import GekkoPak.Transport.Atomic
import GekkoPak.Usb.Driver

/-!
# `Usb.Cartridge` — the cartridge's side of a transfer, as the driver relies on it

Two buffers for each endpoint, and a queue of what has been started on it: sends on an IN endpoint, armed buffers on an
OUT endpoint. Each is finished in turn and then reported by one event. A started buffer counts as busy until its event
is taken off the queue, which is as long as the cartridge can have it.

What a transfer does is a run of these machines over the history of the bus. A round is one event and what the driver
does about it.
-/

namespace GekkoPak

open Basis

namespace Usb

/-- The command asks for one of the two buffers, and for no more than it holds. -/
def Action.Fits : Action → Prop
  | .cmd (.beginXfer _ off len)         => off < 2 ∧ len ≤ 512
  | .cmd (.writeData off _ _ total)     => off < 2 ∧ total ≤ 512
  | .write (.writeData off _ _ total) _ => off < 2 ∧ total ≤ 512
  | .read (.readData off _)             => off < 2
  | _                                   => True

/-! ## Sending -/

/-- An IN endpoint: its buffers, the sends started and not yet reported, what has been sent. -/
structure Sender where
  bufs    : UInt8 → Mem
  sending : List (UInt8 × UInt32)
  sent    : List (List UInt8)

namespace Sender

/-- `WRITE_DATA`: the first `total` bytes of the payload go into the buffer, and `last` starts sending it. -/
def store (c : Sender) (off last : UInt8) (total : UInt32) (payload : List UInt8) : Sender :=
  { c with
    bufs := Function.update c.bufs off ((c.bufs off).write 0 (payload.take total.toNat))
    sending := if last = 1 then c.sending ++ [(off, total)] else c.sending }

/-- The send in front is over: the bytes the buffer holds have gone out. -/
def finish (c : Sender) : Sender :=
  match c.sending with
  | []               => c
  | (off, n) :: rest => { c with sending := rest, sent := c.sent ++ [(c.bufs off).read 0 n.toNat] }

def step (ep : UInt8) (c : Sender) : Action → Sender
  | .cmd (.beginXfer e off len)               => if e = ep then { c with sending := c.sending ++ [(off, len)] } else c
  | .cmd (.writeData off e last total)        => if e = ep then c.store off last total [] else c
  | .write (.writeData off e last total) words =>
      if e = ep then c.store off last total (words.flatMap le32) else c
  | .event e _                                => if e = ep then c.finish else c
  | _                                         => c

end Sender

/-- The IN endpoint `ep` over a history, with nothing started on it before. -/
def sender (ep : UInt8) (bufs : UInt8 → Mem) : Machine Action Unit Sender where
  init := ⟨bufs, [], []⟩
  step c a := (c.step ep a, ())

/-- The buffer a `WRITE_DATA` on `ep` fills. -/
def Action.fills (ep : UInt8) : Action → Option UInt8
  | .cmd (.writeData off e _ _)     => if e = ep then some off else none
  | .write (.writeData off e _ _) _ => if e = ep then some off else none
  | _                               => none

/-- The action does not write to a buffer that is being sent. -/
def Sender.Spares (ep : UInt8) (c : Sender) (a : Action) : Prop :=
  ∀ off, a.fills ep = some off → off ∉ c.sending.map Prod.fst

/-! ## Receiving -/

/-- An OUT endpoint: its buffers, those armed and not yet reported, what the host has still to send. -/
structure Receiver where
  bufs  : UInt8 → Mem
  armed : List (UInt8 × UInt32)
  host  : List UInt8

namespace Receiver

/-- The buffer in front takes what the host sends next, as much as it was armed for. -/
def fill (c : Receiver) : Receiver :=
  match c.armed with
  | []               => c
  | (off, n) :: rest =>
    { bufs := Function.update c.bufs off ((c.bufs off).write 0 (c.host.take n.toNat))
      armed := rest
      host := c.host.drop n.toNat }

def step (ep : UInt8) (c : Receiver) : Action → Receiver
  | .cmd (.beginXfer e off len) => if e = ep then { c with armed := c.armed ++ [(off, len)] } else c
  | .event e _                  => if e = ep then c.fill else c
  | _                           => c

end Receiver

/-- The OUT endpoint `ep` over a history, with nothing armed on it before and a host about to send `stream`. -/
def receiver (ep : UInt8) (bufs : UInt8 → Mem) (stream : List UInt8) : Machine Action Unit Receiver where
  init := ⟨bufs, [], stream⟩
  step c a := (c.step ep a, ())

/-- The buffer a `READ_DATA` on `ep` asks for. -/
def Action.asks (ep : UInt8) : Action → Option UInt8
  | .read (.readData off e) => if e = ep then some off else none
  | _                       => none

/-- The action does not read a buffer that is armed. -/
def Receiver.Spares (ep : UInt8) (c : Receiver) (a : Action) : Prop :=
  ∀ off, a.asks ep = some off → off ∉ c.armed.map Prod.fst

/-- The number of bytes an action arms `ep` for. -/
def Action.arms (ep : UInt8) : Action → Nat
  | .cmd (.beginXfer e _ len) => if e = ep then len.toNat else 0
  | _                         => 0

/-- `READ_DATA` returns the buffer, as long as it is not armed; what it returns of an armed one is left open. -/
def Firmware.Serves (fw : Firmware) (ep : UInt8) (bufs : UInt8 → Mem) (stream : List UInt8) : Prop :=
  ∀ history off, off ∉ ((receiver ep bufs stream).run history).armed.map Prod.fst →
    fw.response history (.readData off ep) =
      wordsOf ((((receiver ep bufs stream).run history).bufs off).read 0 (4 * kBlockPhaseWords))

/-! ## Rounds -/

namespace Firmware

variable (fw : Firmware)

/-- The send in front of an IN endpoint is reported, with its length. -/
def inRound (ep : UInt8) (bufs : UInt8 → Mem) (s : Bus × Dcd) : Bus × Dcd :=
  match ((sender ep bufs).run s.1.history).sending with
  | []          => s
  | (_, n) :: _ => fw.xferEvent s ep n

/-- The buffer in front of an OUT endpoint is reported, with what it has received. -/
def outRound (ep : UInt8) (bufs : UInt8 → Mem) (stream : List UInt8) (s : Bus × Dcd) : Bus × Dcd :=
  match ((receiver ep bufs stream).run s.1.history).armed with
  | []          => s
  | (_, n) :: _ =>
    fw.xferEvent s ep (UInt32.ofNat (min n.toNat ((receiver ep bufs stream).run s.1.history).host.length))

end Firmware

/-- The calls of `dcd_event_xfer_complete` in a history. -/
def completions (history : List Action) : List (UInt8 × UInt32) :=
  history.filterMap (fun a =>
    match a with
    | .xferComplete ep bytes => some (ep, bytes)
    | _ => none)

end Usb

end GekkoPak
