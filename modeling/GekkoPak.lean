import GekkoPak.Basis.Machine
import GekkoPak.Basis.Bytes
import GekkoPak.Basis.Mem
import GekkoPak.Basis.Ring
import GekkoPak.Basis.Table
import GekkoPak.Basis.Span
import GekkoPak.Basis.Buffers
import GekkoPak.Protocol.Wire
import GekkoPak.Protocol.Records
import GekkoPak.Device.Core
import GekkoPak.Device.Block
import GekkoPak.Device.Machine
import GekkoPak.Device.Steps
import GekkoPak.Device.BlockSteps
import GekkoPak.Device.Invariant
import GekkoPak.Device.Correctness.Parser
import GekkoPak.Device.Correctness.Reject
import GekkoPak.Device.Correctness.Alloc
import GekkoPak.Device.Correctness.Buffers
import GekkoPak.Device.Correctness.Queue
import GekkoPak.Device.Correctness.Jobs
import GekkoPak.Device.Correctness.Slots
import GekkoPak.Device.Transfers
import GekkoPak.Transport.Atomic
import GekkoPak.Transport.Correctness.Atomic
import GekkoPak.Transport.Dspico
import GekkoPak.Transport.Targets
import GekkoPak.Transport.Correctness.Conformance
import GekkoPak.Device.Correctness.FirstFit
import GekkoPak.Device.Correctness.Clock
import GekkoPak.Device.Correctness.Batch
import GekkoPak.Basis.Round
import GekkoPak.Device.Correctness.Timing
import GekkoPak.Transport.Correctness.Foreign
import GekkoPak.Transport.Clients
import GekkoPak.Transport.Correctness.Commands
import GekkoPak.Transport.DsClient
import GekkoPak.Transport.Correctness.DsClient
import GekkoPak.Basis.Coverage
import GekkoPak.Device.Correctness.Uploads
import GekkoPak.Device.Correctness.Staging
import GekkoPak.Device.Correctness.Noninterference
import GekkoPak.Device.Correctness.Sharing
import GekkoPak.Transport.HostModel
import GekkoPak.Transport.Correctness.HostModel
import GekkoPak.Basis.Ledger
import GekkoPak.Simulator.Core
import GekkoPak.Simulator.Correctness.Accounting
import GekkoPak.Basis.Precedence
import GekkoPak.Trace.Checker
import GekkoPak.Trace.Correctness.Checker
import GekkoPak.Basis.Chunks
import GekkoPak.Usb.Driver
import GekkoPak.Usb.Cartridge
import GekkoPak.Usb.Correctness.Blocks
import GekkoPak.Usb.Correctness.In
import GekkoPak.Usb.Correctness.Out
import GekkoPak.Basis.OrderStats
import GekkoPak.DsTest.Bench
import GekkoPak.DsTest.Correctness.Stats
import GekkoPak.Basis.Counter
import GekkoPak.DsTest.Correctness.Ticks
import GekkoPak.Basis.LineLog
import GekkoPak.DsTest.Transcript
import GekkoPak.DsTest.Correctness.Transcript
import GekkoPak.Transport.Correctness.Bounds
import GekkoPak.Basis.Fields
import GekkoPak.Tools.RomTool
import GekkoPak.Tools.Correctness.RomTool
import GekkoPak.Basis.Steps
import GekkoPak.Basis.Arm
import GekkoPak.Basis.Ram
import GekkoPak.Basis.Symbolic
import GekkoPak.Basis.Rendezvous
import GekkoPak.Mailbox.Frontend
import GekkoPak.Mailbox.Guest
import GekkoPak.Mailbox.Session
import GekkoPak.Mailbox.Correctness.Frontend
import GekkoPak.Mailbox.Correctness.Session
import GekkoPak.Basis.Stack
import GekkoPak.Ntr.Program
import GekkoPak.Ntr.Session
import GekkoPak.Ntr.Correctness.Routines
import GekkoPak.Ntr.Correctness.Commands
import GekkoPak.Ntr.Correctness.Session
import GekkoPak.Basis.Circle
import GekkoPak.Usb.Correctness.Fifo
import GekkoPak.Usb.Cdc
import GekkoPak.Usb.Correctness.Cdc
