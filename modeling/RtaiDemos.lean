import RtaiDemos.Core.TSys
import RtaiDemos.Sysvmsg.Theorems.Fifo
import RtaiDemos.Sysvmsg.Theorems.Accounting
import RtaiDemos.Sysvmsg.Logic.Calls
import RtaiDemos.Sysvmsg.Theorems.IdTable
import RtaiDemos.Sysvmsg.Logic.Stale
import RtaiDemos.Sysvmsg.Theorems.Identifiers
import RtaiDemos.Sysvmsg.Theorems.Exclusion
import RtaiDemos.Core.Buffer
import RtaiDemos.Scrambler.Codec
import RtaiDemos.Scrambler.Theorems.RoundTrip
import RtaiDemos.Clock.Command
import RtaiDemos.Clock.SemCommand
import RtaiDemos.Clock.Logic.SemToken
import RtaiDemos.Clock.Logic.SemStep
import RtaiDemos.Clock.Theorems.SemStreams
import RtaiDemos.Clock.MsgCommand
import RtaiDemos.Clock.Logic.MsgStep
import RtaiDemos.Clock.Theorems.MsgStreams
import RtaiDemos.Clock.ChronoPorts
import RtaiDemos.Clock.Theorems.ChronoPorts
import RtaiDemos.Clock.Hmsh
import RtaiDemos.Clock.SemDisplay
import RtaiDemos.Clock.Logic.SemDisplay
import RtaiDemos.Clock.Theorems.SemDisplay
import RtaiDemos.Clock.MsgDisplay
import RtaiDemos.Clock.Theorems.MsgDisplay
import RtaiDemos.Agent.Machine
import RtaiDemos.Agent.Logic.Ownership
import RtaiDemos.Agent.Logic.Words
import RtaiDemos.Agent.Theorems.Ownership
import RtaiDemos.Agent.Theorems.Termination
import RtaiDemos.Fusion.Bind
import RtaiDemos.Fusion.Theorems.Bind
import RtaiDemos.Core.Fold
import RtaiDemos.Timerbench.Eval
import RtaiDemos.Timerbench.Logic.Sampling
import RtaiDemos.Timerbench.Logic.Rounds
import RtaiDemos.Timerbench.Theorems.Statistics
import RtaiDemos.Timerbench.Device
import RtaiDemos.Timerbench.Theorems.Buffers
import RtaiDemos.Sysvmsg.LoadMsg
import RtaiDemos.Sysvmsg.Logic.Freed
import RtaiDemos.Sysvmsg.Theorems.Selection
import RtaiDemos.Sysvmsg.Theorems.NoTrace
import RtaiDemos.Agent.Theorems.Checksum
import RtaiDemos.Scrambler.Theorems.Detection
import RtaiDemos.Timerbench.Theorems.Overruns
import RtaiDemos.Core.Chain
import RtaiDemos.Scrambler.Theorems.Untrusted
import RtaiDemos.Sysvmsg.Segments
import RtaiDemos.Sysvmsg.Logic.Segments
import RtaiDemos.Sysvmsg.Theorems.Segments
import RtaiDemos.Sysvmsg.Msqid
import RtaiDemos.Sysvmsg.Theorems.StatSet
import RtaiDemos.Sysvmsg.SchedLock
import RtaiDemos.Sysvmsg.Theorems.SchedLock
import RtaiDemos.Clock.Read
import RtaiDemos.Clock.Theorems.Handshake
import RtaiDemos.Clock.Logic.Hours
import RtaiDemos.Clock.Theorems.Chronometer
import RtaiDemos.Timerbench.Faults
import RtaiDemos.Timerbench.Theorems.Faults
import RtaiDemos.Core.Numeral
import RtaiDemos.Fusion.Theorems.Names
import RtaiDemos.Clock.Fields
import RtaiDemos.Clock.Theorems.Arithmetic
import RtaiDemos.Calibration.Latency
import RtaiDemos.Calibration.Theorems.Mean
import RtaiDemos.Preempt.Jitter
import RtaiDemos.Preempt.Theorems.Worst
import RtaiDemos.Core.Windows
import RtaiDemos.Sysvmsg.ProcListing
import RtaiDemos.Sysvmsg.Theorems.Listing
import RtaiDemos.Press.Machine
import RtaiDemos.Press.Theorems.Pulses
import RtaiDemos.Soundmsg.Player
import RtaiDemos.Soundmsg.Logic.Ledger
import RtaiDemos.Soundmsg.Theorems.Playing
import RtaiDemos.Core.Atomic
import RtaiDemos.Core.Estimate
import RtaiDemos.Sysvmsg.Boxes
import RtaiDemos.Sysvmsg.Logic.Boxes
import RtaiDemos.Sysvmsg.Logic.Outcome
import RtaiDemos.Sysvmsg.Theorems.Linearizable
import RtaiDemos.Tscsync.Logic.Handshake
import RtaiDemos.Tscsync.Theorems.Offset
import RtaiDemos.Tscsync.Theorems.Tracking
import RtaiDemos.Core.Callers
import RtaiDemos.Sysvmsg.Logic.TestMsg
import RtaiDemos.Sysvmsg.Logic.TestMsgThreads
import RtaiDemos.Sysvmsg.Theorems.TestMsg
import RtaiDemos.Core.Relay
import RtaiDemos.Core.Threads
import RtaiDemos.Namedstuff.Code
import RtaiDemos.Namedstuff.Logic.Lines
import RtaiDemos.Namedstuff.Theorems.End
import RtaiDemos.Namedstuff.Theorems.Order
import RtaiDemos.Sysvmsg.Logic.Kept
import RtaiDemos.Sysvmsg.Stored
import RtaiDemos.Sysvmsg.Theorems.Memory
