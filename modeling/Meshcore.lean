import Meshcore.Library.Checked
import Meshcore.Library.Cells
import Meshcore.Library.Blocks
import Meshcore.Library.Bands
import Meshcore.Library.Flags
import Meshcore.Library.Framing
import Meshcore.Library.Runs
import Meshcore.Library.Lockstep
import Meshcore.Library.Tiles
import Meshcore.Library.Visits
import Meshcore.Library.Paths
import Meshcore.Library.Clocks
import Meshcore.Library.Waits
import Meshcore.Library.Pacing
import Meshcore.Library.Generators
import Meshcore.Library.Words
import Meshcore.Library.Base64
import Meshcore.Library.Programs
import Meshcore.Library.Fields
import Meshcore.Library.Views
import Meshcore.Library.Trees
import Meshcore.Library.Separation
import Meshcore.Wire
import Meshcore.Chip
import Meshcore.Command
import Meshcore.Decoder
import Meshcore.Streaming
import Meshcore.Operations
import Meshcore.Answers
import Meshcore.Buffered
import Meshcore.Counters
import Meshcore.Effects
import Meshcore.Bounds
import Meshcore.Overrun
import Meshcore.Stores
import Meshcore.Registers
import Meshcore.Detection
import Meshcore.Latching
import Meshcore.Instants
import Meshcore.Delivery
import Meshcore.Transmission
import Meshcore.HalfDuplex
import Meshcore.Marks
import Meshcore.Rearming
import Meshcore.Ticks
import Meshcore.EarlyTicks
import Meshcore.BusyTime
import Meshcore.Radio
import Meshcore.SimHal
import Meshcore.RadioServer
import Meshcore.NativeNode
import Meshcore.InterruptLine
import Meshcore.OnAir
import Meshcore.Exchange
import Meshcore.Completion
import Meshcore.Accesses
import Meshcore.Turns
import Meshcore.LocalClock
import Meshcore.Faults
import Meshcore.Dispatch
import Meshcore.Acknowledgement
import Meshcore.Loops
import Meshcore.Instruments
import Meshcore.RtcClock
import Meshcore.Slicing
import Meshcore.Waiting
import Meshcore.FrontEnd
import Meshcore.Reports
import Meshcore.Airtime
import Meshcore.CommandLine
import Meshcore.SelfReport
import Meshcore.ShortWrites
import Meshcore.Usage
import Meshcore.Files
import Meshcore.Randomness
import Meshcore.Telemetry
import Meshcore.Base64
import Meshcore.Quiet
import Meshcore.SpiModule
import Meshcore.RegisterFields
import Meshcore.Driver
import Meshcore.DriverCommands
import Meshcore.Sending
import Meshcore.Receiving
import Meshcore.Scanning
import Meshcore.Settings
import Meshcore.Bringup
import Meshcore.Conversation
import Meshcore.Upkeep
import Meshcore.TimeOnAir
import Meshcore.Blocking
import Meshcore.Sockets
import Meshcore.Console
import Meshcore.OpenFiles
import Meshcore.Storage
