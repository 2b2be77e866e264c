import EmbassyNina.Driver.Framing
import EmbassyNina.Driver.Hal
import EmbassyNina.Driver.Nina
import EmbassyNina.Driver.Operation
import EmbassyNina.Driver.Scan
import EmbassyNina.Driver.Sockets
import EmbassyNina.Exchange.Bracket
import EmbassyNina.Exchange.Cancel
import EmbassyNina.Exchange.Encoder
import EmbassyNina.Exchange.Faults
import EmbassyNina.Exchange.Lockstep
import EmbassyNina.Exchange.Operations
import EmbassyNina.Exchange.Packing
import EmbassyNina.Exchange.Receivers
import EmbassyNina.Exchange.Senders
import EmbassyNina.Exchange.Shape
import EmbassyNina.Exchange.Totality
import EmbassyNina.Exchange.Wired
import EmbassyNina.Link.Answer
import EmbassyNina.Link.Association
import EmbassyNina.Link.Chip
import EmbassyNina.Link.Connect
import EmbassyNina.Link.Datagram
import EmbassyNina.Link.Deadlines
import EmbassyNina.Link.Delivery
import EmbassyNina.Link.EndOfStream
import EmbassyNina.Link.Grammar
import EmbassyNina.Link.Integers
import EmbassyNina.Link.Logs
import EmbassyNina.Link.Lookup
import EmbassyNina.Link.OneByte
import EmbassyNina.Link.Reader
import EmbassyNina.Link.Release
import EmbassyNina.Link.Resolution
import EmbassyNina.Link.Scanning
import EmbassyNina.Link.SendLog
import EmbassyNina.Link.Structured
import EmbassyNina.Link.Turn
import EmbassyNina.Link.Writes
import EmbassyNina.Machinery.Account
import EmbassyNina.Machinery.Cost
import EmbassyNina.Machinery.Exec
import EmbassyNina.Machinery.Fair
import EmbassyNina.Machinery.Hide
import EmbassyNina.Machinery.Monitor
import EmbassyNina.Machinery.Pool
import EmbassyNina.Machinery.Prefixed
import EmbassyNina.Machinery.Prog
import EmbassyNina.Machinery.Refine
import EmbassyNina.Machinery.Serial
import EmbassyNina.Machinery.Watch
import EmbassyNina.Remote.Calls
import EmbassyNina.Remote.Client
import EmbassyNina.Remote.Command
import EmbassyNina.Remote.Faithful
import EmbassyNina.Remote.Firmware
import EmbassyNina.Remote.Operations
import EmbassyNina.Remote.Reports
import EmbassyNina.Remote.Tasks
import EmbassyNina.Server.Boot
import EmbassyNina.Server.Lamp
import EmbassyNina.Server.Led
import EmbassyNina.Server.Serve
import EmbassyNina.Server.Session
import EmbassyNina.Server.Stream
import EmbassyNina.Server.Timely
import EmbassyNina.Stack.Calls
import EmbassyNina.Stack.Facades
import EmbassyNina.Stack.History
import EmbassyNina.Stack.Hold
import EmbassyNina.Stack.Leases
import EmbassyNina.Stack.Mutex
import EmbassyNina.Stack.Progress
import EmbassyNina.Stack.Serial
import EmbassyNina.Stack.Slots
import EmbassyNina.Stack.Whole
import EmbassyNina.Stack.World
import EmbassyNina.Wire.Frame
import EmbassyNina.Wire.Proto
import EmbassyNina.Wire.Reply
