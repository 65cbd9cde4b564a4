import Kcp.Word
import Kcp.Serial
import Kcp.Checked
import Kcp.LittleEndian
import Kcp.Trace
import Kcp.Pipe
import Kcp.Ranking
import Kcp.BinarySearch
import Kcp.Rekey
import Kcp.Retain
import Kcp.Framing
import Kcp.Packing
import Kcp.Protocol
import Kcp.Error
import Kcp.Config
import Kcp.Engine.State
import Kcp.Engine.Send
import Kcp.Engine.Recv
import Kcp.Engine.Input
import Kcp.Engine.Flush
import Kcp.Engine.Step
import Kcp.Engine.Output
import Kcp.Engine.FlushShape
import Kcp.Engine.Frame
import Kcp.Engine.InputShape
import Kcp.Engine.FlushFrame
import Kcp.Engine.Configured
import Kcp.Engine.SendWindow
import Kcp.Engine.Origin
import Kcp.Engine.RecvShape
import Kcp.Engine.Stored
import Kcp.Engine.RecvWindow
import Kcp.Engine.RecvInvariant
import Kcp.Engine.Confluence
import Kcp.Engine.HeadMessage
import Kcp.Engine.DeadLink
import Kcp.Engine.ProbeTimer
import Kcp.Engine.Check
import Kcp.Engine.Sleep
import Kcp.Engine.Congestion
import Kcp.Engine.Growth
import Kcp.Engine.Estimator
import Kcp.Engine.AckSearch
import Kcp.Engine.Advertise
import Kcp.Engine.Answer
import Kcp.Engine.Pacing
import Kcp.Engine.Wire
import Kcp.Engine.Codec
import Kcp.Engine.Foreign
import Kcp.Engine.Fragment
import Kcp.Engine.Sender
import Kcp.Engine.Counters
import Kcp.Engine.Emission
import Kcp.Engine.Checked
import Kcp.Engine.Checked.SendRecv
import Kcp.Engine.Checked.Input
import Kcp.Engine.Checked.Flush
import Kcp.Engine.Checked.Runs
import Kcp.Engine.Queueing
import Kcp.Engine.ConvSwitch
import Kcp.Engine.Marks
import Kcp.Engine.Ledger
import Kcp.Engine.InOrder
import Kcp.Engine.Reopen
import Kcp.Engine.Polling
import Kcp.Engine.Shift
import Kcp.Engine.ShiftFlush
import Kcp.Engine.Wrap
import Kcp.Engine.ClockWrap
import Kcp.Engine.Retry
import Kcp.Engine.Exchange
import Kcp.Network.Model
import Kcp.Network.Reassembly
import Kcp.Network.Link
import Kcp.Network.Delivery
import Kcp.Network.Flow
import Kcp.Network.Accounting
import Kcp.Network.Endpoint
import Kcp.Network.Round
import Kcp.Network.Progress
import Kcp.Mpsc
import Kcp.Stream.State
import Kcp.Stream.Write
import Kcp.Stream.Read
import Kcp.Stream.Recv
import Kcp.Actor.State
import Kcp.Actor.Calls
import Kcp.Actor.Turn
import Kcp.Actor.Fatal
import Kcp.Actor.Launch
import Kcp.Actor.Backpressure
import Kcp.Actor.Leftover
import Kcp.Actor.Wait
import Kcp.Actor.Messages
import Kcp.Stream.Send
import Kcp.Connection.Accept
import Kcp.Connection.State
import Kcp.Connection.Turn
import Kcp.Connection.Flush
import Kcp.Connection.Calls
import Kcp.Connection.Bytes
import Kcp.Connection.Closing
import Kcp.Connection.Ended
import Kcp.Listener.State
import Kcp.Listener.Handshake
import Kcp.Listener.Peers
import Kcp.Listener.Routing
import Kcp.System.Host
import Kcp.System.State
import Kcp.System.Delivery
import Kcp.System.Closing
import Kcp.Engine.Amplification
