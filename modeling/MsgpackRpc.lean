import MsgpackRpc.Lib.Unpack
import MsgpackRpc.Lib.Threads
import MsgpackRpc.Protocol
import MsgpackRpc.Receiver
import MsgpackRpc.Format
import MsgpackRpc.Stream.Handler
import MsgpackRpc.Stream.Framing
import MsgpackRpc.Stream.Reconnect
import MsgpackRpc.Stream.Limit
import MsgpackRpc.Dgram.Isolation
import MsgpackRpc.Dgram.Rearm
import MsgpackRpc.Session.Conservation
import MsgpackRpc.Session.Join
import MsgpackRpc.Session.Callbacks
import MsgpackRpc.Session.WriteOnce
import MsgpackRpc.Session.Outcome
import MsgpackRpc.Session.JoinBound
import MsgpackRpc.Pool.Ttl
import MsgpackRpc.Server.AtMostOnce
import MsgpackRpc.Server.MsgId
import MsgpackRpc.Link.Correlation
import MsgpackRpc.Udp.Send
import MsgpackRpc.Tcp.StaleRead
import MsgpackRpc.Tcp.Stranded
import MsgpackRpc.Tcp.ConnectTimer
import MsgpackRpc.Tcp.ClientSocket
import MsgpackRpc.Tcp.FailStop
import MsgpackRpc.Tcp.SelfDeadlock
import MsgpackRpc.Tcp.Send
import MsgpackRpc.Tcp.Connections
import MsgpackRpc.Tcp.Accept
import MsgpackRpc.Tcp.LogFilter
import MsgpackRpc.Net.Address
import MsgpackRpc.Lib.Simulation
import MsgpackRpc.Lib.Calls
import MsgpackRpc.Format.RoundTrip
import MsgpackRpc.Link.Delivery
import MsgpackRpc.Link.Service
import MsgpackRpc.Lib.Channel
import MsgpackRpc.Session.Origins
import MsgpackRpc.Wire.Machine
import MsgpackRpc.Wire.Refinement
import MsgpackRpc.Wire.Correlation
import MsgpackRpc.Udp.Network
import MsgpackRpc.Udp.Correlation
import MsgpackRpc.Udp.Service
import MsgpackRpc.Tcp.Transmission
import MsgpackRpc.Tcp.Deadlock
import MsgpackRpc.Lib.Ticker
import MsgpackRpc.Session.StepTimer
import MsgpackRpc.Tcp.Reading
import MsgpackRpc.Tcp.Network
import MsgpackRpc.Tcp.Correlation
import MsgpackRpc.Tcp.Service
import MsgpackRpc.Lib.Shared
import MsgpackRpc.Buffer
