import Sponge.Lib.Word
import Sponge.Lib.Run
import Sponge.Lib.OrderedSet
import Sponge.Lib.SparseBuffer
import Sponge.Lib.QueueMap
import Sponge.Lib.EndAroundCarry
import Sponge.Lib.Program
import Sponge.WrappingIntegers
import Sponge.Wrapping.Closest
import Sponge.ByteStream
import Sponge.Stream.Runs
import Sponge.Stream.Fifo
import Sponge.StreamReassembler
import Sponge.Reassembler.Nodes
import Sponge.Reassembler.Push
import Sponge.Reassembler.Refinement
import Sponge.Reassembler.EndOfStream
import Sponge.Reassembler.Coverage
import Sponge.Reassembler.Capacity
import Sponge.Reassembler.Positions
import Sponge.TCPSegment
import Sponge.TCPSender
import Sponge.Sender.Segments
import Sponge.Sender.Invariant
import Sponge.Sender.Fidelity
import Sponge.Sender.Window
import Sponge.Sender.Opening
import Sponge.Sender.Effects
import Sponge.Sender.Outstanding
import Sponge.Sender.Tiling
import Sponge.Sender.FillWindow
import Sponge.Sender.RepeatedAcks
import Sponge.Sender.RetransmissionTimer
import Sponge.TCPReceiver
import Sponge.Receiver.Runs
import Sponge.Receiver.PeerIsn
import Sponge.Receiver.PeerStream
import Sponge.Receiver.AfterEnd
import Sponge.TCPConnection
import Sponge.Connection.Outbound
import Sponge.Connection.Endpoint
import Sponge.Connection.Inbound
import Sponge.Connection.CleanClose
import Sponge.Connection.Dead
import Sponge.Connection.GiveUp
import Sponge.Connection.BackOff
import Sponge.Connection.StateSummary
import Sponge.Connection.Listen
import Sponge.Connection.Advertised
import Sponge.Connection.Replies
import Sponge.Connection.LingerTime
import Sponge.Connection.Transmission
import Sponge.Network.System
import Sponge.Network.Integrity
import Sponge.Network.Handshake
import Sponge.Network.Linger
import Sponge.Network.Delivered
import Sponge.Network.WindUp
import Sponge.Parser
import Sponge.IPv4Datagram
import Sponge.Datagram.Acceptance
import Sponge.Datagram.Checksum
import Sponge.Datagram.Pieces
import Sponge.Datagram.RoundTrip
import Sponge.Segment.Codec
import Sponge.Segment.Acceptance
import Sponge.Segment.RoundTrip
import Sponge.Segment.Corruption
import Sponge.ARPMessage
import Sponge.Frame.Ethernet
import Sponge.Frame.Arp
import Sponge.NetworkInterface
import Sponge.Interface.Runs
import Sponge.Interface.Conservation
import Sponge.Interface.Order
import Sponge.Interface.FrameEffects
import Sponge.Interface.Clock
import Sponge.Interface.Freshness
import Sponge.Interface.RateLimit
import Sponge.Interface.Holding
import Sponge.Router
import Sponge.Router.LongestPrefix
import Sponge.Router.Forwarding
import Sponge.Router.HarmlessFrames
import Sponge.Router.Delivery
import Sponge.TCPOverIPv4Adapter
import Sponge.Adapter.RoundTrip
import Sponge.Adapter.Listening
import Sponge.TCPState
import Sponge.FileDescriptor
import Sponge.FileDescriptor.Writes
import Sponge.EventLoop
import Sponge.EventLoop.Discipline
import Sponge.DatagramAdapter
import Sponge.Adapter.Link
import Sponge.Adapter.Device
import Sponge.TCPSpongeSocket
import Sponge.Socket.Pipe
import Sponge.Socket.Callbacks
import Sponge.Socket.Thread
import Sponge.Socket.Pair
import Sponge.Socket.Finish
import Sponge.Socket.Tun
import Sponge.Socket.Udp
import Sponge.Socket.Lossy
import Sponge.Socket.Ethernet
import Sponge.Internet
import Sponge.Internet.Neighbours
import Sponge.Internet.Journey
import Sponge.Internet.Runs
