import Serveez.Hash.Fill
import Serveez.Core.Shutdown
import Serveez.Core.Handles
import Serveez.Socket.FinalWrite
import Serveez.Recv.Framing
import Serveez.Port.Rejection
import Serveez.Passthrough.Streams
import Serveez.Codec.Teardown
import Serveez.Codec.Send
import Serveez.Codec.Receive
import Serveez.Udp.Queue
import Serveez.Coserver.Registry
import Serveez.Coserver.CallbackIds
import Serveez.Coserver.Answers
import Serveez.Core.Connections
import Serveez.Binding.Kept
import Serveez.Http.CgiEnv
import Serveez.Http.RequestFraming
import Serveez.Nut.Framing
import Serveez.Nut.HostCatcher
import Serveez.Nut.Isolation
import Serveez.Nut.Tables
import Serveez.Nut.Accounting
import Serveez.Nut.Lifecycle
import Serveez.Irc.Lookup
import Serveez.Irc.Classes
import Serveez.Irc.Invites
import Serveez.Irc.Replies
import Serveez.Irc.ReplyBuffers
import Serveez.Tunnel.Liveness
import Serveez.Recv.FixedSize
import Serveez.Hash.Create
import Serveez.Data.Copies
import Serveez.Data.Addresses
import Serveez.Port.Frequency
import Serveez.Port.IcmpReads
import Serveez.Port.Interfaces
import Serveez.Core.Unbind
import Serveez.Core.Uptime
import Serveez.Irc.Registration
import Serveez.Binding.Pretty
import Serveez.Coserver.ReverseDns
import Serveez.Coserver.RequestBuffer
import Serveez.Http.Properties
import Serveez.Http.CgiUrl
import Serveez.Http.CgiPost
import Serveez.Irc.Decrypt
import Serveez.Irc.Masks
import Serveez.Irc.Refusals
import Serveez.Irc.Lines
import Serveez.Irc.Dispatch
import Serveez.Irc.Grammar
import Serveez.Irc.LineBounds
import Serveez.Irc.PartRounds
import Serveez.Irc.Patterns
import Serveez.Port.Checksum
import Serveez.Nut.HostKeys
import Serveez.Nut.QueryLimit
import Serveez.Nut.ParseProperty
import Serveez.Nut.Uploads
import Serveez.Fakeident.Requests
import Serveez.Irc.ParseConfig
import Serveez.Core.LoopCalls
