import AnyTls.Library.Transition
import AnyTls.Library.BigEndian
import AnyTls.Library.Framing
import AnyTls.Library.ReadProgram
import AnyTls.Core.Frame
import AnyTls.Runtime.Writer
import AnyTls.Runtime.WriterRuns
import AnyTls.Core.Io
import AnyTls.Proxy.Pipe
import AnyTls.Proxy.Stream
import AnyTls.Uot.Packet
import AnyTls.Proxy.StreamWrite
import AnyTls.Proxy.IdlePool
import AnyTls.Proxy.Client
import AnyTls.NodeApi.Users
import AnyTls.NodeApi.Replace
import AnyTls.NodeApi.Retirement
import AnyTls.NodeApi.ConcurrentAuth
import AnyTls.Core.Engine
import AnyTls.Proxy.PoolSafety
import AnyTls.Proxy.PushSafety
import AnyTls.Proxy.PipeOrder
import AnyTls.Proxy.StreamReader
import AnyTls.Server.Destination
import AnyTls.Server.Release
import AnyTls.Uot.Boundaries
import AnyTls.Core.Handshake
import AnyTls.NodeApi.Ledger
import AnyTls.NodeApi.PutUsers
import AnyTls.Proxy.CleanEnd
import AnyTls.Proxy.Delivery
import AnyTls.Proxy.IdleFlag
import AnyTls.Proxy.SchemeOverflow
import AnyTls.Client.IssuedScheme
import AnyTls.Client.FinalClose
import AnyTls.Proxy.SessionMoves
import AnyTls.Proxy.StreamIds
import AnyTls.Proxy.Survivors
import AnyTls.Proxy.Wakeup
import AnyTls.Library.PercentEncoding
import AnyTls.PanelSync.Core
import AnyTls.PanelSync.Reporting
import AnyTls.Proxy.IncrementalFraming
import AnyTls.Proxy.PipeSemantics
import AnyTls.Proxy.PollSizes
import AnyTls.Util.ParseUrl
import AnyTls.Util.UrlAgreement
import AnyTls.Util.UrlRoundTrip
import AnyTls.Proxy.LastRound
import AnyTls.Library.ByteSlices
import AnyTls.Library.Segments
import AnyTls.PanelSync.Syncing
import AnyTls.Proxy.IdleCleanup
import AnyTls.Proxy.IdleReserve
import AnyTls.Proxy.IdleReuse
import AnyTls.Proxy.Inbox
import AnyTls.Proxy.Tracking
import AnyTls.Runtime.Shaping
import AnyTls.Server.Preamble
import AnyTls.Uot.Codec
import AnyTls.Util.UrlSlices
import AnyTls.Proxy.Demultiplexing
import AnyTls.Proxy.HalfClose
import AnyTls.Client.Listener
import AnyTls.Runtime.RecordSizes
import AnyTls.Client.MitmProxy
import AnyTls.Server.Requests
