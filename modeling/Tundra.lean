import Tundra.Library.Machine
import Tundra.Library.Refinement
import Tundra.Library.Execution
import Tundra.Library.Monitor
import Tundra.Library.Slice
import Tundra.Library.Custody
import Tundra.Library.FileSystem
import Tundra.Library.OrderedMap
import Tundra.Library.SlotTable
import Tundra.Library.Separator
import Tundra.Library.Reader
import Tundra.Library.CString
import Tundra.Library.Calendar
import Tundra.Util.Buffer
import Tundra.Util.BufferQueue
import Tundra.Util.BufferRefinement
import Tundra.Util.BufferInt
import Tundra.Util.BufferFront
import Tundra.Util.BufferPrepend
import Tundra.Util.Text
import Tundra.Util.StringView
import Tundra.Util.TimeStamp
import Tundra.Util.TimeFormat
import Tundra.Util.BlockingQueue
import Tundra.Net.Channel
import Tundra.Net.Poller
import Tundra.Net.PollerTable
import Tundra.Net.PollerEvents
import Tundra.Net.TcpConnection
import Tundra.Net.TcpOutput
import Tundra.Net.TcpSend
import Tundra.Net.OutputStream
import Tundra.Net.FlowControl
import Tundra.Net.CrossThreadSend
import Tundra.Net.SendShutdown
import Tundra.Net.ChannelTeardown
import Tundra.Net.ConnectionCalls
import Tundra.Net.ServerTeardown
import Tundra.Net.ClosedConnection
import Tundra.Net.EventLoop
import Tundra.Net.FunctorLiveness
import Tundra.Net.EventLoopThread
import Tundra.Net.ThreadJoin
import Tundra.Net.TimerQueue
import Tundra.Net.TimerOwnership
import Tundra.Net.TimerSteps
import Tundra.Net.TimerCancel
import Tundra.Net.TimerAlarm
import Tundra.Net.TimerExpiry
import Tundra.Net.TimerThreads
import Tundra.Net.TimerDestructor
import Tundra.Net.LoopOwnership
import Tundra.Net.InetAddress
import Tundra.Net.Acceptor
import Tundra.Net.AcceptorService
import Tundra.Net.TcpServer
import Tundra.Net.ConnectionBooks
import Tundra.Net.ConnectionLifecycle
import Tundra.Net.ConnectionFrame
import Tundra.Net.ConnectionLifetime
import Tundra.Net.HalfClose
import Tundra.Net.StateOrder
import Tundra.Net.ForceClose
import Tundra.Http.HttpRequest
import Tundra.Http.HttpContext
import Tundra.Http.HttpLines
import Tundra.Http.RequestGrammar
import Tundra.Http.RequestRendering
import Tundra.Http.Incremental
import Tundra.Http.RequestBoundary
import Tundra.Http.ContextReuse
import Tundra.Http.Pipelining
import Tundra.Http.HttpResponse
import Tundra.Http.ResponseFraming
import Tundra.Http.HttpClient
import Tundra.Http.HttpServer
import Tundra.Http.Segmentation
import Tundra.Http.Rejection
import Tundra.Http.RequestService
import Tundra.Http.Pages
import Tundra.Http.Session
import Tundra.Base.AsyncLogger
import Tundra.Base.LogAppend
import Tundra.Base.LogPipeline
import Tundra.Base.LogStop
import Tundra.Base.BufferAccounting
import Tundra.Base.LogDescriptors
import Tundra.Base.LogFile
import Tundra.Base.LogRolling
import Tundra.Base.LogMapping
import Tundra.Base.LogStorage
import Tundra.Base.LogReader
import Tundra.Base.LogProgress
import Tundra.Base.LogLifecycle
import Tundra.Net.TimerLiveness
