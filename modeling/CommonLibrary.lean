import CommonLibrary.Foundation.Run
import CommonLibrary.Foundation.History
import CommonLibrary.Foundation.Answers
import CommonLibrary.Foundation.Threads
import CommonLibrary.Foundation.Weights
import CommonLibrary.Foundation.Heap
import CommonLibrary.Foundation.Chain
import CommonLibrary.Foundation.Loop
import CommonLibrary.Foundation.Calls
import CommonLibrary.Thread.Monitor
import CommonLibrary.Utils.List
import CommonLibrary.Utils.Clock
import CommonLibrary.Utils.AsyncLogWriter
import CommonLibrary.Utils.LogWriterProgress
import CommonLibrary.Utils.Logger
import CommonLibrary.Utils.LogRecords
import CommonLibrary.Thread.MonitorProgress
import CommonLibrary.Thread.SemaphoreCalls
import CommonLibrary.Thread.TaskQueue
import CommonLibrary.Thread.QueueProgress
import CommonLibrary.Thread.Group
import CommonLibrary.Poller.EventPoller
import CommonLibrary.Poller.Registrations
import CommonLibrary.Poller.Dispatch
import CommonLibrary.Poller.TaskList
import CommonLibrary.Poller.Wakeup
import CommonLibrary.Poller.TaskProgress
import CommonLibrary.Poller.DelayTask
import CommonLibrary.Poller.DeadlinesLeft
import CommonLibrary.Poller.Timeout
import CommonLibrary.Poller.Timer
import CommonLibrary.Poller.RunLoop
import CommonLibrary.Poller.LoopViews
import CommonLibrary.Poller.LoopDelays
import CommonLibrary.Net.BufferRaw
import CommonLibrary.Net.BufferList
import CommonLibrary.Net.BufferStream
import CommonLibrary.Net.Datagrams
import CommonLibrary.Net.RemainSize
import CommonLibrary.Net.SendQueue
import CommonLibrary.Net.SendProgress
import CommonLibrary.Net.TcpStream
import CommonLibrary.Net.Interfaces
import CommonLibrary.Net.SocketUtils
import CommonLibrary.Net.World
import CommonLibrary.Net.Socket
import CommonLibrary.Net.Micro
import CommonLibrary.Net.WellFormed
import CommonLibrary.Net.Compose
import CommonLibrary.Net.Effects
import CommonLibrary.Net.WriteInterest
import CommonLibrary.Net.OwnBytes
import CommonLibrary.Net.SendOrder
import CommonLibrary.Net.ConnectReport
import CommonLibrary.Net.Descriptors
import CommonLibrary.Net.Reentry
import CommonLibrary.Net.ReadDrain
import CommonLibrary.Net.Delivery
import CommonLibrary.Net.ErrorScope
import CommonLibrary.Net.AcceptLoop
import CommonLibrary.Net.ListenResult
import CommonLibrary.Net.ErrorTruth
import CommonLibrary.Net.ConnectOutcome
import CommonLibrary.Net.OnFlushed
import CommonLibrary.Net.ConnectionRuns
import CommonLibrary.Net.OpenedSockets
import CommonLibrary.Net.DnsCache
