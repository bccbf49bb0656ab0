import Dcfpe.Base.Buffer
import Dcfpe.Base.InterfaceList
import Dcfpe.Base.InterfacePtr
import Dcfpe.Base.RepeatedAction
import Dcfpe.Base.WeakPtr
import Dcfpe.Lib.Machine
import Dcfpe.Lib.Ledger
import Dcfpe.Lib.Filing
import Dcfpe.Lib.Tokens
import Dcfpe.Dpe.Proto
import Dcfpe.Dpe.MasterNode
import Dcfpe.Dpe.MasterLedger
import Dcfpe.Dpe.MasterStart
import Dcfpe.Dpe.MasterRun
import Dcfpe.Dpe.Restart
import Dcfpe.Dpe.WorkerNode
import Dcfpe.Dpe.WorkerExit
import Dcfpe.Dpe.MasterRecords
import Dcfpe.Dpe.Cluster
import Dcfpe.Dpe.ComputedOnce
import Dcfpe.Dpe.Sockets
import Dcfpe.Dpe.Stranded
import Dcfpe.Dpe.Dropped
import Dcfpe.Zmq.ServeOnce
import Dcfpe.Process.Pipe
import Dcfpe.Process.Run
import Dcfpe.Process.Delivery
import Dcfpe.Service.DeviceImpl
import Dcfpe.Service.InitJob
import Dcfpe.Service.Retransmission
import Dcfpe.Dpe.WorkerRecords
import Dcfpe.Shell.Arguments
import Dcfpe.Shell.BatchExecuteShell
import Dcfpe.Shell.Handshake
import Dcfpe.Shell.Output
import Dcfpe.Lib.Decimal
import Dcfpe.Service.Project
import Dcfpe.Service.RoundTrip
import Dcfpe.Service.Accounting
import Dcfpe.Service.JobSuccess
import Dcfpe.Service.Tracking
import Dcfpe.Service.OutputPairing
import Dcfpe.Dpe.EmptyArrays
import Dcfpe.Dpe.HandOut
import Dcfpe.Dpe.HandOver
import Dcfpe.Dpe.LoopAccounts
import Dcfpe.Dpe.Malformed
import Dcfpe.Dpe.TaskRange
import Dcfpe.Dpe.TaskRangeLimits
import Dcfpe.Service.DeviceCreator
import Dcfpe.Service.DeviceReplacement
import Dcfpe.Service.Dispatch
import Dcfpe.Service.FailedSends
import Dcfpe.Zmq.AnswerOnce
import Dcfpe.Zmq.Ticks
import Dcfpe.Service.CompilePipeline
import Dcfpe.Service.PartialLoad
import Dcfpe.Service.RepeatedIds
import Dcfpe.Service.TaskIds
import Dcfpe.Shell.BatchSuccess
import Dcfpe.Shell.DeployCommands
import Dcfpe.Shell.Options
import Dcfpe.Shell.ReplyPaths
import Dcfpe.Shell.UnclosedWord
import Dcfpe.Dpe.WorkLeft
import Dcfpe.Dpe.Completion
import Dcfpe.Base.ThreadPool
import Dcfpe.Base.PoolShutdown
import Dcfpe.Zmq.Address
import Dcfpe.Service.Discovery
import Dcfpe.Service.Controller
import Dcfpe.Zmq.MessageCenter
import Dcfpe.Service.Channels
import Dcfpe.Service.ZServer
import Dcfpe.Dpe.HttpRequest
import Dcfpe.Dpe.StatusPage
import Dcfpe.Dpe.StatusPolls
import Dcfpe.Process.CmdLine
import Dcfpe.Process.Environment
import Dcfpe.Process.Stop
import Dcfpe.Shell.Streams
import Dcfpe.Shell.FileTransfer
import Dcfpe.Service.LateReplies
import Dcfpe.Service.Placeholders
