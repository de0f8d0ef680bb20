import KernelStudio.Proof.EndToEnd.TimerReady
import KernelStudio.Proof.EndToEnd.Precedence
import KernelStudio.Proof.EndToEnd.ReleaseGuard
import KernelStudio.Proof.EndToEnd.Deadline
import KernelStudio.Proof.EndToEnd.ReleaseChain
import KernelStudio.Proof.EndToEnd.Teardown
import KernelStudio.Proof.EndToEnd.Schedulability
import KernelStudio.Proof.EndToEnd.HeaderLog
import KernelStudio.Proof.EndToEnd.CalibrateTeardown
import KernelStudio.Proof.EndToEnd.CalibratePartition
import KernelStudio.Proof.EndToEnd.LoopCount
import KernelStudio.Proof.EndToEnd.FirstFit
import KernelStudio.Proof.EndToEnd.ImpossibleSubtask
import KernelStudio.Proof.EndToEnd.Comparators
import KernelStudio.Proof.EndToEnd.DeadlineOrder
import KernelStudio.Proof.EndToEnd.RunDeadline
import KernelStudio.Proof.EndToEnd.LoopDuration
import KernelStudio.Proof.EndToEnd.StaleFields
import KernelStudio.Proof.EndToEnd.Stopping
import KernelStudio.Proof.EndToEnd.ReadyUse
import KernelStudio.Proof.EndToEnd.CalibratedHeader
import KernelStudio.Proof.SharedMemory.Handshake
import KernelStudio.Proof.TcpServer.AcceptLoop
import KernelStudio.Proof.TcpServer.Connection
import KernelStudio.Proof.TcpServer.Resources
import KernelStudio.Proof.TcpClient
import KernelStudio.Proof.UdpServer
import KernelStudio.Proof.KernelFifo
import KernelStudio.Proof.ProcessObserver
import KernelStudio.Proof.ProcessChain
import KernelStudio.Proof.Paging.Accounting
import KernelStudio.Proof.Paging.Mode
import KernelStudio.Proof.Paging.Record
import KernelStudio.Proof.Paging.Fault
import KernelStudio.Proof.Paging.Mmap
import KernelStudio.Proof.Paging.PageList
import KernelStudio.Proof.Paging.ConcurrentFault
import KernelStudio.Proof.Workload.Product
import KernelStudio.Proof.Workload.Pages
import KernelStudio.Proof.Workload.Served
import KernelStudio.Proof.KernelMemory
import KernelStudio.Proof.TimingBarrier
import KernelStudio.Proof.TimingModule.Control
import KernelStudio.Proof.TimingModule.Stamps
import KernelStudio.Proof.TimingModule.Unload
import KernelStudio.Proof.Realtime
import KernelStudio.Proof.Interfering
import KernelStudio.Proof.RandomAccess
import KernelStudio.Proof.HpccStarts
import KernelStudio.Proof.Inotify.WatchTable
import KernelStudio.Proof.Monitoring
