import CatOs.Net.Tcp.ReceiveStream
import CatOs.Net.Tcp.SegmentSize
import CatOs.Net.Tcp.NoStall
import CatOs.Net.Tcp.EndOfStream
import CatOs.Net.Tcp.OptionRoundTrip
import CatOs.Net.Tcp.WindowRun
import CatOs.Net.Tcp.Reclaim
import CatOs.Net.Tcp.Unacceptable
import CatOs.Net.Tcp.Karn
import CatOs.Net.Tcp.ShiftStep
import CatOs.Net.Tcp.Reuse
import CatOs.Net.ArpRate
import CatOs.Net.DnsSource
import CatOs.Net.Poll
import CatOs.Net.BacklogRun
import CatOs.Net.DhcpLease
import CatOs.Drivers.RxOnce
import CatOs.Drivers.TxOwner
import CatOs.Fs.Descriptors
import CatOs.Fs.FatBounds
import CatOs.Fs.FatRead
import CatOs.Memory.UserAccess
import CatOs.Memory.Agreement
import CatOs.Proc.Waits
import CatOs.Proc.KernelStacks
import CatOs.Proc.Queue
import CatOs.Libc.HeapRun
import CatOs.Drivers.Ide
import CatOs.Fs.Seek
import CatOs.Fs.RootFiles
import CatOs.Libc.Qsort
import CatOs.Drivers.Keyboard
import CatOs.Shell.History
