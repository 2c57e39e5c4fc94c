import CLogger.Queue.Sequential
import CLogger.Queue.Sizing
import CLogger.Global.Correctness
import CLogger.Lockdep
import CLogger.Redact
import CLogger.Process.Correctness
import CLogger.Lib.RelyGuarantee
import CLogger.File.Correctness
import CLogger.File.Results
import CLogger.File.Size
import CLogger.Scatter
import CLogger.Syslog.Throttle
import CLogger.Syslog.Framing
import CLogger.Format.Timestamp
import CLogger.Format.Canonical
import CLogger.Lifecycle.Correctness
import CLogger.ForkFd.Correctness
import CLogger.Runtime
import CLogger.Instance.Wakeup
import CLogger.Instance.Shutdown
import CLogger.File.Reopen
import CLogger.File.Namespace
import CLogger.File.Durability
import CLogger.Instance.Conservation
import CLogger.Instance.Acknowledgement
import CLogger.Instance.Durability
import CLogger.Instance.Streams
