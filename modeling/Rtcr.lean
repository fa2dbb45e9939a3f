import Rtcr.Lib.Reconcile
import Rtcr.OfflineStorage
import Rtcr.Intercept.CpuSession
import Rtcr.Intercept.RegionMap
import Rtcr.Intercept.RamSession
import Rtcr.Intercept.Lockout
import Rtcr.Checkpointer.RunStates
import Rtcr.Checkpointer.AttachedRegions
import Rtcr.Checkpointer.Exact
import Rtcr.Checkpointer.Phases
import Rtcr.Checkpointer.History
import Rtcr.Checkpointer.Users
import Rtcr.Checkpointer.Records
import Rtcr.Incremental.History
import Rtcr.Incremental.Ledger
import Rtcr.Incremental.FaultSearch
import Rtcr.Incremental.CapMapMarks
import Rtcr.Incremental.Attachments
import Rtcr.Incremental.ManagedAlloc
import Rtcr.Incremental.Schedule
import Rtcr.Incremental.WindowCopies
import Rtcr.Restorer.References
import Rtcr.Restorer.CapMapAgree
import Rtcr.Restorer.Steps
import Rtcr.Restorer.QuotaRestore
import Rtcr.Restorer.Exclusions
import Rtcr.Restorer.SignalContexts
import Rtcr.Restorer.CapIndexList
import Rtcr.Restorer.CapWindows
import Rtcr.Restorer.UnknownOrigin
import Rtcr.Foc.RestoredNames
import Rtcr.Target.Requests
import Rtcr.Target.Checkpoints
import Rtcr.Target.FlatMemory
