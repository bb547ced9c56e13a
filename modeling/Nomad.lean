import Nomad.Container.Heap
import Nomad.Container.Map
import Nomad.Go.Time
import Nomad.Structs.Types
import Nomad.Lib.DelayHeap
import Nomad.Server.EvalBroker
import Nomad.Server.EvalBrokerInvariant
import Nomad.Server.EvalBrokerDequeue
import Nomad.Go.Uint
import Nomad.Structs.Alloc
import Nomad.Structs.Bitmap
import Nomad.Scheduler.ReconcileUtil
import Nomad.Scheduler.Reconcile
import Nomad.Scheduler.ReconcileApply
import Nomad.Scheduler.NameIndex
import Nomad.Scheduler.Filters
import Nomad.Scheduler.ComputeStop
import Nomad.Container.Grows
import Nomad.Container.SwapRemove
import Nomad.Scheduler.GroupFrame
import Nomad.Scheduler.GroupCount
import Nomad.Scheduler.ReconcileCount
import Nomad.Go.Outcome
import Nomad.Go.Strings
import Nomad.Structs.CSI
import Nomad.Structs.Plan
import Nomad.State.StateStore
import Nomad.State.CSIVolumes
import Nomad.Scheduler.CSIVolumeChecker
import Nomad.Server.CoreSched
import Nomad.Scheduler.PropertySet
import Nomad.Scheduler.SystemDiff
import Nomad.Structs.Devices
import Nomad.Scheduler.Device
import Nomad.Scheduler.MaxParallel
import Nomad.Server.BlockedEvals
import Nomad.Server.BlockedEvalsTracking
import Nomad.Scheduler.FeasibilityWrapper
import Nomad.Scheduler.FollowupBatches
import Nomad.Structs.ReschedulePolicy
import Nomad.Container.Window
import Nomad.Scheduler.RescheduleChain
import Nomad.Scheduler.Spread
import Nomad.Structs.PortRanges
import Nomad.Helper.EscapingIO
import Nomad.Structs.Network
import Nomad.Server.BlockedEvalsSystem
import Nomad.Structs.Funcs
import Nomad.Server.Partition
import Nomad.Container.HeapOrder
import Nomad.Lib.DelayHeapOrder
import Nomad.Lib.ScoreHeap
import Nomad.State.JobWrites
import Nomad.State.AllocWrites
import Nomad.State.PlanResults
import Nomad.State.SummaryInvariant
import Nomad.State.DeploymentInvariant
