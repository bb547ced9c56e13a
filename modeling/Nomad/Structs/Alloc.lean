import Nomad.Container.Map
import Nomad.Structs.Types

/-!
# Jobs, deployments and allocations

The records of `nomad/structs/structs.go` that the scheduler's reconciler reads, with the
methods it calls. Statuses are the enumerations of the source's constants. A pointer field
that the code tests for `nil` is an `Option`; so is a slice whose `nil` the code tells apart
from an empty one (`RescheduleTracker.Events`).

An allocation's name is `AllocName(job, group, idx)`, the string `job.group[idx]`, and `Index()`
parses `idx` back out of it. Every name the scheduler writes has that form, so the model keeps
the name as its two parts: `NamePrefix` is the text `job.group`, and `Name` the index, which
`Index` returns.

An allocation's `Job` is not optional: the state store attaches a job to every allocation it
keeps (`upsertedAlloc_Job`), and a write request, where Go leaves the job out, carries it as an
`Option` (`AllocInput`).
-/

namespace Nomad.Structs

open Go Container

inductive AllocDesiredStatus where
  | run | stop | evict
  deriving DecidableEq, Repr, Inhabited

inductive AllocClientStatus where
  | pending | running | complete | failed | lost
  deriving DecidableEq, Repr, Inhabited

inductive NodeStatus where
  | initializing | ready | down
  deriving DecidableEq, Repr, Inhabited

inductive DeploymentStatus where
  | running | paused | failed | successful | cancelled
  deriving DecidableEq, Repr, Inhabited

def DeploymentStatus.toString : DeploymentStatus → String
  | .running => "running"
  | .paused => "paused"
  | .failed => "failed"
  | .successful => "successful"
  | .cancelled => "cancelled"

inductive TaskStateKind where
  | pending | running | dead
  deriving DecidableEq, Repr, Inhabited

def DeploymentStatusDescriptionRunning : String := "Deployment is running"
def DeploymentStatusDescriptionRunningNeedsPromotion : String :=
  "Deployment is running but requires manual promotion"
def DeploymentStatusDescriptionRunningAutoPromotion : String :=
  "Deployment is running pending automatic promotion"
def DeploymentStatusDescriptionSuccessful : String := "Deployment completed successfully"
def DeploymentStatusDescriptionStoppedJob : String := "Cancelled because job is stopped"
def DeploymentStatusDescriptionNewerJob : String := "Cancelled due to newer version of job"
def EvalStatusBlocked : String := "blocked"
def EvalStatusPending : String := "pending"
def EvalStatusComplete : String := "complete"
def EvalStatusFailed : String := "failed"
def EvalStatusCancelled : String := "canceled"
def JobTypeService : String := "service"
def JobTypeBatch : String := "batch"
def JobTypeSystem : String := "system"
def JobStatusPending : String := "pending"
def JobStatusRunning : String := "running"
def JobStatusDead : String := "dead"
def DefaultNamespace : String := "default"
def EvalTriggerRetryFailedAlloc : String := "alloc-failure"
def EvalTriggerMaxPlans : String := "max-plan-attempts"

def Evaluation.TerminalStatus (e : Evaluation) : Bool :=
  e.Status == EvalStatusComplete || e.Status == EvalStatusFailed || e.Status == EvalStatusCancelled

-- ---------------------------------------------------------------------------
-- Jobs
-- ---------------------------------------------------------------------------

structure ReschedulePolicy where
  Attempts : Int
  Interval : Duration
  Delay : Duration
  DelayFunction : String
  MaxDelay : Duration
  Unlimited : Bool
  deriving DecidableEq, Repr

structure UpdateStrategy where
  MaxParallel : Int
  Canary : Int
  AutoRevert : Bool
  AutoPromote : Bool
  ProgressDeadline : Duration
  deriving DecidableEq, Repr

/-- `UpdateStrategy.IsEmpty`, on a possibly `nil` strategy. -/
def UpdateStrategy.IsEmpty : Option UpdateStrategy → Bool
  | none => true
  | some u => u.MaxParallel == 0

def VolumeTypeHost : String := "host"
def VolumeTypeCSI : String := "csi"

structure VolumeRequest where
  Name : String
  «Type» : String
  Source : String
  ReadOnly : Bool
  deriving DecidableEq, Repr

structure Constraint where
  LTarget : String
  RTarget : String
  Operand : String
  deriving DecidableEq, Repr

def ConstraintDistinctProperty : String := "distinct_property"

structure SpreadTarget where
  Value : String
  /-- A `uint8`. -/
  Percent : Nat
  deriving DecidableEq, Repr

structure Spread where
  Attribute : String
  /-- An `int8`. -/
  Weight : Int
  SpreadTarget : List SpreadTarget
  deriving DecidableEq, Repr

structure TaskGroup where
  Name : String
  Count : Int
  Update : Option UpdateStrategy
  ReschedulePolicy : Option ReschedulePolicy
  Volumes : Map String VolumeRequest := ∅
  Constraints : List Constraint := []
  Spreads : List Spread := []
  deriving DecidableEq, Repr

structure PeriodicConfig where
  Enabled : Bool
  deriving DecidableEq, Repr

/-- A parameterized job's configuration; only whether the job has one is read. -/
structure ParameterizedJobConfig where
  deriving DecidableEq, Repr

structure Job where
  ID : String
  Namespace : String
  «Type» : String
  Priority : Int
  Stop : Bool
  Version : Nat
  CreateIndex : Nat
  ModifyIndex : Nat
  JobModifyIndex : Nat
  TaskGroups : List TaskGroup
  Status : String := ""
  Periodic : Option PeriodicConfig := none
  ParameterizedJob : Option ParameterizedJobConfig := none
  Dispatched : Bool := false
  Constraints : List Constraint := []
  Spreads : List Spread := []
  ParentID : String := ""
  Stable : Bool := false
  /-- The job's name, which the system scheduler names allocations after. -/
  Name : String := ""
  deriving DecidableEq, Repr

def Job.LookupTaskGroup (j : Job) (name : String) : Option TaskGroup :=
  j.TaskGroups.find? (·.Name == name)

def Job.IsParameterized (j : Job) : Bool := j.ParameterizedJob.isSome && !j.Dispatched

def Job.IsPeriodic (j : Job) : Bool := j.Periodic.isSome

/-- `Job.Stopped`, on a possibly `nil` job. -/
def Job.Stopped : Option Job → Bool
  | none => true
  | some j => j.Stop

-- ---------------------------------------------------------------------------
-- Deployments and nodes
-- ---------------------------------------------------------------------------

structure DeploymentState where
  AutoRevert : Bool
  AutoPromote : Bool
  ProgressDeadline : Duration
  Promoted : Bool
  PlacedCanaries : List String
  DesiredCanaries : Int
  DesiredTotal : Int
  HealthyAllocs : Int
  RequireProgressBy : Time := ⟨0⟩
  PlacedAllocs : Int := 0
  UnhealthyAllocs : Int := 0
  deriving DecidableEq, Repr

def DeploymentState.empty : DeploymentState :=
  ⟨false, false, 0, false, [], 0, 0, 0, ⟨0⟩, 0, 0⟩

structure Deployment where
  ID : String
  Namespace : String
  JobID : String
  JobVersion : Nat
  JobModifyIndex : Nat
  JobSpecModifyIndex : Nat
  JobCreateIndex : Nat
  TaskGroups : Map String DeploymentState
  Status : DeploymentStatus
  StatusDescription : String
  CreateIndex : Nat := 0
  ModifyIndex : Nat := 0
  deriving DecidableEq, Repr

namespace Deployment

def Active (d : Deployment) : Bool :=
  match d.Status with
  | .running | .paused => true
  | _ => false

def RequiresPromotion (d : Deployment) : Bool :=
  d.TaskGroups.entries.length ≠ 0 && d.Status == .running &&
    d.TaskGroups.entries.any fun g => 0 < g.2.DesiredCanaries && !g.2.Promoted

def HasAutoPromote (d : Deployment) : Bool :=
  d.TaskGroups.entries.length ≠ 0 && d.Status == .running &&
    d.TaskGroups.entries.all fun g => g.2.AutoPromote

end Deployment

/-- `NewDeployment`; `id` is what `uuid.Generate` returned. -/
def NewDeployment (job : Job) (id : String) : Deployment where
  ID := id
  Namespace := job.Namespace
  JobID := job.ID
  JobVersion := job.Version
  JobModifyIndex := job.ModifyIndex
  JobSpecModifyIndex := job.JobModifyIndex
  JobCreateIndex := job.CreateIndex
  TaskGroups := ∅
  Status := .running
  StatusDescription := DeploymentStatusDescriptionRunning

structure CSINodeInfo where
  MaxVolumes : Int
  deriving DecidableEq, Repr

structure CSIInfo where
  Healthy : Bool
  NodeInfo : CSINodeInfo
  deriving DecidableEq, Repr

namespace psstructs

/-- `psstructs.Attribute`, a typed attribute value with its unit. The float form is left out: no
modelled code builds one. -/
structure Attribute where
  Unit : String := ""
  Int : Option Int := none
  String : Option String := none
  Bool : Option Bool := none
  deriving DecidableEq, Repr

def NewStringAttribute (s : String) : Attribute := { String := some s }

end psstructs

structure DeviceIdTuple where
  Vendor : String
  «Type» : String
  Name : String
  deriving DecidableEq, Repr

/-- `Matches(other)`: every part that `other` sets agrees with this tuple. -/
def DeviceIdTuple.Matches (id : DeviceIdTuple) : Option DeviceIdTuple → Bool
  | none => false
  | some other =>
    (other.Name == "" || other.Name == id.Name) && (other.Vendor == "" || other.Vendor == id.Vendor) &&
      (other.«Type» == "" || other.«Type» == id.«Type»)

structure NodeDevice where
  ID : String
  Healthy : Bool
  deriving DecidableEq, Repr

structure NodeDeviceResource where
  Vendor : String
  «Type» : String
  Name : String
  Instances : List NodeDevice
  Attributes : Map String psstructs.Attribute := ∅
  deriving DecidableEq, Repr

def NodeDeviceResource.ID (n : NodeDeviceResource) : DeviceIdTuple :=
  { Vendor := n.Vendor, «Type» := n.«Type», Name := n.Name }

structure Port where
  Label : String := ""
  Value : Int
  To : Int := 0
  deriving DecidableEq, Repr

structure NetworkResource where
  Mode : String := ""
  Device : String := ""
  CIDR : String := ""
  IP : String := ""
  MBits : Int := 0
  ReservedPorts : List Port := []
  DynamicPorts : List Port := []
  deriving DecidableEq, Repr

/-- `structs.Resources`, the legacy resources, of which the network index reads the networks. -/
structure Resources where
  Networks : List NetworkResource := []
  deriving DecidableEq, Repr

structure NodeReservedNetworkResources where
  ReservedHostPorts : String := ""
  deriving DecidableEq, Repr

structure NodeReservedResources where
  Networks : NodeReservedNetworkResources := {}
  deriving DecidableEq, Repr

structure NodeResources where
  Devices : List NodeDeviceResource := []
  Networks : List NetworkResource := []
  deriving DecidableEq, Repr

structure AllocatedDeviceResource where
  Vendor : String
  «Type» : String
  Name : String
  DeviceIDs : List String
  deriving DecidableEq, Repr

def AllocatedDeviceResource.ID (a : AllocatedDeviceResource) : DeviceIdTuple :=
  { Vendor := a.Vendor, «Type» := a.«Type», Name := a.Name }

structure AllocatedTaskResources where
  Devices : List AllocatedDeviceResource := []
  Networks : List NetworkResource := []
  deriving DecidableEq, Repr

structure AllocatedSharedResources where
  Networks : List NetworkResource := []
  deriving DecidableEq, Repr

structure AllocatedResources where
  Tasks : Map String AllocatedTaskResources := ∅
  Shared : AllocatedSharedResources := {}
  deriving DecidableEq, Repr

structure Node where
  Status : NodeStatus
  ID : String := ""
  CSINodePlugins : Map String CSIInfo := ∅
  NodeResources : Option NodeResources := none
  Datacenter : String := ""
  Name : String := ""
  NodeClass : String := ""
  Attributes : Map String String := ∅
  Meta : Map String String := ∅
  Drain : Bool := false
  SchedulingEligibility : String := "eligible"
  ComputedClass : String := ""
  Resources : Option Resources := none
  ReservedResources : Option NodeReservedResources := none
  Reserved : Option Structs.Resources := none
  deriving DecidableEq, Repr

def Node.TerminalStatus (n : Node) : Bool := n.Status == .down

def NodeSchedulingEligible : String := "eligible"
def NodeSchedulingIneligible : String := "ineligible"

def ShouldDrainNode : NodeStatus → Bool
  | .initializing | .ready => false
  | .down => true

-- ---------------------------------------------------------------------------
-- Allocations
-- ---------------------------------------------------------------------------

structure DesiredTransition where
  Migrate : Option Bool
  Reschedule : Option Bool
  ForceReschedule : Option Bool
  deriving DecidableEq, Repr

namespace DesiredTransition

def ShouldMigrate (d : DesiredTransition) : Bool := d.Migrate == some true
def ShouldReschedule (d : DesiredTransition) : Bool := d.Reschedule == some true
def ShouldForceReschedule (d : DesiredTransition) : Bool := d.ForceReschedule == some true

end DesiredTransition

structure AllocDeploymentStatus where
  Healthy : Option Bool
  Canary : Bool
  Timestamp : Time := ⟨0⟩
  deriving DecidableEq, Repr

namespace AllocDeploymentStatus

def IsHealthy : Option AllocDeploymentStatus → Bool
  | none => false
  | some a => a.Healthy == some true

def IsUnhealthy : Option AllocDeploymentStatus → Bool
  | none => false
  | some a => a.Healthy == some false

def IsCanary : Option AllocDeploymentStatus → Bool
  | none => false
  | some a => a.Canary

def HasHealth : Option AllocDeploymentStatus → Bool
  | none => false
  | some a => a.Healthy.isSome

end AllocDeploymentStatus

structure TaskState where
  State : TaskStateKind
  Failed : Bool
  FinishedAt : Time
  deriving DecidableEq, Repr

def TaskState.Successful (ts : TaskState) : Bool := ts.State == .dead && !ts.Failed

structure RescheduleEvent where
  /-- `UnixNano` of the reschedule. -/
  RescheduleTime : Int
  Delay : Duration
  deriving DecidableEq, Repr

structure RescheduleTracker where
  Events : Option (List RescheduleEvent)
  deriving DecidableEq, Repr

structure Allocation where
  ID : String
  Namespace : String := "default"
  /-- The index `idx` of the name `job.group[idx]`, which the reconciler reads through `Index`. -/
  Name : Nat
  JobID : String
  Job : Job
  TaskGroup : String
  NodeID : String
  DesiredStatus : AllocDesiredStatus
  DesiredTransition : DesiredTransition
  ClientStatus : AllocClientStatus
  DeploymentID : String
  DeploymentStatus : Option AllocDeploymentStatus
  TaskStates : List (String × TaskState)
  RescheduleTracker : Option RescheduleTracker
  NextAllocation : String
  FollowupEvalID : String
  ModifyTime : Int
  EvalID : String := ""
  CreateIndex : Nat := 0
  ModifyIndex : Nat := 0
  DesiredDescription : String := ""
  AllocatedResources : Option AllocatedResources := none
  TaskResources : Map String Resources := ∅
  ClientDescription : String := ""
  PreviousAllocation : String := ""
  PreemptedByAllocation : String := ""
  /-- The text `job.group` before the bracket of the name. With `Name` it gives the name's text
  `job.group[idx]`, and the text gives both back: the index is what stands between the last `[`
  and the closing `]`. -/
  NamePrefix : String := ""
  deriving DecidableEq, Repr

/-- `structs.AllocationDiff`, the fields of an allocation a plan sends for one it stops or
preempts; `ClientStatus` is `none` where it is `""`. -/
structure AllocationDiff where
  ID : String
  PreemptedByAllocation : String := ""
  DesiredDescription : String := ""
  ClientStatus : Option AllocClientStatus := none
  ModifyTime : Int := 0
  deriving DecidableEq, Repr

def AllocName (_job _group : String) (idx : Nat) : Nat := idx

namespace Allocation

variable (a : Allocation)

def Index : Nat := a.Name

/-- The name `job.group[idx]`, as the text before the bracket and the index. -/
def FullName : String × Nat := (a.NamePrefix, a.Name)

def AllocationDiff : Structs.AllocationDiff :=
  ⟨a.ID, a.PreemptedByAllocation, a.DesiredDescription, some a.ClientStatus, a.ModifyTime⟩

def ServerTerminalStatus : Bool :=
  match a.DesiredStatus with
  | .stop | .evict => true
  | .run => false

def ClientTerminalStatus : Bool :=
  match a.ClientStatus with
  | .complete | .failed | .lost => true
  | .pending | .running => false

def TerminalStatus : Bool := a.ServerTerminalStatus || a.ClientTerminalStatus

def RanSuccessfully : Bool :=
  a.TaskStates.length ≠ 0 && a.TaskStates.all fun s => s.2.Successful

def LastEventTime : Time :=
  let lastEventTime := a.TaskStates.foldl (fun (t : Time) s =>
    if t.IsZero || s.2.FinishedAt.After t then s.2.FinishedAt else t) ⟨0⟩
  if lastEventTime.IsZero then Time.Unix 0 a.ModifyTime else lastEventTime

def ReschedulePolicy : Option Structs.ReschedulePolicy :=
  (a.Job.LookupTaskGroup a.TaskGroup).bind (·.ReschedulePolicy)

def NextDelay : Duration :=
  match a.ReschedulePolicy with
  | none => 0
  | some policy =>
    match a.RescheduleTracker.bind (·.Events) with
    | none | some [] => policy.Delay
    | some events =>
      let last := events.getLast?.getD ⟨0, 0⟩
      let grown : Option Duration :=
        if policy.DelayFunction = "exponential" then some (wrap64 (last.Delay * 2))
        else if policy.DelayFunction = "fibonacci" then
          if 2 ≤ events.length then
            let fibN1Delay := last.Delay
            let fibN2Delay := (events[events.length - 2]?.map (·.Delay)).getD 0
            if fibN2Delay = policy.MaxDelay ∧ fibN1Delay = policy.Delay then some fibN1Delay
            else some (wrap64 (fibN1Delay + fibN2Delay))
          else some policy.Delay
        else none
      match grown with
      | none => policy.Delay
      | some delayDur =>
        if 0 < policy.MaxDelay ∧ policy.MaxDelay < delayDur then
          let timeDiff := wrap64 (a.LastEventTime.UnixNano - last.RescheduleTime)
          if policy.MaxDelay < timeDiff then policy.Delay else policy.MaxDelay
        else delayDur

def NextRescheduleTime : Time × Bool :=
  let failTime := a.LastEventTime
  match a.ReschedulePolicy with
  | none => (⟨0⟩, false)
  | some reschedulePolicy =>
    if a.DesiredStatus = .stop ∨ a.ClientStatus ≠ .failed ∨ failTime.IsZero then (⟨0⟩, false)
    else
      let nextDelay := a.NextDelay
      let nextRescheduleTime := failTime.Add nextDelay
      match a.RescheduleTracker with
      | some { Events := some events } =>
        if 0 < reschedulePolicy.Attempts then
          let attempted := (events.filter fun e =>
            wrap64 (failTime.UnixNano - e.RescheduleTime) < reschedulePolicy.Interval).length
          (nextRescheduleTime,
            decide ((attempted : Int) < reschedulePolicy.Attempts) &&
              decide (nextDelay < reschedulePolicy.Interval))
        else (nextRescheduleTime, reschedulePolicy.Unlimited)
      | tracker =>
        (nextRescheduleTime,
          reschedulePolicy.Unlimited || (decide (0 < reschedulePolicy.Attempts) && tracker.isNone))

end Allocation

end Nomad.Structs
