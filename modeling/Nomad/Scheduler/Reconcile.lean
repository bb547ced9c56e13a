import Nomad.Scheduler.ReconcileUtil

/-!
# `scheduler/reconcile.go`

The allocation reconciler: from the job, its deployment and its existing allocations, the
stops, placements and updates that bring the cluster in line with the job.

The reconciler is a record passed from call to call. Go's methods write through pointers:
`a.result`, the `desiredChanges` of a group, the migrate set and the name index that
`computeStop` is handed. Each function here returns what it writes. `desiredTGUpdates[group]`
is stored once the group is done; nothing reads it before then.

Two effects need a word.
* `uuid.Generate` is a stream `uuids` of IDs with a count of those taken.
* When a group creates the deployment, `a.deployment` and `a.result.deployment` become one
  pointer. `resultSharesDeployment` records that, and `setDeployment` writes both.

`computeGroup` is one long function in Go. Its blocks are split into definitions here,
named after what each block does.
-/

namespace Nomad.Scheduler

open Go Structs Container

def allocNotNeeded : String := "alloc not needed due to job update"
def allocMigrating : String := "alloc is being migrated"
def allocUpdating : String := "alloc is being updated due to job update"
def allocLost : String := "alloc is lost since its node is down"
def allocRescheduled : String := "alloc was rescheduled because it failed"
def reschedulingFollowupEvalDesc : String := "created for delayed rescheduling"

/-- `allocUpdateType`: whether to ignore the change, whether it is destructive, and the
updated allocation, which is read only when neither holds. -/
abbrev allocUpdateType := Allocation → Job → TaskGroup → Bool × Bool × Allocation

/-- `genericAllocUpdateFn` (`scheduler/util.go`). `tasksUpdated` compares the tasks of two
versions of a group, which the model does not carry; `selectInPlace` is what the rest of the
function decides on the allocation's node through the scheduler's stack. -/
def genericAllocUpdateFn (tasksUpdated : Job → Job → String → Bool)
    (selectInPlace : allocUpdateType) : allocUpdateType := fun existing newJob newTG =>
  if existing.Job.JobModifyIndex = newJob.JobModifyIndex then (true, false, existing)
  else if tasksUpdated newJob existing.Job newTG.Name then (false, true, existing)
  else if existing.TerminalStatus then (true, false, existing)
  else selectInPlace existing newJob newTG

/-- `structs.DesiredUpdates`, without `Preemptions`, which the reconciler never writes. -/
structure DesiredUpdates where
  Ignore : Nat := 0
  Place : Nat := 0
  Migrate : Nat := 0
  Stop : Nat := 0
  InPlaceUpdate : Nat := 0
  DestructiveUpdate : Nat := 0
  Canary : Nat := 0
  deriving DecidableEq, Repr

structure DeploymentStatusUpdate where
  DeploymentID : String
  Status : DeploymentStatus
  StatusDescription : String
  deriving DecidableEq, Repr

structure reconcileResults where
  deployment : Option Deployment := none
  deploymentUpdates : List DeploymentStatusUpdate := []
  place : List allocPlaceResult := []
  destructiveUpdate : List allocDestructiveResult := []
  inplaceUpdate : List Allocation := []
  stop : List allocStopResult := []
  attributeUpdates : Map String Allocation := ∅
  desiredTGUpdates : Map String DesiredUpdates := ∅
  desiredFollowupEvals : Map String (List Evaluation) := ∅

namespace reconcileResults

variable (r : reconcileResults)

def addStop (xs : List allocStopResult) : reconcileResults := { r with stop := r.stop ++ xs }

def addPlace (xs : List allocPlaceResult) : reconcileResults := { r with place := r.place ++ xs }

def addDestructive (xs : List allocDestructiveResult) : reconcileResults :=
  { r with destructiveUpdate := r.destructiveUpdate ++ xs }

def addInplace (xs : List Allocation) : reconcileResults :=
  { r with inplaceUpdate := r.inplaceUpdate ++ xs }

def addDeploymentUpdate (u : DeploymentStatusUpdate) : reconcileResults :=
  { r with deploymentUpdates := r.deploymentUpdates ++ [u] }

end reconcileResults

structure allocReconciler where
  allocUpdateFn : allocUpdateType
  batch : Bool
  job : Option Job
  jobID : String
  oldDeployment : Option Deployment
  deployment : Option Deployment
  deploymentPaused : Bool
  deploymentFailed : Bool
  taintedNodes : Map String (Option Node)
  existingAllocs : List Allocation
  evalID : String
  now : Time
  result : reconcileResults
  uuids : Nat → String
  uuidsTaken : Nat
  /-- Whether `result.deployment` is the same pointer as `deployment`. -/
  resultSharesDeployment : Bool

/-- `NewAllocReconciler`; `now` stands for `time.Now()`. -/
def NewAllocReconciler (allocUpdateFn : allocUpdateType) (batch : Bool) (jobID : String)
    (job : Option Job) (deployment : Option Deployment) (existingAllocs : List Allocation)
    (taintedNodes : Map String (Option Node)) (evalID : String) (now : Time)
    (uuids : Nat → String) : allocReconciler where
  allocUpdateFn := allocUpdateFn
  batch := batch
  job := job
  jobID := jobID
  oldDeployment := none
  deployment := deployment
  deploymentPaused := false
  deploymentFailed := false
  taintedNodes := taintedNodes
  existingAllocs := existingAllocs
  evalID := evalID
  now := now
  result := {}
  uuids := uuids
  uuidsTaken := 0
  resultSharesDeployment := false

/-- `newAllocMatrix`: the allocations by task group, with an empty set for every group of
the job that has none. -/
def newAllocMatrix (job : Option Job) (allocs : List Allocation) : Map String allocSet :=
  let m : Map String allocSet := allocs.foldl
    (fun m a => m.insert a.TaskGroup (((m.lookup a.TaskGroup).getD []).insert a)) ∅
  match job with
  | some job => job.TaskGroups.foldl (fun m tg => if tg.Name ∈ m then m else m.insert tg.Name []) m
  | none => m

namespace allocReconciler

variable (a : allocReconciler)

def withResult (f : reconcileResults → reconcileResults) : allocReconciler :=
  { a with result := f a.result }

def generateUUID : allocReconciler × String :=
  ({ a with uuidsTaken := a.uuidsTaken + 1 }, a.uuids a.uuidsTaken)

/-- `a.deployment = d`, seen through `a.result.deployment` too when the two are one pointer. -/
def setDeployment (d : Deployment) : allocReconciler :=
  { a with
    deployment := some d
    result := if a.resultSharesDeployment then { a.result with deployment := some d } else a.result }

def setDesired (group : String) (d : DesiredUpdates) : allocReconciler :=
  a.withResult fun r => { r with desiredTGUpdates := r.desiredTGUpdates.insert group d }

/-- `markStop`; the empty client status is `none`. -/
def markStop (allocs : allocSet) (clientStatus : Option AllocClientStatus)
    (statusDescription : String) : allocReconciler :=
  a.withResult (·.addStop (allocs.map fun alloc => ⟨alloc, clientStatus, statusDescription⟩))

-- ---------------------------------------------------------------------------
-- Deployments and stopped jobs
-- ---------------------------------------------------------------------------

/-- `cancelDeployments`: cancel the deployment of a stopped job, or one made for an older
version of the job, and drop a successful one. -/
def cancelDeployments : allocReconciler :=
  let stopped : allocReconciler :=
    let a := match a.deployment with
      | some d =>
        if d.Active then
          a.withResult (·.addDeploymentUpdate ⟨d.ID, .cancelled, DeploymentStatusDescriptionStoppedJob⟩)
        else a
      | none => a
    { a with oldDeployment := a.deployment, deployment := none }
  match a.job with
  | none => stopped
  | some job =>
    if job.Stop then stopped
    else
      match a.deployment with
      | none => a
      | some d =>
        let a :=
          if d.JobCreateIndex ≠ job.CreateIndex ∨ d.JobVersion ≠ job.Version then
            let a := if d.Active then
                a.withResult (·.addDeploymentUpdate ⟨d.ID, .cancelled, DeploymentStatusDescriptionNewerJob⟩)
              else a
            { a with oldDeployment := some d, deployment := none }
          else a
        if d.Status = .successful then { a with oldDeployment := some d, deployment := none } else a

def handleStop (m : Map String allocSet) : allocReconciler :=
  m.entries.foldl (fun a g =>
    let as := filterByTerminal g.2
    let (untainted, migrate, lost) := filterByTainted as a.taintedNodes
    let a := a.markStop untainted none allocNotNeeded
    let a := a.markStop migrate none allocNotNeeded
    let a := a.markStop lost (some .lost) allocLost
    a.setDesired g.1 { Stop := as.length }) a

-- ---------------------------------------------------------------------------
-- The helpers of `computeGroup`
-- ---------------------------------------------------------------------------

def groupDeploymentState (tg : TaskGroup) (group : String) : DeploymentState × Bool :=
  match a.deployment.bind (·.TaskGroups.lookup group) with
  | some s => (s, true)
  | none =>
    match tg.Update with
    | some u =>
      if UpdateStrategy.IsEmpty (some u) then (.empty, false)
      else ({ DeploymentState.empty with
              AutoRevert := u.AutoRevert
              AutoPromote := u.AutoPromote
              ProgressDeadline := u.ProgressDeadline }, false)
    | none => (.empty, false)

def filterOldTerminalAllocs (job : Job) (all : allocSet) : allocSet × allocSet :=
  if !a.batch then (all, [])
  else
    let filtered := allocSet.union [] [all]
    let old (x : Allocation) : Bool :=
      (decide (x.Job.Version < job.Version) || decide (x.Job.CreateIndex < job.CreateIndex)) &&
        x.TerminalStatus
    (filtered.filter fun x => !old x, filtered.filter old)

def unpromotedCanaries : Option Deployment → List String
  | some d => d.TaskGroups.entries.flatMap fun s => if s.2.Promoted then [] else s.2.PlacedCanaries
  | none => []

def handleGroupCanaries (all : allocSet) (desiredChanges : DesiredUpdates) :
    allocReconciler × allocSet × allocSet × DesiredUpdates :=
  let stop := unpromotedCanaries a.oldDeployment ++
    match a.deployment with
    | some d => if d.Status = .failed then unpromotedCanaries (some d) else []
    | none => []
  let stopSet := all.fromKeys [stop]
  let a := a.markStop stopSet none allocNotNeeded
  let desiredChanges := { desiredChanges with Stop := desiredChanges.Stop + stopSet.length }
  let all := all.difference [stopSet]
  match a.deployment with
  | some d =>
    let canaryIDs := d.TaskGroups.entries.flatMap (·.2.PlacedCanaries)
    let canaries := all.fromKeys [canaryIDs]
    let (untainted, migrate, lost) := filterByTainted canaries a.taintedNodes
    let a := a.markStop migrate none allocMigrating
    let a := a.markStop lost (some .lost) allocLost
    (a, untainted, all.difference [migrate, lost], desiredChanges)
  | none => (a, [], all, desiredChanges)

def computeLimit (group : TaskGroup) (untainted destructive migrate : allocSet)
    (canaryState : Bool) : Int :=
  if UpdateStrategy.IsEmpty group.Update || destructive.length + migrate.length = 0 then group.Count
  else if a.deploymentPaused || a.deploymentFailed then 0
  else if canaryState then 0
  else
    let maxParallel := (group.Update.map (·.MaxParallel)).getD 0
    let partOf := match a.deployment with
      | some d => (filterByDeployment untainted d.ID).1
      | none => []
    -- the loop returns 0 at the first unhealthy allocation of the deployment
    if partOf.any fun x => AllocDeploymentStatus.IsUnhealthy x.DeploymentStatus then 0
    else
      let limit := maxParallel -
        (partOf.filter fun x => !AllocDeploymentStatus.IsHealthy x.DeploymentStatus).length
      if limit < 0 then 0 else limit

/-- `computePlacements`: the rescheduled allocations, then new names up to the count. It reads
nothing of the reconciler. -/
def computePlacements (group : TaskGroup) (nameIndex : allocNameIndex)
    (untainted migrate reschedule : allocSet) : allocNameIndex × List allocPlaceResult :=
  let place := reschedule.map fun alloc =>
    { name := alloc.Name, taskGroup := group, previousAlloc := some alloc, reschedule := true,
      canary := AllocDeploymentStatus.IsCanary alloc.DeploymentStatus : allocPlaceResult }
  let existing : Int := untainted.length + migrate.length + reschedule.length
  if group.Count ≤ existing then (nameIndex, place)
  else
    let (nameIndex, names) := nameIndex.Next (toUint (group.Count - existing))
    (nameIndex, place ++ names.map fun name =>
      { name, canary := false, taskGroup := group, previousAlloc := none, reschedule := false })

-- ---------------------------------------------------------------------------
-- `computeStop`
-- ---------------------------------------------------------------------------

/-- What the loops of `computeStop` write: the stop set, the stop results appended after the
lost ones, the untainted and migrate sets, the name index, and how many are still to stop. -/
structure stopState where
  stop : allocSet
  stops : List allocStopResult
  untainted : allocSet
  migrate : allocSet
  nameIndex : allocNameIndex
  remove : Int

/-- The body shared by the loops of `computeStop`: stop `alloc` and delete it from the set the
loop ranges over. The migrate loop (`fromMigrate`) also frees the allocation's name. -/
def stopOne (fromMigrate : Bool) (alloc : Allocation) (s : stopState) : stopState where
  stop := s.stop.insert alloc
  stops := s.stops ++ [⟨alloc, none, allocNotNeeded⟩]
  untainted := if fromMigrate then s.untainted else s.untainted.erase alloc.ID
  migrate := if fromMigrate then s.migrate.erase alloc.ID else s.migrate
  nameIndex := if fromMigrate then s.nameIndex.UnsetIndex alloc.Index else s.nameIndex
  remove := s.remove - 1

def stopLoop (fromMigrate : Bool) (pick : Allocation → Bool) :
    List Allocation → stopState → stopState ⊕ stopState
  | [], s => .inr s
  | alloc :: xs, s =>
    if pick alloc then
      let s := stopOne fromMigrate alloc s
      if s.remove = 0 then .inl s else stopLoop fromMigrate pick xs s
    else stopLoop fromMigrate pick xs s

/-- `computeStop`: stop the lost allocations, and as many others as the group has above its
count, preferring those named like a promoted canary, then migrating ones, then the highest
names. Returns the stop set with the migrate set and name index as the loops leave them. -/
def computeStop (group : TaskGroup) (nameIndex : allocNameIndex)
    (untainted migrate lost canaries : allocSet) (canaryState : Bool) :
    allocReconciler × allocSet × allocSet × allocNameIndex :=
  let stop := allocSet.union [] [lost]
  let a := a.markStop lost (some .lost) allocLost
  let untainted := if canaryState then untainted.difference [canaries] else untainted
  let remove : Int := untainted.length + migrate.length - group.Count
  if remove ≤ 0 then (a, stop, migrate, nameIndex)
  else
    let finish (s : stopState) := (a.withResult (·.addStop s.stops), s.stop, s.migrate, s.nameIndex)
    let s : stopState := ⟨stop, [], filterByTerminal untainted, migrate, nameIndex, remove⟩
    let canaryPhase :=
      if !canaryState && canaries.length ≠ 0 then
        let canaryNames := canaries.nameSet
        stopLoop false (fun x => x.Name ∈ canaryNames) (s.untainted.difference [canaries]) s
      else .inr s
    match canaryPhase with
    | .inl s => finish s
    | .inr s =>
      let migratePhase :=
        if s.migrate.length ≠ 0 then
          let mNames := newAllocNameIndex a.jobID group.Name group.Count s.migrate
          let removeNames := (mNames.Highest (toUint s.remove)).2
          stopLoop true (fun x => x.Name ∈ removeNames) s.migrate s
        else .inr s
      match migratePhase with
      | .inl s => finish s
      | .inr s =>
        let (nameIndex, removeNames) := s.nameIndex.Highest (toUint s.remove)
        let s := { s with nameIndex }
        match stopLoop false (fun x => x.Name ∈ removeNames) s.untainted s with
        | .inl s => finish s
        | .inr s =>
          -- duplicate names can leave allocations to stop: take any untainted ones
          match stopLoop false (fun _ => true) s.untainted s with
          | .inl s | .inr s => finish s

theorem computeStop_of_pos (group : TaskGroup) (nameIndex : allocNameIndex)
    (untainted migrate lost : allocSet)
    (hr : ¬ (untainted.length : Int) + migrate.length - group.Count ≤ 0) :
    a.computeStop group nameIndex untainted migrate lost [] false =
      let finish (s : stopState) :=
        ((a.markStop lost (some .lost) allocLost).withResult (·.addStop s.stops), s.stop, s.migrate,
          s.nameIndex)
      let s : stopState := ⟨allocSet.union [] [lost], [], filterByTerminal untainted, migrate,
        nameIndex, untainted.length + migrate.length - group.Count⟩
      match (if migrate.length ≠ 0 then
          stopLoop true (fun x => x.Name ∈ ((newAllocNameIndex a.jobID group.Name group.Count
            migrate).Highest (toUint s.remove)).2) migrate s
        else .inr s) with
      | .inl s => finish s
      | .inr s =>
        match stopLoop false (fun x => x.Name ∈ (s.nameIndex.Highest (toUint s.remove)).2)
            s.untainted { s with nameIndex := (s.nameIndex.Highest (toUint s.remove)).1 } with
        | .inl s => finish s
        | .inr s =>
          match stopLoop false (fun _ => true) s.untainted s with
          | .inl s | .inr s => finish s := by
  simp only [computeStop, if_neg hr, Bool.false_eq_true, if_false, Bool.not_false, Bool.true_and,
    List.length_nil, ne_eq, not_true_eq_false, decide_false]
  rfl

-- ---------------------------------------------------------------------------
-- Updates and delayed rescheduling
-- ---------------------------------------------------------------------------

def computeUpdates (job : Job) (group : TaskGroup) (untainted : allocSet) :
    allocReconciler × allocSet × allocSet × allocSet :=
  let upd (x : Allocation) := a.allocUpdateFn x job group
  let ignore := untainted.filter fun x => (upd x).1
  let destructive := untainted.filter fun x => !(upd x).1 && (upd x).2.1
  let inplace := untainted.filter fun x => !(upd x).1 && !(upd x).2.1
  (a.withResult (·.addInplace (inplace.map fun x => (upd x).2.2)), ignore, inplace, destructive)

def followupEval (job : Job) (id : String) (waitUntil : Time) (statusDescription : String) :
    Evaluation :=
  { ID := id
    Namespace := job.Namespace
    Priority := job.Priority
    «Type» := job.«Type»
    TriggeredBy := EvalTriggerRetryFailedAlloc
    JobID := job.ID
    JobModifyIndex := job.ModifyIndex
    Status := EvalStatusPending
    StatusDescription := statusDescription
    Wait := 0
    WaitUntil := waitUntil
    CreateIndex := 0 }

/-- The batching loop of `handleDelayedReschedules`: an allocation joins the current batch if
it is due within `batchedFailedAllocWindowSize` of the batch's time, and starts a new one
otherwise. Only the first batch's evaluation has a status description. -/
def followupLoop (job : Job) :
    List delayedRescheduleInfo → allocReconciler → List Evaluation → Evaluation → Time →
      Map String String → allocReconciler × List Evaluation × Map String String
  | [], a, evals, _, _, ids => (a, evals, ids)
  | info :: rest, a, evals, eval, nextReschedTime, ids =>
    if info.rescheduleTime.Sub nextReschedTime < batchedFailedAllocWindowSize then
      followupLoop job rest a evals eval nextReschedTime (ids.insert info.allocID eval.ID)
    else
      let (a, id) := a.generateUUID
      let eval := followupEval job id info.rescheduleTime ""
      followupLoop job rest a (evals ++ [eval]) eval info.rescheduleTime (ids.insert info.allocID id)

def handleDelayedReschedules (job : Job) (rescheduleLater : List delayedRescheduleInfo)
    (all : allocSet) (tgName : String) : allocReconciler :=
  match rescheduleLater.insertionSort fun x y => ¬ y.rescheduleTime.Before x.rescheduleTime with
  | [] => a
  | first :: rest =>
    let (a, id) := a.generateUUID
    let eval := followupEval job id first.rescheduleTime reschedulingFollowupEvalDesc
    let (a, evals, ids) := followupLoop job (first :: rest) a [eval] eval first.rescheduleTime ∅
    let a := a.withResult fun r =>
      { r with desiredFollowupEvals := r.desiredFollowupEvals.insert tgName evals }
    ids.entries.foldl (fun a p =>
      match all.find? (·.ID == p.1) with
      | some existing => a.withResult fun r =>
        { r with attributeUpdates :=
            r.attributeUpdates.insert existing.ID { existing with FollowupEvalID := p.2 } }
      -- Go copies a `nil` allocation here and panics; `computeGroup` never gets here
      -- (`find_rescheduleLater`)
      | none => a) a

-- ---------------------------------------------------------------------------
-- The blocks of `computeGroup`
-- ---------------------------------------------------------------------------

def placeCanaries (tg : TaskGroup) (existingDeployment requireCanary : Bool)
    (nameIndex : allocNameIndex) (canaries destructive : allocSet)
    (desiredChanges : DesiredUpdates) (dstate : DeploymentState) :
    allocReconciler × allocNameIndex × DesiredUpdates × DeploymentState :=
  if requireCanary && !a.deploymentPaused && !a.deploymentFailed then
    let canary := (tg.Update.map (·.Canary)).getD 0
    let number := canary - canaries.length
    let desiredChanges := { desiredChanges with Canary := desiredChanges.Canary + toUint number }
    let dstate := if !existingDeployment then { dstate with DesiredCanaries := canary } else dstate
    let (nameIndex, names) := nameIndex.NextCanaries (toUint number) canaries destructive
    (a.withResult (·.addPlace (names.map fun name =>
        { name, canary := true, taskGroup := tg, previousAlloc := none, reschedule := false })),
      nameIndex, desiredChanges, dstate)
  else (a, nameIndex, desiredChanges, dstate)

/-- The placement block when the deployment is ready: every placement, and a stop for each
allocation rescheduled now. Returns the limit left for destructive updates. -/
def placeReady (place : List allocPlaceResult) (rescheduleNow : allocSet) (limit : Int)
    (desiredChanges : DesiredUpdates) : allocReconciler × DesiredUpdates × Int :=
  let desiredChanges := { desiredChanges with Place := desiredChanges.Place + place.length }
  let a := a.withResult (·.addPlace place)
  let a := a.markStop rescheduleNow none allocRescheduled
  let desiredChanges := { desiredChanges with Stop := desiredChanges.Stop + rescheduleNow.length }
  (a, desiredChanges, limit - min (place.length : Int) limit)

def heldByFailedDeployment (prev : Allocation) : Bool :=
  a.deploymentFailed && match a.deployment with
    | some d => d.ID = prev.DeploymentID
    | none => false

/-- The placement block when the deployment is not ready: placements for lost allocations,
up to their number, then every rescheduling placement not held back, with a stop of the
allocation it replaces. -/
def placeNotReady (place : List allocPlaceResult) (lost rescheduleNow : allocSet)
    (desiredChanges : DesiredUpdates) : allocReconciler × DesiredUpdates :=
  let (a, desiredChanges) :=
    if lost.length ≠ 0 then
      let allowed := min lost.length place.length
      (a.withResult (·.addPlace (place.take allowed)),
        { desiredChanges with Place := desiredChanges.Place + allowed })
    else (a, desiredChanges)
  if rescheduleNow.length ≠ 0 then
    let resched := place.filterMap fun p =>
      match p.PreviousAllocation with
      | some prev => if p.IsRescheduling && !a.heldByFailedDeployment prev then some (p, prev) else none
      | none => none
    let a := a.withResult fun r =>
      (r.addPlace (resched.map (·.1))).addStop
        (resched.map fun q => ⟨q.2, none, allocRescheduled⟩)
    (a, { desiredChanges with
          Place := desiredChanges.Place + resched.length
          Stop := desiredChanges.Stop + resched.length })
  else (a, desiredChanges)

def placeDestructive (tg : TaskGroup) (deploymentPlaceReady : Bool) (destructive : allocSet)
    (limit : Int) (desiredChanges : DesiredUpdates) : allocReconciler × DesiredUpdates :=
  if deploymentPlaceReady then
    let m := (min (destructive.length : Int) limit).toNat
    (a.withResult (·.addDestructive ((destructive.nameOrder.take m).map fun alloc =>
        { placeName := alloc.Name, placeTaskGroup := tg, stopAlloc := alloc,
          stopStatusDescription := allocUpdating })),
      { desiredChanges with
        DestructiveUpdate := desiredChanges.DestructiveUpdate + m
        Ignore := desiredChanges.Ignore + (destructive.length - m) })
  else (a, { desiredChanges with Ignore := desiredChanges.Ignore + destructive.length })

def placeMigrations (tg : TaskGroup) (migrate : allocSet) (desiredChanges : DesiredUpdates) :
    allocReconciler × DesiredUpdates :=
  let ms := migrate.nameOrder
  (a.withResult fun r =>
      (r.addStop (ms.map fun alloc => ⟨alloc, none, allocMigrating⟩)).addPlace
        (ms.map fun alloc =>
          { name := alloc.Name, canary := false, taskGroup := tg, previousAlloc := some alloc,
            reschedule := false }),
    { desiredChanges with Migrate := desiredChanges.Migrate + migrate.length })

def attachDeployment (job : Job) (group : String) (dstate : DeploymentState) : allocReconciler :=
  let (a, d) := match a.deployment with
    | some d => (a, d)
    | none =>
      let (a, id) := a.generateUUID
      ({ a with resultSharesDeployment := true }, NewDeployment job id)
  a.setDeployment { d with TaskGroups := d.TaskGroups.insert group dstate }

def groupComplete (group : String) (nothingToDo : Bool) : Bool :=
  nothingToDo &&
    match a.deployment.bind (·.TaskGroups.lookup group) with
    | some ds =>
      !(decide (ds.HealthyAllocs < max ds.DesiredTotal ds.DesiredCanaries) ||
        (decide (0 < ds.DesiredCanaries) && !ds.Promoted))
    | none => true

-- ---------------------------------------------------------------------------
-- `computeGroup` and `Compute`
-- ---------------------------------------------------------------------------

def computeRemovedGroup (group : String) (all : allocSet) : allocReconciler × Bool :=
  let (untainted, migrate, lost) := filterByTainted all a.taintedNodes
  let a := a.markStop untainted none allocNotNeeded
  let a := a.markStop migrate none allocNotNeeded
  let a := a.markStop lost (some .lost) allocLost
  (a.setDesired group { Stop := untainted.length + migrate.length + lost.length }, true)

def computeGroup (job : Job) (group : String) (all : allocSet) : allocReconciler × Bool :=
  match job.LookupTaskGroup group with
  | none => a.computeRemovedGroup group all
  | some tg =>
    let (dstate, existingDeployment) := a.groupDeploymentState tg group
    let (all, ignore) := a.filterOldTerminalAllocs job all
    let desiredChanges : DesiredUpdates := { Ignore := ignore.length }
    let (a, canaries, all, desiredChanges) := a.handleGroupCanaries all desiredChanges
    let (untainted, migrate, lost) := filterByTainted all a.taintedNodes
    let (untainted, rescheduleNow, rescheduleLater) :=
      filterByRescheduleable untainted a.batch a.now a.evalID a.deployment
    let a := a.handleDelayedReschedules job rescheduleLater all tg.Name
    let nameIndex := newAllocNameIndex a.jobID group tg.Count (untainted.union [migrate, rescheduleNow])
    let canaryState := dstate.DesiredCanaries ≠ 0 && !dstate.Promoted
    let (a, stop, migrate, nameIndex) :=
      a.computeStop tg nameIndex untainted migrate lost canaries canaryState
    let desiredChanges := { desiredChanges with Stop := desiredChanges.Stop + stop.length }
    let untainted := untainted.difference [stop]
    let (a, ignore, inplace, destructive) := a.computeUpdates job tg untainted
    let desiredChanges := { desiredChanges with
      Ignore := desiredChanges.Ignore + ignore.length
      InPlaceUpdate := desiredChanges.InPlaceUpdate + inplace.length }
    let dstate := if !existingDeployment then
        { dstate with DesiredTotal := dstate.DesiredTotal + destructive.length + inplace.length }
      else dstate
    let untainted := if canaryState then untainted.difference [canaries] else untainted
    let requireCanary := destructive.length ≠ 0 &&
      (match tg.Update with
        | some s => decide ((canaries.length : Int) < s.Canary)
        | none => false) && !dstate.Promoted
    let (a, nameIndex, desiredChanges, dstate) :=
      a.placeCanaries tg existingDeployment requireCanary nameIndex canaries destructive
        desiredChanges dstate
    let canaryState := dstate.DesiredCanaries ≠ 0 && !dstate.Promoted
    let limit := a.computeLimit tg untainted destructive migrate canaryState
    let (_, place) := computePlacements tg nameIndex untainted migrate rescheduleNow
    let dstate := if !existingDeployment then
        { dstate with DesiredTotal := dstate.DesiredTotal + place.length }
      else dstate
    let deploymentPlaceReady := !a.deploymentPaused && !a.deploymentFailed && !canaryState
    let (a, desiredChanges, limit) :=
      if deploymentPlaceReady then a.placeReady place rescheduleNow limit desiredChanges
      else
        let (a, desiredChanges) := a.placeNotReady place lost rescheduleNow desiredChanges
        (a, desiredChanges, limit)
    let (a, desiredChanges) :=
      a.placeDestructive tg deploymentPlaceReady destructive limit desiredChanges
    let (a, desiredChanges) := a.placeMigrations tg migrate desiredChanges
    let updatingSpec := destructive.length ≠ 0 || a.result.inplaceUpdate.length ≠ 0
    let hadRunning := all.any fun x => x.Job.Version = job.Version && x.Job.CreateIndex = job.CreateIndex
    let a :=
      if !existingDeployment && !UpdateStrategy.IsEmpty tg.Update && dstate.DesiredTotal ≠ 0 &&
          (!hadRunning || updatingSpec) then a.attachDeployment job group dstate
      else a
    let nothingToDo := destructive.length + inplace.length + place.length + migrate.length +
      rescheduleNow.length + rescheduleLater.length = 0 && !requireCanary
    (a.setDesired group desiredChanges, a.groupComplete group nothingToDo)

/-- `Compute`: reconcile every group of the job, then mark the deployment successful if every
group is complete and describe a created deployment that waits on promotion. -/
def Compute : reconcileResults :=
  let m := newAllocMatrix a.job a.existingAllocs
  let a := a.cancelDeployments
  match a.job with
  | none => (a.handleStop m).result
  | some job =>
    if job.Stop then (a.handleStop m).result
    else
      let a := match a.deployment with
        | some d => { a with
            deploymentPaused := d.Status = .paused
            deploymentFailed := d.Status = .failed }
        | none => a
      let (a, complete) := m.entries.foldl (fun (p : allocReconciler × Bool) g =>
          let (a, groupComplete) := p.1.computeGroup job g.1 g.2
          (a, p.2 && groupComplete)) (a, true)
      let a := match a.deployment with
        | some d =>
          if complete then
            a.withResult (·.addDeploymentUpdate ⟨d.ID, .successful, DeploymentStatusDescriptionSuccessful⟩)
          else a
        | none => a
      match a.result.deployment with
      | some d =>
        if d.RequiresPromotion then
          { a.result with deployment := some { d with StatusDescription :=
              if d.HasAutoPromote then DeploymentStatusDescriptionRunningAutoPromotion
              else DeploymentStatusDescriptionRunningNeedsPromotion } }
        else a.result
      | none => a.result

end allocReconciler

end Nomad.Scheduler
