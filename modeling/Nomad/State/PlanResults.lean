import Nomad.State.AllocWrites
import Nomad.Go.Except

/-!
# Applying plans and deployment updates

`nomad/state/state_store.go`: `UpsertPlanResults`, which commits a plan, with the denormalization
of the allocations a plan stops or preempts (`DenormalizeAllocationDiffSlice`); and the writes of
the deployment watcher (`UpdateDeploymentStatus`, `UpdateDeploymentAllocHealth`,
`UpdateDeploymentPromotion`). Last, the store as a state machine: an `Op` is one of the
transactions the FSM applies, and `run` applies them in order, each committed or aborted whole.

The upgrade path of `UpsertPlanResults` (`Canonicalize`, which fills in the resources of an
allocation from an older server, and the `Resources` sum of `addComputedAllocAttrs`) is not
modelled: nothing here reads resources.
-/

namespace Nomad.State

open Go Container Structs AllocDeploymentStatus

def getPreemptedAllocDesiredDescription (preemptedByAllocID : String) : String :=
  "Preempted by alloc ID " ++ preemptedByAllocID

/-- A stored allocation with a diff merged in: evicted if the diff names a preempting allocation,
stopped otherwise. Its job stays the one it was stored with. -/
def denormalizeDiff (alloc : Allocation) (diff : AllocationDiff) : Allocation :=
  let alloc :=
    if diff.PreemptedByAllocation ≠ "" then { alloc with
      PreemptedByAllocation := diff.PreemptedByAllocation
      DesiredDescription := getPreemptedAllocDesiredDescription diff.PreemptedByAllocation
      DesiredStatus := .evict }
    else { alloc with
      DesiredDescription := diff.DesiredDescription, DesiredStatus := .stop
      ClientStatus := diff.ClientStatus.getD alloc.ClientStatus }
  if diff.ModifyTime ≠ 0 then { alloc with ModifyTime := diff.ModifyTime } else alloc

def DenormalizeAllocationDiffSlice (snapshot : StateStore) (allocDiffs : List AllocationDiff) :
    Except String (List Allocation) :=
  allocDiffs.mapM fun allocDiff =>
    match snapshot.AllocByID allocDiff.ID with
    | none => .error ("alloc " ++ allocDiff.ID ++ " doesn't exist")
    | some alloc => .ok (denormalizeDiff alloc allocDiff)

def DenormalizeAllocationSlice (snapshot : StateStore) (allocs : List AllocInput) :
    Except String (List Allocation) :=
  DenormalizeAllocationDiffSlice snapshot (allocs.map (·.alloc.AllocationDiff))

def DenormalizeAllocationJobs (job : Option Job) (allocs : List AllocInput) : List AllocInput :=
  match job with
  | none => allocs
  | some job => allocs.map fun a =>
      if a.job.isNone ∧ !a.alloc.TerminalStatus then { a with job := some job } else a

structure ApplyPlanResultsRequest where
  Alloc : List AllocInput := []
  AllocsStopped : List AllocationDiff := []
  AllocsUpdated : List AllocInput := []
  Job : Option Job := none
  Deployment : Option Deployment := none
  DeploymentUpdates : List DeploymentStatusUpdate := []
  EvalID : String := ""
  NodePreemptions : List AllocInput := []
  AllocsPreempted : List AllocationDiff := []
  PreemptionEvals : List Evaluation := []

structure DeploymentStatusUpdateRequest where
  DeploymentUpdate : DeploymentStatusUpdate
  Job : Option Job := none
  Eval : Option Evaluation := none

structure ApplyDeploymentAllocHealthRequest where
  DeploymentID : String
  HealthyAllocationIDs : List String := []
  UnhealthyAllocationIDs : List String := []
  Timestamp : Time := ⟨0⟩
  DeploymentUpdate : Option DeploymentStatusUpdate := none
  Job : Option Job := none
  Eval : Option Evaluation := none

structure ApplyDeploymentPromoteRequest where
  DeploymentID : String
  All : Bool := false
  Groups : List String := []
  Eval : Option Evaluation := none

def ApplyDeploymentPromoteRequest.promotes (req : ApplyDeploymentPromoteRequest) (tg : String) :
    Bool :=
  req.All || tg ∈ req.Groups

/-- The allocations `UpsertPlanResults` upserts, in order: the old-style placements and
preemptions, then the stopped, updated and preempted allocations. The plan's job goes to the
allocations of the old style if it has any, and otherwise to the updated ones. -/
def allocsToUpsert (results : ApplyPlanResultsRequest)
    (nodePreemptions allocsStopped allocsPreempted : List Allocation) : List AllocInput :=
  let (alloc, allocsUpdated) :=
    if results.Alloc.length ≠ 0 ∨ nodePreemptions.length ≠ 0 then
      (DenormalizeAllocationJobs results.Job results.Alloc, results.AllocsUpdated)
    else (results.Alloc, DenormalizeAllocationJobs results.Job results.AllocsUpdated)
  alloc ++ nodePreemptions.map .ofAlloc ++ allocsStopped.map .ofAlloc ++ allocsUpdated ++
    allocsPreempted.map .ofAlloc

namespace StateStore

variable (s : StateStore)

def upsertOptionalDeployment (index : Nat) : Option Deployment → Except String StateStore
  | none => .ok s
  | some deployment => s.upsertDeploymentImpl index deployment

def UpsertPlanResults (index : Nat) (results : ApplyPlanResultsRequest) :
    Except String (StateStore × List AllocWrite) := do
  -- the diffs are merged with the allocations of a snapshot taken before the transaction
  let snapshot := s
  let allocsStopped ← DenormalizeAllocationDiffSlice snapshot results.AllocsStopped
  let allocsPreempted ← DenormalizeAllocationDiffSlice snapshot results.AllocsPreempted
  let nodePreemptions ← DenormalizeAllocationSlice snapshot results.NodePreemptions
  let t ← s.upsertOptionalDeployment index results.Deployment
  -- the error of the status updates is dropped, and what they wrote stays
  let t := if results.DeploymentUpdates.length ≠ 0 then
      (t.upsertDeploymentUpdates index results.DeploymentUpdates).1
    else t
  let t ← if results.EvalID ≠ "" then t.updateEvalModifyIndex index results.EvalID else pure t
  let (t, log) ← t.upsertAllocsImpl index
    (allocsToUpsert results nodePreemptions allocsStopped allocsPreempted)
  let t := results.PreemptionEvals.foldl (fun t eval => t.nestedUpsertEval index eval) t
  pure (t, log)

def upsertOptionalEval (index : Nat) : Option Evaluation → StateStore
  | none => s
  | some eval => s.nestedUpsertEval index eval

def upsertJobAndEval (index : Nat) (job : Option Job) (eval : Option Evaluation) :
    Except String StateStore := do
  let s ← match job with
    | none => pure s
    | some job => s.upsertJobImpl index job false
  pure (s.upsertOptionalEval index eval)

def UpdateDeploymentStatus (index : Nat) (req : DeploymentStatusUpdateRequest) :
    Except String StateStore :=
  match s.updateDeploymentStatusImpl index req.DeploymentUpdate with
  | (_, some e) => .error e
  | (s, none) => s.upsertJobAndEval index req.Job req.Eval

def setAllocHealth (index : Nat) (deploymentID id : String) (healthy : Bool) (ts : Time) :
    Except String (StateStore × AllocWrite) :=
  match s.allocs.lookup id with
  | none => .error ("unknown alloc " ++ strconv.Quote id)
  | some old =>
    if old.DeploymentID ≠ deploymentID then
      .error ("alloc " ++ strconv.Quote id ++ " is not part of deployment " ++
        strconv.Quote deploymentID)
    else do
      let status := old.DeploymentStatus.getD { Healthy := none, Canary := false }
      let copy := { old with
        DeploymentStatus := some { status with Healthy := some healthy, Timestamp := ts }
        ModifyIndex := index }
      let t ← (s.updateDeploymentWithAlloc index copy (some old)).mapError
        ("error updating deployment: " ++ ·)
      pure (t.insertAlloc copy, ⟨s, some old, copy⟩)

/-- The status update a request may carry, applied if there is one; its error fails the request. -/
def updateOptionalDeploymentStatus (index : Nat) : Option DeploymentStatusUpdate → Except String StateStore
  | none => .ok s
  | some u =>
    match s.updateDeploymentStatusImpl index u with
    | (_, some e) => .error e
    | (t, none) => .ok t

def setAllocHealthStep (index : Nat) (req : ApplyDeploymentAllocHealthRequest)
    (acc : StateStore × List AllocWrite) (e : String × Bool) : Except String (StateStore × List AllocWrite) := do
  let (t, w) ← acc.1.setAllocHealth index req.DeploymentID e.1 e.2 req.Timestamp
  pure (t, acc.2 ++ [w])

def UpdateDeploymentAllocHealth (index : Nat) (req : ApplyDeploymentAllocHealthRequest) :
    Except String (StateStore × List AllocWrite) :=
  match s.deployments.lookup req.DeploymentID with
  | none => .error (missingDeploymentError req.DeploymentID)
  | some deployment =>
    if !deployment.Active then .error (terminalDeploymentError deployment)
    else do
      let health := req.HealthyAllocationIDs.map (·, true) ++ req.UnhealthyAllocationIDs.map (·, false)
      let (t, log) ← health.foldlM (setAllocHealthStep index req) (s, [])
      let t ← t.updateOptionalDeploymentStatus index req.DeploymentUpdate
      let t ← t.upsertJobAndEval index req.Job req.Eval
      pure (t, log)

/-- The canaries `UpdateDeploymentPromotion` promotes: placed canaries of the promoted groups that
are healthy and not terminal. -/
def promotable (req : ApplyDeploymentPromoteRequest) (deployment : Deployment) : List Allocation :=
  let canaryIndex := deployment.TaskGroups.entries.flatMap (·.2.PlacedCanaries)
  (s.allocs.vals.filter (·.DeploymentID == req.DeploymentID)).filter fun alloc =>
    alloc.ID ∈ canaryIndex && req.promotes alloc.TaskGroup && !alloc.TerminalStatus &&
      IsHealthy alloc.DeploymentStatus

def UpdateDeploymentPromotion (index : Nat) (req : ApplyDeploymentPromoteRequest) :
    Except String StateStore :=
  match s.deployments.lookup req.DeploymentID with
  | none => .error (missingDeploymentError req.DeploymentID)
  | some deployment =>
    if !deployment.Active then .error (terminalDeploymentError deployment)
    else
      let promotable := s.promotable req deployment
      let unhealthy := deployment.TaskGroups.entries.filterMap fun e =>
        let need := e.2.DesiredCanaries
        let healthyCount : Int := (promotable.filter (·.TaskGroup == e.1)).length
        if req.promotes e.1 ∧ need ≠ 0 ∧ healthyCount < need then
          some ("Task group " ++ strconv.Quote e.1 ++ " has " ++ toString healthyCount ++ "/" ++
            toString need ++ " healthy allocations")
        else none
      if unhealthy.length ≠ 0 then .error (multierror.ListFormatFunc unhealthy)
      else do
        let copy : Deployment := { deployment with
          ModifyIndex := index
          TaskGroups := deployment.TaskGroups.mapWithKey fun tg state =>
            if req.promotes tg then { state with Promoted := true } else state }
        let copy : Deployment := if !copy.RequiresPromotion ∧ copy.Status = .running then
            { copy with StatusDescription := DeploymentStatusDescriptionRunning }
          else copy
        let t ← s.upsertDeploymentImpl index copy
        let t := t.upsertOptionalEval index req.Eval
        pure (promotable.foldl (fun t alloc =>
          t.insertAlloc { alloc with
            DeploymentStatus := alloc.DeploymentStatus.map ({ · with Canary := false })
            ModifyIndex := index }) t)

-- ---------------------------------------------------------------------------
-- What each write does
-- ---------------------------------------------------------------------------

section spec

variable {s t : StateStore} {index : Nat}

theorem upsertJobAndEval_ok {job : Option Job} {eval : Option Evaluation}
    (h : s.upsertJobAndEval index job eval = .ok t) :
    ∃ u, (job = none ∧ u = s ∨ ∃ j, job = some j ∧ s.upsertJobImpl index j false = .ok u) ∧
      t = u.upsertOptionalEval index eval := by
  unfold upsertJobAndEval at h
  cases job with
  | none =>
    obtain ⟨u, hu, ht⟩ := bind_eq_ok h
    cases pure_eq_ok.mp hu
    exact ⟨s, .inl ⟨rfl, rfl⟩, (pure_eq_ok.mp ht).symm⟩
  | some j =>
    obtain ⟨u, hu, ht⟩ := bind_eq_ok h
    exact ⟨u, .inr ⟨j, rfl, hu⟩, (pure_eq_ok.mp ht).symm⟩

@[simp] theorem upsertOptionalEval_allocs (eval : Option Evaluation) :
    (s.upsertOptionalEval index eval).allocs = s.allocs := by
  cases eval
  · rfl
  · exact nestedUpsertEval_allocs _

@[simp] theorem upsertOptionalEval_deployments (eval : Option Evaluation) :
    (s.upsertOptionalEval index eval).deployments = s.deployments := by
  cases eval
  · rfl
  · exact nestedUpsertEval_deployments _

theorem UpdateDeploymentStatus_ok {req : DeploymentStatusUpdateRequest}
    (h : s.UpdateDeploymentStatus index req = .ok t) :
    ∃ t₁, s.updateDeploymentStatusImpl index req.DeploymentUpdate = (t₁, none) ∧
      t₁.upsertJobAndEval index req.Job req.Eval = .ok t := by
  unfold UpdateDeploymentStatus at h
  split at h
  · cases h
  · exact ⟨_, ‹_›, h⟩

theorem setAllocHealth_ok {deploymentID id : String} {healthy : Bool} {ts : Time} {w : AllocWrite}
    (h : s.setAllocHealth index deploymentID id healthy ts = .ok (t, w)) :
    ∃ old t₁, s.allocs.lookup id = some old ∧ old.DeploymentID = deploymentID ∧
      let copy := { old with
        DeploymentStatus := some { old.DeploymentStatus.getD { Healthy := none, Canary := false } with
          Healthy := some healthy, Timestamp := ts }
        ModifyIndex := index }
      s.updateDeploymentWithAlloc index copy (some old) = .ok t₁ ∧ t = t₁.insertAlloc copy ∧
        w = ⟨s, some old, copy⟩ := by
  unfold setAllocHealth at h
  split at h
  · cases h
  rename_i old hold
  by_cases hd : old.DeploymentID = deploymentID
  · rw [if_neg (not_not.mpr hd)] at h
    obtain ⟨t₁, h₁, h⟩ := bind_eq_ok h
    obtain ⟨rfl, rfl⟩ := Prod.mk.inj (pure_eq_ok.mp h)
    exact ⟨old, t₁, hold, hd, mapError_eq_ok.mp h₁, rfl, rfl⟩
  · rw [if_pos hd] at h
    cases h

theorem setAllocHealthStep_ok {req : ApplyDeploymentAllocHealthRequest}
    {acc acc' : StateStore × List AllocWrite} {e : String × Bool}
    (h : setAllocHealthStep index req acc e = .ok acc') :
    ∃ w, acc.1.setAllocHealth index req.DeploymentID e.1 e.2 req.Timestamp = .ok (acc'.1, w) ∧
      acc'.2 = acc.2 ++ [w] := by
  unfold setAllocHealthStep at h
  obtain ⟨⟨t, w⟩, h₁, h₂⟩ := bind_eq_ok h
  cases pure_eq_ok.mp h₂
  exact ⟨w, h₁, rfl⟩

theorem UpdateDeploymentAllocHealth_ok {req : ApplyDeploymentAllocHealthRequest} {ws : List AllocWrite}
    (h : s.UpdateDeploymentAllocHealth index req = .ok (t, ws)) :
    ∃ deployment t₁ t₂, s.deployments.lookup req.DeploymentID = some deployment ∧
      deployment.Active = true ∧
      (req.HealthyAllocationIDs.map (·, true) ++ req.UnhealthyAllocationIDs.map (·, false)).foldlM
        (setAllocHealthStep index req) (s, []) = .ok (t₁, ws) ∧
      t₁.updateOptionalDeploymentStatus index req.DeploymentUpdate = .ok t₂ ∧
      t₂.upsertJobAndEval index req.Job req.Eval = .ok t := by
  unfold UpdateDeploymentAllocHealth at h
  split at h
  · cases h
  rename_i deployment hd
  cases ha : deployment.Active
  · rw [ha, if_pos (show (!false) = true from rfl)] at h
    cases h
  rw [ha, if_neg (show ¬((!true) = true) by decide)] at h
  obtain ⟨⟨t₁, log⟩, h₁, h⟩ := bind_eq_ok h
  dsimp only at h
  obtain ⟨t₂, h₂, h⟩ := bind_eq_ok h
  obtain ⟨t₃, h₃, h⟩ := bind_eq_ok h
  obtain ⟨rfl, rfl⟩ := Prod.mk.inj (pure_eq_ok.mp h)
  exact ⟨deployment, t₁, t₂, hd, ha, h₁, h₂, h₃⟩

theorem UpdateDeploymentPromotion_ok {req : ApplyDeploymentPromoteRequest}
    (h : s.UpdateDeploymentPromotion index req = .ok t) :
    ∃ deployment c copy t₁, s.deployments.lookup req.DeploymentID = some deployment ∧
      deployment.Active = true ∧
      c = { deployment with
        ModifyIndex := index
        TaskGroups := deployment.TaskGroups.mapWithKey fun tg state =>
          if req.promotes tg then { state with Promoted := true } else state } ∧
      (copy = c ∨ copy = { c with StatusDescription := DeploymentStatusDescriptionRunning }) ∧
      s.upsertDeploymentImpl index copy = .ok t₁ ∧
      t = (s.promotable req deployment).foldl (fun t alloc =>
        t.insertAlloc { alloc with
          DeploymentStatus := alloc.DeploymentStatus.map ({ · with Canary := false })
          ModifyIndex := index }) (t₁.upsertOptionalEval index req.Eval) := by
  unfold UpdateDeploymentPromotion at h
  split at h
  · cases h
  rename_i deployment hd
  cases ha : deployment.Active
  · rw [ha, if_pos (show (!false) = true from rfl)] at h
    cases h
  rw [ha, if_neg (show ¬((!true) = true) by decide)] at h
  dsimp only at h
  -- the unhealthy groups fail the request; the description depends on whether promotion is done
  split_ifs at h with hu hc
  · obtain ⟨t₁, h₁, h⟩ := bind_eq_ok h
    exact ⟨deployment, _, _, t₁, hd, ha, rfl, .inr rfl, h₁, (pure_eq_ok.mp h).symm⟩
  · obtain ⟨t₁, h₁, h⟩ := bind_eq_ok h
    exact ⟨deployment, _, _, t₁, hd, ha, rfl, .inl rfl, h₁, (pure_eq_ok.mp h).symm⟩

/-- A plan's commit: the denormalized allocations, the deployment and its updates, the
evaluation's index, the allocations, then the preemption evaluations. -/
theorem UpsertPlanResults_ok {results : ApplyPlanResultsRequest} {ws : List AllocWrite}
    (h : s.UpsertPlanResults index results = .ok (t, ws)) :
    ∃ allocsStopped allocsPreempted nodePreemptions t₁ t₃ t₄,
      DenormalizeAllocationDiffSlice s results.AllocsStopped = .ok allocsStopped ∧
      DenormalizeAllocationDiffSlice s results.AllocsPreempted = .ok allocsPreempted ∧
      DenormalizeAllocationSlice s results.NodePreemptions = .ok nodePreemptions ∧
      s.upsertOptionalDeployment index results.Deployment = .ok t₁ ∧
      (results.EvalID = "" ∧ t₃ = (if results.DeploymentUpdates.length ≠ 0 then
          (t₁.upsertDeploymentUpdates index results.DeploymentUpdates).1 else t₁) ∨
        results.EvalID ≠ "" ∧ (if results.DeploymentUpdates.length ≠ 0 then
          (t₁.upsertDeploymentUpdates index results.DeploymentUpdates).1 else t₁).updateEvalModifyIndex
            index results.EvalID = .ok t₃) ∧
      t₃.upsertAllocsImpl index (allocsToUpsert results nodePreemptions allocsStopped allocsPreempted) =
        .ok (t₄, ws) ∧
      t = results.PreemptionEvals.foldl (fun t eval => t.nestedUpsertEval index eval) t₄ := by
  unfold UpsertPlanResults at h
  obtain ⟨allocsStopped, hs₁, h⟩ := bind_eq_ok h
  obtain ⟨allocsPreempted, hs₂, h⟩ := bind_eq_ok h
  obtain ⟨nodePreemptions, hs₃, h⟩ := bind_eq_ok h
  obtain ⟨t₁, h₁, h⟩ := bind_eq_ok h
  dsimp only at h
  -- the evaluation's index is written only if the plan names an evaluation
  by_cases he : results.EvalID = ""
  · rw [if_neg (not_not.mpr he)] at h
    obtain ⟨t₃, h₃, h⟩ := bind_eq_ok h
    obtain ⟨⟨t₄, log⟩, h₄, h⟩ := bind_eq_ok h
    obtain ⟨rfl, rfl⟩ := Prod.mk.inj (pure_eq_ok.mp h)
    exact ⟨allocsStopped, allocsPreempted, nodePreemptions, t₁, t₃, t₄, hs₁, hs₂, hs₃, h₁,
      .inl ⟨he, (pure_eq_ok.mp h₃).symm⟩, h₄, rfl⟩
  · rw [if_pos he] at h
    obtain ⟨t₃, h₃, h⟩ := bind_eq_ok h
    obtain ⟨⟨t₄, log⟩, h₄, h⟩ := bind_eq_ok h
    obtain ⟨rfl, rfl⟩ := Prod.mk.inj (pure_eq_ok.mp h)
    exact ⟨allocsStopped, allocsPreempted, nodePreemptions, t₁, t₃, t₄, hs₁, hs₂, hs₃, h₁,
      .inr ⟨he, h₃⟩, h₄, rfl⟩

end spec

end StateStore

-- ---------------------------------------------------------------------------
-- The store as a state machine
-- ---------------------------------------------------------------------------

/-- The transactions of the store modelled here, as the FSM applies them. -/
inductive Op where
  | UpsertJob (index : Nat) (job : Job)
  | UpsertEvals (index : Nat) (evals : List Evaluation)
  | UpsertAllocs (index : Nat) (allocs : List AllocInput)
  | UpdateAllocsFromClient (index : Nat) (allocs : List Allocation)
  | UpsertPlanResults (index : Nat) (results : ApplyPlanResultsRequest)
  | UpdateDeploymentStatus (index : Nat) (req : DeploymentStatusUpdateRequest)
  | UpdateDeploymentAllocHealth (index : Nat) (req : ApplyDeploymentAllocHealthRequest)
  | UpdateDeploymentPromotion (index : Nat) (req : ApplyDeploymentPromoteRequest)

def Op.apply (s : StateStore) : Op → Except String (StateStore × List AllocWrite)
  | .UpsertJob index job => (s.UpsertJob index job).map (·, [])
  | .UpsertEvals index evals => (s.UpsertEvals index evals).map (·, [])
  -- `UpsertAllocs` is `upsertAllocsImpl` in a transaction of its own
  | .UpsertAllocs index allocs => s.upsertAllocsImpl index allocs
  | .UpdateAllocsFromClient index allocs => s.UpdateAllocsFromClient index allocs
  | .UpsertPlanResults index results => s.UpsertPlanResults index results
  | .UpdateDeploymentStatus index req => (s.UpdateDeploymentStatus index req).map (·, [])
  | .UpdateDeploymentAllocHealth index req => s.UpdateDeploymentAllocHealth index req
  | .UpdateDeploymentPromotion index req => (s.UpdateDeploymentPromotion index req).map (·, [])

structure Committed where
  before : StateStore
  op : Op
  writes : List AllocWrite

/-- The tables after the operations, and the transactions that committed. A transaction that
fails is aborted: the tables stay as they were. -/
def run (s : StateStore) : List Op → StateStore × List Committed
  | [] => (s, [])
  | op :: ops =>
    match Op.apply s op with
    | .ok (t, ws) =>
      let r := run t ops
      (r.1, ⟨s, op, ws⟩ :: r.2)
    | .error _ => run s ops

theorem run_cons_ok {s t : StateStore} {op : Op} {ws : List AllocWrite} (ops : List Op)
    (h : Op.apply s op = .ok (t, ws)) : run s (op :: ops) = ((run t ops).1, ⟨s, op, ws⟩ :: (run t ops).2) := by
  rw [run, h]

theorem run_cons_error {s : StateStore} {op : Op} {e : String} (ops : List Op)
    (h : Op.apply s op = .error e) : run s (op :: ops) = run s ops := by
  rw [run, h]

end Nomad.State
