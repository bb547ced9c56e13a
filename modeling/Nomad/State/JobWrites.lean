import Nomad.State.StateStore
import Nomad.Go.Except

/-!
# Writing jobs, job summaries and evaluations

`nomad/state/state_store.go`: `upsertJobImpl` and what it calls, the job status the store keeps
(`getJobStatus`, `setJobStatus`, `setJobStatuses`), the summary a job gets
(`updateSummaryWithJob`), the history of its versions (`upsertJobVersion`), the evaluation writes
(`nestedUpsertEval`, `UpsertEvals`, `updateEvalModifyIndex`) and `ReconcileJobSummaries`, which
recomputes every summary from the allocations.

A write is a function of the tables, into `Except String` where the code can fail; the caller
aborts its transaction on an error, so the tables an error leaves behind are never read.
`namespaceExists` is the open-source one, which knows only the default namespace. Scaling
policies, the `index` table and watch sets are not modelled; nor are the errors of memdb itself,
which the code only passes on.
-/

namespace Nomad.State

open Go Container Structs

def namespaceExists (ns : String) : Bool := ns == DefaultNamespace

def JobTrackedVersions : Nat := 6

/-- The `Children` counters after a child job leaves `oldStatus` (none, if `""`) for
`newStatus`: the two switches of `setJobStatus`. -/
def childrenTransition (children : JobChildrenSummary) (oldStatus newStatus : String) :
    Except String JobChildrenSummary := do
  let children ←
    if oldStatus = "" then pure children
    else if oldStatus = JobStatusPending then pure { children with Pending := children.Pending - 1 }
    else if oldStatus = JobStatusRunning then pure { children with Running := children.Running - 1 }
    else if oldStatus = JobStatusDead then pure { children with Dead := children.Dead - 1 }
    else throw ("unknown old job status " ++ strconv.Quote oldStatus)
  if newStatus = JobStatusPending then pure { children with Pending := children.Pending + 1 }
  else if newStatus = JobStatusRunning then pure { children with Running := children.Running + 1 }
  else if newStatus = JobStatusDead then pure { children with Dead := children.Dead + 1 }
  else throw ("unknown new job status " ++ strconv.Quote newStatus)

/-- One more allocation in the bin of `status`: the switch of `updateSummaryWithAlloc` that
increments and the one of `ReconcileJobSummaries`, which are the same. -/
def TaskGroupSummary.incr (t : TaskGroupSummary) : AllocClientStatus → TaskGroupSummary
  | .running => { t with Running := t.Running + 1 }
  | .failed => { t with Failed := t.Failed + 1 }
  | .pending => { t with Starting := t.Starting + 1 }
  | .complete => { t with Complete := t.Complete + 1 }
  | .lost => { t with Lost := t.Lost + 1 }

def TaskGroupSummary.bin (t : TaskGroupSummary) : AllocClientStatus → Int
  | .pending => t.Starting
  | .running => t.Running
  | .failed => t.Failed
  | .complete => t.Complete
  | .lost => t.Lost

/-- The bins a summary has for a group; a group it has no entry for has none. -/
def JobSummary.bins (js : JobSummary) (tg : String) (st : AllocClientStatus) : Int :=
  ((js.Summary.lookup tg).getD {}).bin st

@[simp] theorem TaskGroupSummary.bin_empty (st : AllocClientStatus) : ({} : TaskGroupSummary).bin st = 0 := by
  cases st <;> rfl

theorem TaskGroupSummary.bin_incr (t : TaskGroupSummary) (st st' : AllocClientStatus) :
    (t.incr st).bin st' = t.bin st' + if st' = st then 1 else 0 := by
  cases st <;> cases st' <;> simp [incr, bin]

def newJobSummary (job : Job) (index : Nat) : JobSummary :=
  { JobID := job.ID, Namespace := job.Namespace, Summary := ∅, Children := some {}
    CreateIndex := index, ModifyIndex := 0 }

/-- The loop of `updateSummaryWithJob`: an empty entry for each task group the summary lacks,
and whether there was one. -/
def addTaskGroupSummaries (acc : JobSummary × Bool) (tgs : List TaskGroup) : JobSummary × Bool :=
  tgs.foldl (fun acc tg =>
    if tg.Name ∈ acc.1.Summary then acc
    else ({ acc.1 with Summary := acc.1.Summary.insert tg.Name {} }, true)) acc

def setQueuedStep (acc : JobSummary × Bool) (e : Σ _ : String, Int) : JobSummary × Bool :=
  match acc.1.Summary.lookup e.1 with
  | some summary =>
    if summary.Queued ≠ e.2 then
      ({ acc.1 with Summary := acc.1.Summary.insert e.1 { summary with Queued := e.2 } }, true)
    else acc
  | none => acc

/-- The loop of `nestedUpsertEval` over `QueuedAllocations`: the queued count of each task group
the summary has, and whether one changed. -/
def setQueued (acc : JobSummary × Bool) (queued : List (Σ _ : String, Int)) : JobSummary × Bool :=
  queued.foldl setQueuedStep acc

/-- The summary `ReconcileJobSummaries` computes for a parameterized or periodic job: the count
of its children by status. -/
def childrenCount (children : List Job) : JobChildrenSummary :=
  children.foldl (fun c child =>
    if child.Status = JobStatusPending then { c with Pending := c.Pending + 1 }
    else if child.Status = JobStatusDead then { c with Dead := c.Dead + 1 }
    else if child.Status = JobStatusRunning then { c with Running := c.Running + 1 }
    else c) {}

/-- One allocation of the count of `ReconcileJobSummaries`: in the bin of its status, if it is of
the registered incarnation of the job. -/
def countAllocStep (job : Job) (m : Map String TaskGroupSummary) (alloc : Allocation) :
    Map String TaskGroupSummary :=
  if alloc.Job.CreateIndex ≠ job.CreateIndex then m
  else m.insert alloc.TaskGroup (((m.lookup alloc.TaskGroup).getD {}).incr alloc.ClientStatus)

/-- The task group summaries `ReconcileJobSummaries` computes for a job: an empty one for each of
its groups, and each allocation of the registered job counted in the bin of its status. -/
def countAllocs (job : Job) (allocs : List Allocation) : Map String TaskGroupSummary :=
  allocs.foldl (countAllocStep job) (job.TaskGroups.foldl (fun m tg => m.insert tg.Name {}) ∅)

namespace StateStore

variable (s : StateStore)

def allocsByJobIndex (ns id : String) : List Allocation :=
  s.allocs.vals.filter fun a => a.Namespace == ns && a.JobID == id

-- ---------------------------------------------------------------------------
-- Job status
-- ---------------------------------------------------------------------------

def getJobStatus (job : Job) (evalDelete : Bool) : String :=
  if job.«Type» == JobTypeSystem || job.IsParameterized || job.IsPeriodic then
    if job.Stop then JobStatusDead else JobStatusRunning
  else
    let allocs := s.allocsByJobIndex job.Namespace job.ID
    if allocs.any (!·.TerminalStatus) then JobStatusRunning
    else
      let evals := s.EvalsByJob job.Namespace job.ID
      if evals.any (!·.TerminalStatus) then JobStatusPending
      else if evalDelete || evals.length ≠ 0 || allocs.length ≠ 0 then JobStatusDead
      else JobStatusPending

def setJobStatus (index : Nat) (job : Job) (evalDelete : Bool) (forceStatus : String) :
    Except String StateStore :=
  let oldStatus := if index = job.CreateIndex then "" else job.Status
  let newStatus := if forceStatus = "" then s.getJobStatus job evalDelete else forceStatus
  if oldStatus = newStatus then .ok s
  else
    let updated := { job with Status := newStatus, ModifyIndex := index }
    let s := s.insertJob updated
    if updated.ParentID = "" then .ok s
    else
      -- the parent's summary may be gone with the parent
      match s.jobSummaries.lookup (updated.Namespace, updated.ParentID) with
      | none => .ok s
      | some existing => do
        let children ← childrenTransition (existing.Children.getD {}) oldStatus newStatus
        pure (s.insertSummary { existing with Children := some children, ModifyIndex := index })

def setJobStatusOf (index : Nat) (evalDelete : Bool) (tuple : NamespacedID)
    (forceStatus : String) : Except String StateStore :=
  match s.JobByID tuple.Namespace tuple.ID with
  | none => .ok s
  | some existing => s.setJobStatus index existing evalDelete forceStatus

def setJobStatuses (index : Nat) (jobs : Map NamespacedID String) (evalDelete : Bool) :
    Except String StateStore :=
  jobs.entries.foldlM (fun s e => s.setJobStatusOf index evalDelete e.1 e.2) s

-- ---------------------------------------------------------------------------
-- Jobs, summaries and versions
-- ---------------------------------------------------------------------------

def updateSummaryWithJob (index : Nat) (job : Job) : StateStore :=
  let acc := match s.jobSummaries.lookup (job.Namespace, job.ID) with
    | some summary => (summary, false)
    | none => (newJobSummary job index, true)
  let (summary, hasSummaryChanged) := addTaskGroupSummaries acc job.TaskGroups
  if hasSummaryChanged then s.insertSummary { summary with ModifyIndex := index } else s

/-- `jobVersionByID`: the versions of a job, the highest first. The `id_prefix` index gives the
jobs whose ID starts with `id`, and the code keeps those with exactly `id`; the versions of a job
are distinct, so any sort gives the order of `sort.Slice`. -/
def jobVersionByID (ns id : String) : List Job :=
  ((s.jobVersions.filter fun j => j.Namespace == ns && strings.HasPrefix j.ID id).filter
    (·.ID == id)).insertionSort fun a b => b.Version ≤ a.Version

def jobByIDAndVersionImpl (ns id : String) (version : Nat) : Option Job :=
  Table.lookup jobVersionKey (ns, id, version) s.jobVersions

def upsertJobVersion (job : Job) : StateStore :=
  let s := { s with jobVersions := Table.insert jobVersionKey versionLt job s.jobVersions }
  let all := s.jobVersionByID job.Namespace job.ID
  if all.length ≤ JobTrackedVersions then s
  else
    -- Go swaps a stable job found at index `max` into the kept set, so the job deleted is then
    -- the one at `max - 1`
    let max := JobTrackedVersions
    let d := if all.findIdx? (·.Stable) = some max then all[max - 1]? else all[max]?
    match d with
    | some d => { s with jobVersions := Table.delete jobVersionKey (jobVersionKey d) s.jobVersions }
    | none => s

/-- The job `upsertJobImpl` registers, with its indexes, version and status, and the tables after
the status write a new job gets. -/
def prepareJob (index : Nat) (job : Job) (keepVersion : Bool) : Except String (Job × StateStore) :=
  match s.JobByID job.Namespace job.ID with
  | some existing =>
    let job := { job with CreateIndex := existing.CreateIndex, ModifyIndex := index }
    let job := if keepVersion then job
      else { job with JobModifyIndex := index, Version := existing.Version + 1 }
    .ok ({ job with Status := s.getJobStatus job false }, s)
  | none =>
    let job := { job with
      CreateIndex := index, ModifyIndex := index, JobModifyIndex := index, Version := 0 }
    match s.setJobStatus index job false "" with
    | .error e => .error ("setting job status for " ++ strconv.Quote job.ID ++ " failed: " ++ e)
    -- read the job back: the status write may have replaced it
    | .ok s => .ok ((s.JobByID job.Namespace job.ID).getD job, s)

def upsertJobImpl (index : Nat) (job : Job) (keepVersion : Bool) : Except String StateStore :=
  if !namespaceExists job.Namespace then
    .error ("job " ++ strconv.Quote job.ID ++ " is in nonexistent namespace " ++
      strconv.Quote job.Namespace)
  else do
    let (job, s) ← s.prepareJob index job keepVersion
    let s := s.updateSummaryWithJob index job
    let s := s.upsertJobVersion job
    pure (s.insertJob job)

def UpsertJob (index : Nat) (job : Job) : Except String StateStore := s.upsertJobImpl index job false

def updateJobStabilityImpl (index : Nat) (ns jobID : String) (jobVersion : Nat) (stable : Bool) :
    Except String StateStore :=
  match s.jobByIDAndVersionImpl ns jobID jobVersion with
  | none => .ok s
  | some job => if job.Stable = stable then .ok s
    else s.upsertJobImpl index { job with Stable := stable } true

-- ---------------------------------------------------------------------------
-- Evaluations
-- ---------------------------------------------------------------------------

def nestedUpsertEval (index : Nat) (eval : Evaluation) : StateStore :=
  let eval := match Table.lookup (·.ID) eval.ID s.evals with
    | some existing => { eval with CreateIndex := existing.CreateIndex, ModifyIndex := index }
    | none => { eval with CreateIndex := index, ModifyIndex := index }
  let s := match s.jobSummaries.lookup (eval.Namespace, eval.JobID) with
    | none => s
    | some js =>
      let (js, hasSummaryChanged) := setQueued (js, false) eval.QueuedAllocations.entries
      if hasSummaryChanged then s.insertSummary { js with ModifyIndex := index } else s
  -- a complete evaluation that placed everything cancels the blocked ones of its job
  let s := if eval.Status = EvalStatusComplete ∧ eval.FailedTGAllocs.length = 0 then
      (s.evals.filter fun e => e.Namespace == eval.Namespace && e.JobID == eval.JobID &&
          e.Status == EvalStatusBlocked).foldl (fun s e =>
        s.insertEval { e with
          Status := EvalStatusCancelled
          StatusDescription := "evaluation " ++ strconv.Quote e.ID ++ " successful"
          ModifyIndex := index }) s
    else s
  s.insertEval eval

def UpsertEvals (index : Nat) (evals : List Evaluation) : Except String StateStore :=
  let (s, jobs) := evals.foldl (fun (acc : StateStore × Map NamespacedID String) eval =>
    (acc.1.nestedUpsertEval index eval, acc.2.insert ⟨eval.JobID, eval.Namespace⟩ "")) (s, ∅)
  (s.setJobStatuses index jobs false).mapError ("setting job status failed: " ++ ·)

def updateEvalModifyIndex (index : Nat) (evalID : String) : Except String StateStore :=
  match Table.lookup (·.ID) evalID s.evals with
  | none => .error ("unable to find eval id " ++ strconv.Quote evalID)
  | some existing => .ok (s.insertEval { existing with ModifyIndex := index })

-- ---------------------------------------------------------------------------
-- Reconciling the summaries
-- ---------------------------------------------------------------------------

/-- The children of each parent job, in the order of the `jobs` table. -/
def parentMap : Map String (List Job) :=
  s.jobs.foldl (fun m job =>
    if job.ParentID ≠ "" then m.insert job.ParentID ((m.lookup job.ParentID).getD [] ++ [job])
    else m) ∅

def reconcileJobSummary (index : Nat) (parents : Map String (List Job)) (job : Job) :
    StateStore :=
  if job.IsParameterized || job.IsPeriodic then
    match s.jobSummaries.lookup (job.Namespace, job.ID) with
    | none => s
    | some oldSummary =>
      let summary : JobSummary := {
        JobID := job.ID, Namespace := job.Namespace, Summary := ∅
        Children := some (childrenCount ((parents.lookup job.ID).getD []))
        CreateIndex := 0, ModifyIndex := 0 }
      if summary ≠ oldSummary then
        s.insertSummary { summary with CreateIndex := job.CreateIndex, ModifyIndex := index }
      else s
  else
    s.insertSummary {
      JobID := job.ID, Namespace := job.Namespace
      Summary := countAllocs job (s.allocsByJobIndex job.Namespace job.ID), Children := none
      CreateIndex := job.CreateIndex, ModifyIndex := index }

def ReconcileJobSummaries (index : Nat) : StateStore :=
  s.jobs.foldl (fun t job => t.reconcileJobSummary index s.parentMap job) s

-- ---------------------------------------------------------------------------
-- What each write does
-- ---------------------------------------------------------------------------

section spec

variable {s t u : StateStore} {index : Nat}

/-- What a job write leaves as it was: the allocations, deployments and evaluations; and every job
it finds registered stays registered. -/
structure JobWriteFrame (s t : StateStore) : Prop where
  allocs : t.allocs = s.allocs
  deployments : t.deployments = s.deployments
  evals : t.evals = s.evals
  jobs_kept : ∀ ns id, (s.JobByID ns id).isSome → (t.JobByID ns id).isSome

theorem JobWriteFrame.refl (s : StateStore) : JobWriteFrame s s :=
  ⟨rfl, rfl, rfl, fun _ _ h => h⟩

theorem JobWriteFrame.trans (h₁ : JobWriteFrame s t) (h₂ : JobWriteFrame t u) : JobWriteFrame s u :=
  ⟨h₂.allocs.trans h₁.allocs, h₂.deployments.trans h₁.deployments, h₂.evals.trans h₁.evals,
    fun ns id h => h₂.jobs_kept ns id (h₁.jobs_kept ns id h)⟩

theorem insertJob_frame (j : Job) : JobWriteFrame s (s.insertJob j) := by
  refine ⟨rfl, rfl, rfl, fun ns id hs => ?_⟩
  rw [jobByID_insertJob]
  split_ifs
  · rfl
  · exact hs

theorem insertSummary_frame (js : JobSummary) : JobWriteFrame s (s.insertSummary js) :=
  ⟨rfl, rfl, rfl, fun _ _ h => h⟩

theorem setJobStatus_cases {job : Job} {evalDelete : Bool} {forceStatus : String}
    (h : s.setJobStatus index job evalDelete forceStatus = .ok t) :
    t = s ∨ ∃ status, t = s.insertJob { job with Status := status, ModifyIndex := index } ∨
      ∃ js children, s.jobSummaries.lookup (job.Namespace, job.ParentID) = some js ∧
        t = (s.insertJob { job with Status := status, ModifyIndex := index }).insertSummary
          { js with Children := some children, ModifyIndex := index } := by
  unfold setJobStatus at h
  dsimp only at h
  generalize (if index = job.CreateIndex then "" else job.Status) = oldStatus at h
  generalize (if forceStatus = "" then s.getJobStatus job evalDelete else forceStatus) = newStatus at h
  by_cases hs : oldStatus = newStatus
  · rw [if_pos hs] at h
    exact .inl (Except.ok.inj h).symm
  rw [if_neg hs] at h
  by_cases hp : job.ParentID = ""
  · rw [if_pos hp] at h
    exact .inr ⟨_, .inl (Except.ok.inj h).symm⟩
  rw [if_neg hp] at h
  split at h
  · exact .inr ⟨_, .inl (Except.ok.inj h).symm⟩
  · rename_i js hjs
    -- the parent's counters: only `Children` of its summary changes
    obtain ⟨children, -, hc⟩ := bind_eq_ok h
    exact .inr ⟨_, .inr ⟨js, children, by simpa using hjs, (Except.ok.inj hc).symm⟩⟩

theorem setJobStatusOf_cases {evalDelete : Bool} {tuple : NamespacedID} {forceStatus : String}
    (h : s.setJobStatusOf index evalDelete tuple forceStatus = .ok t) :
    t = s ∨ ∃ job, s.JobByID tuple.Namespace tuple.ID = some job ∧
      s.setJobStatus index job evalDelete forceStatus = .ok t := by
  unfold setJobStatusOf at h
  split at h
  · exact .inl (Except.ok.inj h).symm
  · exact .inr ⟨_, ‹_›, h⟩

theorem addTaskGroupSummaries_lookup (acc : JobSummary × Bool) (tgs : List TaskGroup) (tg : String) :
    (addTaskGroupSummaries acc tgs).1.Summary.lookup tg =
      (acc.1.Summary.lookup tg).or (if tg ∈ tgs.map (·.Name) then some {} else none) := by
  induction tgs generalizing acc with
  | nil => simp [addTaskGroupSummaries]
  | cons g gs ih =>
    rw [addTaskGroupSummaries, List.foldl_cons, ← addTaskGroupSummaries, ih, List.map_cons]
    dsimp only
    by_cases hg : g.Name ∈ acc.1.Summary
    · rw [if_pos hg]
      by_cases htg : tg = g.Name
      · -- the group had an entry, which stays
        subst htg
        obtain ⟨v, hv⟩ := Map.exists_lookup_of_mem hg
        simp [hv]
      · simp [htg]
    · rw [if_neg hg]
      by_cases htg : tg = g.Name
      · subst htg
        rw [AList.lookup_insert, AList.lookup_eq_none.mpr hg]
        simp
      · rw [AList.lookup_insert_ne htg]
        simp [htg]

theorem addTaskGroupSummaries_snd (js : JobSummary) (tgs : List TaskGroup) :
    (addTaskGroupSummaries (js, true) tgs).2 = true := by
  induction tgs generalizing js with
  | nil => rfl
  | cons g gs ih =>
    rw [addTaskGroupSummaries, List.foldl_cons, ← addTaskGroupSummaries]
    dsimp only
    split_ifs
    · exact ih js
    · exact ih _

theorem addTaskGroupSummaries_fst (acc : JobSummary × Bool) (tgs : List TaskGroup) :
    (addTaskGroupSummaries acc tgs).1 =
      { acc.1 with Summary := (addTaskGroupSummaries acc tgs).1.Summary } := by
  induction tgs generalizing acc with
  | nil => rfl
  | cons g gs ih =>
    simp only [addTaskGroupSummaries, List.foldl_cons] at ih ⊢
    rw [ih]
    split_ifs <;> rfl

theorem bins_addTaskGroupSummaries (acc : JobSummary × Bool) (tgs : List TaskGroup) (tg : String)
    (st : AllocClientStatus) : (addTaskGroupSummaries acc tgs).1.bins tg st = acc.1.bins tg st := by
  unfold JobSummary.bins
  rw [addTaskGroupSummaries_lookup]
  cases acc.1.Summary.lookup tg <;> split_ifs <;> simp

theorem updateSummaryWithJob_of_none {job : Job} (hl : s.jobSummaries.lookup (job.Namespace, job.ID) = none) :
    s.updateSummaryWithJob index job = s.insertSummary
      { (addTaskGroupSummaries (newJobSummary job index, true) job.TaskGroups).1 with
        ModifyIndex := index } := by
  unfold updateSummaryWithJob
  rw [hl]
  dsimp only
  have hb := addTaskGroupSummaries_snd (newJobSummary job index) job.TaskGroups
  rcases hp : addTaskGroupSummaries (newJobSummary job index, true) job.TaskGroups with
    ⟨summary, changed⟩
  rw [hp] at hb
  dsimp only at hb ⊢
  rw [if_pos hb]

/-- `updateSummaryWithJob` writes nothing, or the summary it had with more empty entries, or a new
summary made at `index`. -/
theorem updateSummaryWithJob_cases (s : StateStore) (index : Nat) (job : Job) :
    s.updateSummaryWithJob index job = s ∨
    (∃ js₀, s.jobSummaries.lookup (job.Namespace, job.ID) = some js₀ ∧
      s.updateSummaryWithJob index job = s.insertSummary
        { (addTaskGroupSummaries (js₀, false) job.TaskGroups).1 with ModifyIndex := index }) ∨
    (s.jobSummaries.lookup (job.Namespace, job.ID) = none ∧
      s.updateSummaryWithJob index job = s.insertSummary
        { (addTaskGroupSummaries (newJobSummary job index, true) job.TaskGroups).1 with
          ModifyIndex := index }) := by
  cases hl : s.jobSummaries.lookup (job.Namespace, job.ID) with
  | none => exact .inr (.inr ⟨rfl, updateSummaryWithJob_of_none hl⟩)
  | some js₀ =>
    unfold updateSummaryWithJob
    rw [hl]
    dsimp only
    rcases hp : addTaskGroupSummaries (js₀, false) job.TaskGroups with ⟨summary, changed⟩
    dsimp only
    cases changed
    · exact .inl (if_neg Bool.false_ne_true)
    · exact .inr (.inl ⟨js₀, rfl, by simp [hp]⟩)

@[simp] theorem updateSummaryWithJob_allocs (job : Job) :
    (s.updateSummaryWithJob index job).allocs = s.allocs := by
  rcases updateSummaryWithJob_cases s index job with h | ⟨_, _, h⟩ | ⟨_, h⟩ <;>
    rw [h] <;> rfl

@[simp] theorem updateSummaryWithJob_jobs (job : Job) :
    (s.updateSummaryWithJob index job).jobs = s.jobs := by
  rcases updateSummaryWithJob_cases s index job with h | ⟨_, _, h⟩ | ⟨_, h⟩ <;>
    rw [h] <;> rfl

theorem upsertJobVersion_eq (job : Job) :
    ∃ versions, s.upsertJobVersion job = { s with jobVersions := versions } := by
  unfold upsertJobVersion
  simp only
  split_ifs <;> (try split) <;> exact ⟨_, rfl⟩

@[simp] theorem upsertJobVersion_allocs (job : Job) : (s.upsertJobVersion job).allocs = s.allocs := by
  obtain ⟨_, h⟩ := upsertJobVersion_eq (s := s) job
  rw [h]

@[simp] theorem upsertJobVersion_jobs (job : Job) : (s.upsertJobVersion job).jobs = s.jobs := by
  obtain ⟨_, h⟩ := upsertJobVersion_eq (s := s) job
  rw [h]

@[simp] theorem upsertJobVersion_jobSummaries (job : Job) :
    (s.upsertJobVersion job).jobSummaries = s.jobSummaries := by
  obtain ⟨_, h⟩ := upsertJobVersion_eq (s := s) job
  rw [h]

theorem getJobStatus_valid (job : Job) (evalDelete : Bool) :
    s.getJobStatus job evalDelete = JobStatusPending ∨ s.getJobStatus job evalDelete = JobStatusRunning ∨
      s.getJobStatus job evalDelete = JobStatusDead := by
  unfold getJobStatus
  dsimp only
  split_ifs <;> simp

theorem prepareJob_ok {job job' : Job} {keepVersion : Bool}
    (h : s.prepareJob index job keepVersion = .ok (job', t)) :
    job'.Namespace = job.Namespace ∧ job'.ID = job.ID ∧
    ((∃ existing, s.JobByID job.Namespace job.ID = some existing ∧ t = s ∧
        job'.CreateIndex = existing.CreateIndex) ∨
      (s.JobByID job.Namespace job.ID = none ∧ job'.CreateIndex = index ∧
        s.setJobStatus index { job with
          CreateIndex := index, ModifyIndex := index, JobModifyIndex := index, Version := 0 }
          false "" = .ok t)) := by
  unfold prepareJob at h
  split at h
  · rename_i existing hex
    obtain ⟨rfl, rfl⟩ := Prod.mk.inj (Except.ok.inj h)
    refine ⟨?_, ?_, .inl ⟨existing, hex, rfl, ?_⟩⟩ <;> split_ifs <;> rfl
  · rename_i hnone
    dsimp only at h
    split at h
    · cases h
    · rename_i t' hs
      obtain ⟨rfl, rfl⟩ := Prod.mk.inj (Except.ok.inj h)
      -- the job read back is the one the status write stored, or the one passed
      have hback : ∀ j, t'.JobByID job.Namespace job.ID = some j →
          j.Namespace = job.Namespace ∧ j.ID = job.ID ∧ j.CreateIndex = index := by
        intro j hj
        rcases setJobStatus_cases hs with rfl | ⟨status, rfl | ⟨js, c, -, rfl⟩⟩
        · rw [hnone] at hj
          cases hj
        · rw [jobByID_insertJob, if_pos rfl] at hj
          cases hj
          exact ⟨rfl, rfl, rfl⟩
        · rw [jobByID_insertSummary, jobByID_insertJob, if_pos rfl] at hj
          cases hj
          exact ⟨rfl, rfl, rfl⟩
      cases hj : t'.JobByID job.Namespace job.ID with
      | none => exact ⟨rfl, rfl, .inr ⟨hnone, rfl, hs⟩⟩
      | some j =>
        obtain ⟨h1, h2, h3⟩ := hback j hj
        exact ⟨h1, h2, .inr ⟨hnone, h3, hs⟩⟩

theorem upsertJobImpl_ok {job : Job} {keepVersion : Bool}
    (h : s.upsertJobImpl index job keepVersion = .ok t) :
    namespaceExists job.Namespace = true ∧ ∃ job' t₁, s.prepareJob index job keepVersion = .ok (job', t₁) ∧
      t = ((t₁.updateSummaryWithJob index job').upsertJobVersion job').insertJob job' := by
  unfold upsertJobImpl at h
  cases hns : namespaceExists job.Namespace
  · simp [hns] at h
  · simp only [hns, Bool.not_true, Bool.false_eq_true, if_false] at h
    obtain ⟨⟨job', t₁⟩, hp, h⟩ := bind_eq_ok h
    exact ⟨rfl, job', t₁, hp, (pure_eq_ok.mp h).symm⟩

/-- `upsertJobImpl` fails only before it writes: on a namespace that does not exist. -/
theorem upsertJobImpl_error {job : Job} {keepVersion : Bool} {e : String}
    (h : s.upsertJobImpl index job keepVersion = .error e) : namespaceExists job.Namespace = false := by
  unfold upsertJobImpl at h
  cases hns : namespaceExists job.Namespace
  · rfl
  · exfalso
    simp only [hns, Bool.not_true, Bool.false_eq_true, if_false] at h
    rcases bind_eq_error h with ⟨_, -, h⟩ | h
    · cases h
    -- a new job's status write cannot fail: its old status is `""` and its new one is valid
    unfold prepareJob at h
    split at h
    · cases h
    · dsimp only at h
      split at h
      · rename_i e' hs
        unfold setJobStatus at hs
        dsimp only at hs
        rw [if_pos rfl, if_pos rfl] at hs
        have hv := getJobStatus_valid (s := s) { job with
          CreateIndex := index, ModifyIndex := index, JobModifyIndex := index, Version := 0 } false
        have hne : ("" : String) ≠ s.getJobStatus { job with
            CreateIndex := index, ModifyIndex := index, JobModifyIndex := index, Version := 0 } false := by
          rcases hv with hv | hv | hv <;> rw [hv] <;> decide
        rw [if_neg hne] at hs
        by_cases hp : job.ParentID = ""
        · rw [if_pos hp] at hs
          cases hs
        · rw [if_neg hp] at hs
          split at hs
          · cases hs
          · rcases bind_eq_error hs with ⟨c, -, hc⟩ | hc
            · cases hc
            · rcases hv with hv | hv | hv <;>
                simp [childrenTransition, hv, JobStatusPending, JobStatusRunning, JobStatusDead] at hc <;>
                cases hc
      · cases h

theorem updateJobStabilityImpl_ok {ns jobID : String} {jobVersion : Nat} {stable : Bool}
    (h : s.updateJobStabilityImpl index ns jobID jobVersion stable = .ok t) :
    t = s ∨ ∃ job : Job, s.upsertJobImpl index { job with Stable := stable } true = .ok t := by
  unfold updateJobStabilityImpl at h
  split at h
  · exact .inl (Except.ok.inj h).symm
  · split_ifs at h
    · exact .inl (Except.ok.inj h).symm
    · exact .inr ⟨_, h⟩

theorem setQueuedStep_fst (acc : JobSummary × Bool) (e : Σ _ : String, Int) :
    (setQueuedStep acc e).1 = { acc.1 with Summary := (setQueuedStep acc e).1.Summary } ∧
      ∀ tg st, (setQueuedStep acc e).1.bins tg st = acc.1.bins tg st := by
  unfold setQueuedStep
  split
  · rename_i summary hs
    split_ifs
    · refine ⟨rfl, fun tg st => ?_⟩
      unfold JobSummary.bins
      by_cases htg : tg = e.1
      · subst htg
        rw [AList.lookup_insert, hs]
        cases st <;> rfl
      · rw [AList.lookup_insert_ne htg]
    · exact ⟨rfl, fun _ _ => rfl⟩
  · exact ⟨rfl, fun _ _ => rfl⟩

theorem setQueued_fst (acc : JobSummary × Bool) (queued : List (Σ _ : String, Int)) :
    (setQueued acc queued).1 = { acc.1 with Summary := (setQueued acc queued).1.Summary } ∧
      ∀ tg st, (setQueued acc queued).1.bins tg st = acc.1.bins tg st := by
  induction queued generalizing acc with
  | nil => exact ⟨rfl, fun _ _ => rfl⟩
  | cons e es ih =>
    rw [setQueued, List.foldl_cons, ← setQueued]
    obtain ⟨ih₁, ih₂⟩ := ih (setQueuedStep acc e)
    obtain ⟨h₁, h₂⟩ := setQueuedStep_fst acc e
    exact ⟨ih₁.trans (by rw [h₁]), fun tg st => (ih₂ tg st).trans (h₂ tg st)⟩

theorem foldl_insertEval {α : Type} (g : α → Evaluation) (l : List α) (s : StateStore) :
    l.foldl (fun s e => s.insertEval (g e)) s =
      { s with evals := l.foldl (fun evs e => Table.insert (·.ID) idLt (g e) evs) s.evals } := by
  induction l generalizing s with
  | nil => rfl
  | cons x xs ih =>
    rw [List.foldl_cons, ih]
    rfl

theorem nestedUpsertEval_cases (s : StateStore) (index : Nat) (eval : Evaluation) :
    ∃ evals, s.nestedUpsertEval index eval = { s with evals := evals } ∨
      ∃ js, s.jobSummaries.lookup (eval.Namespace, eval.JobID) = some js ∧
        s.nestedUpsertEval index eval = { s.insertSummary
          { (setQueued (js, false) eval.QueuedAllocations.entries).1 with ModifyIndex := index } with
          evals := evals } := by
  unfold nestedUpsertEval
  dsimp only
  -- the evaluation written keeps the namespace and job of the one passed
  cases Table.lookup (·.ID) eval.ID s.evals <;> dsimp only <;>
  · cases hjs : s.jobSummaries.lookup (eval.Namespace, eval.JobID) with
    | none =>
      dsimp only
      split_ifs <;> (try simp only [foldl_insertEval]) <;> exact ⟨_, .inl rfl⟩
    | some js =>
      dsimp only
      rcases hp : setQueued (js, false) eval.QueuedAllocations.entries with ⟨js', changed⟩
      dsimp only
      cases changed
      · rw [if_neg Bool.false_ne_true]
        split_ifs <;> (try simp only [foldl_insertEval]) <;> exact ⟨_, .inl rfl⟩
      · rw [if_pos rfl]
        split_ifs <;> (try simp only [foldl_insertEval]) <;>
          exact ⟨_, .inr ⟨js, rfl, by rw [hp]; rfl⟩⟩

theorem updateEvalModifyIndex_ok {evalID : String} (h : s.updateEvalModifyIndex index evalID = .ok t) :
    ∃ eval, t = s.insertEval eval := by
  unfold updateEvalModifyIndex at h
  split at h
  · cases h
  · exact ⟨_, (Except.ok.inj h).symm⟩

@[simp] theorem nestedUpsertEval_allocs (eval : Evaluation) :
    (s.nestedUpsertEval index eval).allocs = s.allocs := by
  obtain ⟨_, h | ⟨_, -, h⟩⟩ := nestedUpsertEval_cases s index eval
  · rw [h]
  · rw [h]
    rfl

@[simp] theorem nestedUpsertEval_deployments (eval : Evaluation) :
    (s.nestedUpsertEval index eval).deployments = s.deployments := by
  obtain ⟨_, h | ⟨_, -, h⟩⟩ := nestedUpsertEval_cases s index eval
  · rw [h]
  · rw [h]
    rfl

/-- `UpsertEvals` is the evaluation writes in order, then the status of each job they name. -/
theorem UpsertEvals_eq (evals : List Evaluation) :
    s.UpsertEvals index evals =
      ((evals.foldl (fun t eval => t.nestedUpsertEval index eval) s).setJobStatuses index
        (evals.foldl (fun m eval => m.insert ⟨eval.JobID, eval.Namespace⟩ "") ∅) false).mapError
        ("setting job status failed: " ++ ·) := by
  -- the loop carries the tables and the jobs side by side, each step on its own
  have hpair : ∀ (l : List Evaluation) (t : StateStore) (m : Map NamespacedID String),
      l.foldl (fun (acc : StateStore × Map NamespacedID String) eval =>
        (acc.1.nestedUpsertEval index eval, acc.2.insert ⟨eval.JobID, eval.Namespace⟩ "")) (t, m) =
      (l.foldl (fun t eval => t.nestedUpsertEval index eval) t,
        l.foldl (fun m eval => m.insert ⟨eval.JobID, eval.Namespace⟩ "") m) := by
    intro l
    induction l with
    | nil => exact fun _ _ => rfl
    | cons e es ih => exact fun t m => ih _ _
  unfold UpsertEvals
  rw [hpair]

theorem setJobStatus_frame {job : Job} {evalDelete : Bool} {forceStatus : String}
    (h : s.setJobStatus index job evalDelete forceStatus = .ok t) : JobWriteFrame s t := by
  rcases setJobStatus_cases h with rfl | ⟨_, rfl | ⟨_, _, -, rfl⟩⟩
  · exact .refl _
  · exact insertJob_frame _
  · exact (insertJob_frame _).trans (insertSummary_frame _)

theorem setJobStatuses_frame {jobs : Map NamespacedID String} {evalDelete : Bool}
    (h : s.setJobStatuses index jobs evalDelete = .ok t) : JobWriteFrame s t := by
  unfold setJobStatuses at h
  refine foldlM_invariant (JobWriteFrame s) (fun u e u' hu hstep => hu.trans ?_) _ (.refl s) h
  rcases setJobStatusOf_cases hstep with rfl | ⟨_, -, hj⟩
  · exact .refl _
  · exact setJobStatus_frame hj

theorem updateSummaryWithJob_frame (job : Job) : JobWriteFrame s (s.updateSummaryWithJob index job) := by
  rcases updateSummaryWithJob_cases s index job with h | ⟨_, _, h⟩ | ⟨_, h⟩ <;>
    rw [h]
  · exact .refl _
  · exact insertSummary_frame _
  · exact insertSummary_frame _

theorem upsertJobVersion_frame (job : Job) : JobWriteFrame s (s.upsertJobVersion job) := by
  obtain ⟨_, h⟩ := upsertJobVersion_eq (s := s) job
  rw [h]
  exact ⟨rfl, rfl, rfl, fun _ _ h => h⟩

theorem upsertJobImpl_frame {job : Job} {keepVersion : Bool}
    (h : s.upsertJobImpl index job keepVersion = .ok t) : JobWriteFrame s t := by
  obtain ⟨-, job', t₁, hp, rfl⟩ := upsertJobImpl_ok h
  -- the tables `prepareJob` leaves: as they were, or after the status write of a new job
  have h₁ : JobWriteFrame s t₁ := by
    rcases (prepareJob_ok hp).2.2 with ⟨_, _, rfl, _⟩ | ⟨_, _, hs⟩
    · exact .refl _
    · exact setJobStatus_frame hs
  exact ((h₁.trans (updateSummaryWithJob_frame job')).trans (upsertJobVersion_frame job')).trans
    (insertJob_frame job')

theorem updateJobStabilityImpl_frame {ns jobID : String} {jobVersion : Nat} {stable : Bool}
    (h : s.updateJobStabilityImpl index ns jobID jobVersion stable = .ok t) : JobWriteFrame s t := by
  rcases updateJobStabilityImpl_ok h with rfl | ⟨_, hj⟩
  · exact .refl _
  · exact upsertJobImpl_frame hj

end spec

end StateStore

end Nomad.State
