import Nomad.State.StateStore

/-!
# Garbage collection of evaluations, allocations and jobs

`nomad/core_sched.go`: the core scheduler's collectors read a snapshot of the state store and
pass the evaluations and allocations they find to `evalReap` and the jobs to `jobReap`.
`gcEval` decides for one evaluation: it refuses one that is not terminal or was modified after
the threshold index; for a batch evaluation whose job still runs it keeps the evaluation but
hands back the terminal allocations of an older incarnation of the job; otherwise it collects
the evaluation when every allocation passes `allocGCEligible`, and hands back those that do.
`evalGC` reaps every evaluation and every allocation `gcEval` hands back; `jobGC` reaps a job
only when `gcEval` collects all of its evaluations.

The threshold is a parameter: the collectors compute it from the time table, or take the
largest index for a forced collection. Lookup errors of the snapshot are not modelled.
-/

namespace Nomad.Server

open Go Container Structs State

def allocGCEligible (a : Allocation) (job : Option Job) (gcTime : Time) (thresholdIndex : Nat) :
    Bool :=
  if !a.TerminalStatus || decide (thresholdIndex < a.ModifyIndex) then false
  else if a.ClientStatus = .running then false
  -- the job is deleted, stopped or dead
  else if job.all (fun j => j.Stop || j.Status == JobStatusDead) then true
  else if a.DesiredStatus = .stop then true
  else if a.ClientStatus ≠ .failed then true
  else
    match job.bind fun j => (j.LookupTaskGroup a.TaskGroup).bind (·.ReschedulePolicy) with
    | none => true
    | some reschedulePolicy =>
      if !reschedulePolicy.Unlimited && reschedulePolicy.Attempts == 0 then true
      else if a.NextAllocation ≠ "" then true
      else if reschedulePolicy.Unlimited then false
      else
        match (a.RescheduleTracker.bind (·.Events)).bind List.getLast? with
        | none => false
        | some lastRescheduleEvent =>
          let timeDiff := wrap64 (gcTime.UnixNano - lastRescheduleEvent.RescheduleTime)
          decide (reschedulePolicy.Interval < timeDiff)

/-- The test `gcEval` collects a batch evaluation by: its job is gone, or dead and either
stopped or collected with `allowBatch`. -/
def batchCollect (job : Option Job) (allowBatch : Bool) : Bool :=
  match job with
  | none => true
  | some job =>
    if job.Status ≠ JobStatusDead then false
    else if job.Stop then true
    else allowBatch

def olderVersionTerminalAllocs (allocs : List Allocation) (job : Job) : List String :=
  -- Go tests `alloc.Job != nil` first; a stored allocation always has its job (`upsertedAlloc_Job`)
  (allocs.filter fun alloc => decide (alloc.Job.CreateIndex < job.CreateIndex) && alloc.TerminalStatus).map
    (·.ID)

def scanAlloc (job : Option Job) (gcTime : Time) (thresholdIndex : Nat) (acc : Bool × List String)
    (alloc : Allocation) : Bool × List String :=
  if !allocGCEligible alloc job gcTime thresholdIndex then (false, acc.2)
  else (acc.1, acc.2 ++ [alloc.ID])

def gcScan (job : Option Job) (gcTime : Time) (thresholdIndex : Nat) (allocs : List Allocation) :
    Bool × List String :=
  allocs.foldl (scanAlloc job gcTime thresholdIndex) (true, [])

def batchKept (s : StateStore) (eval : Evaluation) (allowBatch : Bool) : Bool :=
  eval.«Type» == JobTypeBatch && !batchCollect (s.JobByID eval.Namespace eval.JobID) allowBatch

def gcEval (s : StateStore) (eval : Evaluation) (thresholdIndex : Nat) (allowBatch : Bool)
    (now : Time) : Bool × List String :=
  if !eval.TerminalStatus || decide (thresholdIndex < eval.ModifyIndex) then (false, [])
  else
    let job := s.JobByID eval.Namespace eval.JobID
    let allocs := s.AllocsByEval eval.ID
    if batchKept s eval allowBatch then
      -- `batchCollect` holds of a missing job, so the job exists here
      (false, (job.map (olderVersionTerminalAllocs allocs)).getD [])
    else gcScan job now thresholdIndex allocs

/-- What a collector passes on: evaluations and allocations to `evalReap`, jobs to `jobReap`. -/
structure Reap where
  evals : List String := []
  allocs : List String := []
  jobs : List Job := []
  deriving DecidableEq, Repr

/-- The loop of `jobGC` over one job's evaluations: the allocations and evaluations to collect,
or `none` as soon as `gcEval` keeps one evaluation. -/
def jobEvalsGC (s : StateStore) (oldThreshold : Nat) (now : Time) :
    List Evaluation → Option (List String × List String)
  | [] => some ([], [])
  | eval :: evals =>
    if (gcEval s eval oldThreshold true now).1 then
      (jobEvalsGC s oldThreshold now evals).map fun r =>
        ((gcEval s eval oldThreshold true now).2 ++ r.1, eval.ID :: r.2)
    else none

/-- One job of `jobGC`: a new job is ignored; an old one is reaped with its evaluations and
their allocations when all of its evaluations are collected. -/
def jobGCStep (s : StateStore) (oldThreshold : Nat) (now : Time) (r : Reap) (job : Job) : Reap :=
  if oldThreshold < job.CreateIndex then r
  else
    match jobEvalsGC s oldThreshold now (s.EvalsByJob job.Namespace job.ID) with
    | none => r
    | some (jobAlloc, jobEval) =>
      { jobs := r.jobs ++ [job], allocs := r.allocs ++ jobAlloc, evals := r.evals ++ jobEval }

def jobGC (s : StateStore) (oldThreshold : Nat) (now : Time) : Reap :=
  (s.JobsByGC true).foldl (jobGCStep s oldThreshold now) {}

/-- One evaluation of `evalGC`: it is reaped when collected, and the allocations `gcEval` hands
back are reaped in any case. -/
def evalGCStep (s : StateStore) (oldThreshold : Nat) (now : Time) (r : Reap) (eval : Evaluation) :
    Reap :=
  { r with
    evals := if (gcEval s eval oldThreshold false now).1 then r.evals ++ [eval.ID] else r.evals
    allocs := r.allocs ++ (gcEval s eval oldThreshold false now).2 }

def evalGC (s : StateStore) (oldThreshold : Nat) (now : Time) : Reap :=
  s.evals.foldl (evalGCStep s oldThreshold now) {}

-- ---------------------------------------------------------------------------
-- A running allocation of an older incarnation is reaped
-- ---------------------------------------------------------------------------

def batchJob (createIndex : Nat) (status : String) : Job :=
  { ID := "j", Namespace := "default", «Type» := JobTypeBatch, Priority := 50, Stop := false,
    Version := 0, CreateIndex := createIndex, ModifyIndex := createIndex,
    JobModifyIndex := createIndex, TaskGroups := [], Status := status }

def evalAlloc (desired : AllocDesiredStatus) (client : AllocClientStatus) (modifyIndex : Nat) :
    Allocation :=
  { ID := "a", Name := 0, JobID := "j", Job := batchJob 10 JobStatusRunning, TaskGroup := "work",
    NodeID := "n1", DesiredStatus := desired, DesiredTransition := ⟨none, none, none⟩,
    ClientStatus := client, DeploymentID := "", DeploymentStatus := none, TaskStates := [],
    RescheduleTracker := none, NextAllocation := "", FollowupEvalID := "", ModifyTime := 0,
    EvalID := "e", ModifyIndex := modifyIndex }

def completeEval : Evaluation :=
  { ID := "e", Namespace := "default", Priority := 50, «Type» := JobTypeBatch, JobID := "j",
    Wait := 0, WaitUntil := ⟨0⟩, CreateIndex := 5, Status := EvalStatusComplete, ModifyIndex := 5 }

def gcSnapshot (job : Job) (alloc : Allocation) : StateStore :=
  { allocs := (∅ : Map String Allocation).insert alloc.ID alloc, jobs := [job], evals := [completeEval] }

/-- The job `j` was registered again at index 20 and runs. The evaluation `e` of its first
incarnation is complete and older than the threshold 10, so `gcEval` keeps it as a batch one and
hands back `a`, told to stop but still running on its client and modified at index 30; `evalGC`
reaps it. -/
theorem evalGC_reaps_running_alloc :
    gcEval (gcSnapshot (batchJob 20 JobStatusRunning) (evalAlloc .stop .running 30)) completeEval
        10 false ⟨0⟩ = (false, ["a"]) ∧
      evalGC (gcSnapshot (batchJob 20 JobStatusRunning) (evalAlloc .stop .running 30)) 10 ⟨0⟩ =
        { allocs := ["a"] } ∧
      (evalAlloc .stop .running 30).ClientStatus = .running ∧
      10 < (evalAlloc .stop .running 30).ModifyIndex := by
  decide

-- ---------------------------------------------------------------------------
-- What one decision guarantees
-- ---------------------------------------------------------------------------

/-- What a collected allocation must be: terminal, no longer running on its client, and not
modified after the threshold. -/
def Reapable (thresholdIndex : Nat) (a : Allocation) : Prop :=
  a.TerminalStatus = true ∧ a.ClientStatus ≠ .running ∧ a.ModifyIndex ≤ thresholdIndex

section Decisions

variable {s : StateStore} {eval : Evaluation} {T : Nat} {allowBatch : Bool} {now : Time}

theorem allocGCEligible_reapable {a : Allocation} {job : Option Job}
    (h : allocGCEligible a job now T = true) : Reapable T a := by
  unfold allocGCEligible at h
  split at h
  · contradiction
  · rename_i hold
    split at h
    · contradiction
    · rename_i hrun
      simp only [Bool.or_eq_true, Bool.not_eq_true', decide_eq_true_eq, not_or] at hold
      exact ⟨by simpa using hold.1, hrun, by omega⟩

theorem foldl_scanAlloc (job : Option Job) (allocs : List Allocation) (acc : Bool × List String) :
    allocs.foldl (scanAlloc job now T) acc =
      (acc.1 && allocs.all (allocGCEligible · job now T),
        acc.2 ++ (allocs.filter (allocGCEligible · job now T)).map (·.ID)) := by
  induction allocs generalizing acc with
  | nil => simp
  | cons alloc allocs ih =>
    rw [List.foldl_cons, ih]
    by_cases h : allocGCEligible alloc job now T = true
    · simp [scanAlloc, h]
    · simp [scanAlloc, h]

theorem gcScan_eq (job : Option Job) (allocs : List Allocation) :
    gcScan job now T allocs =
      (allocs.all (allocGCEligible · job now T),
        (allocs.filter (allocGCEligible · job now T)).map (·.ID)) := by
  simp [gcScan, foldl_scanAlloc]

@[simp] theorem mem_olderVersionTerminalAllocs {allocs : List Allocation} {job : Job} {id : String} :
    id ∈ olderVersionTerminalAllocs allocs job ↔
      ∃ a ∈ allocs, a.Job.CreateIndex < job.CreateIndex ∧ a.TerminalStatus = true ∧ a.ID = id := by
  simp [olderVersionTerminalAllocs, and_assoc]

theorem batchKept_job (h : batchKept s eval allowBatch = true) :
    ∃ job, s.JobByID eval.Namespace eval.JobID = some job := by
  cases hj : s.JobByID eval.Namespace eval.JobID with
  | none => simp [batchKept, hj, batchCollect] at h
  | some job => exact ⟨job, rfl⟩

/-- The three exits of `gcEval`: the refusal, the batch evaluation kept with the terminal
allocations of its job's older incarnations, and the scan. -/
theorem gcEval_cases (s : StateStore) (eval : Evaluation) (T : Nat) (allowBatch : Bool) (now : Time) :
    gcEval s eval T allowBatch now = (false, []) ∨
    eval.TerminalStatus = true ∧ eval.ModifyIndex ≤ T ∧
      ((batchKept s eval allowBatch = true ∧ ∃ job, s.JobByID eval.Namespace eval.JobID = some job ∧
          gcEval s eval T allowBatch now = (false, olderVersionTerminalAllocs (s.AllocsByEval eval.ID) job)) ∨
        (batchKept s eval allowBatch = false ∧
          gcEval s eval T allowBatch now =
            gcScan (s.JobByID eval.Namespace eval.JobID) now T (s.AllocsByEval eval.ID))) := by
  unfold gcEval
  split
  · exact .inl rfl
  · rename_i hnew
    simp only [Bool.or_eq_true, Bool.not_eq_true', decide_eq_true_eq, not_or, Bool.not_eq_false] at hnew
    refine .inr ⟨hnew.1, by omega, ?_⟩
    split
    · rename_i hkept
      obtain ⟨job, hjob⟩ := batchKept_job hkept
      exact .inl ⟨hkept, job, hjob, by simp [hjob]⟩
    · rename_i hkept
      exact .inr ⟨by simpa using hkept, rfl⟩

theorem gcEval_snd {id : String} (hid : id ∈ (gcEval s eval T allowBatch now).2) :
    ∃ a ∈ s.AllocsByEval eval.ID, a.ID = id ∧ a.TerminalStatus = true ∧
      (batchKept s eval allowBatch = false →
        allocGCEligible a (s.JobByID eval.Namespace eval.JobID) now T = true) := by
  rcases gcEval_cases s eval T allowBatch now with h | ⟨-, -, ⟨hk, job, -, h⟩ | ⟨-, h⟩⟩
  · simp [h] at hid
  · rw [h, mem_olderVersionTerminalAllocs] at hid
    obtain ⟨a, ha, -, ht, rfl⟩ := hid
    exact ⟨a, ha, rfl, ht, by simp [hk]⟩
  · rw [h, gcScan_eq] at hid
    simp only [List.mem_map, List.mem_filter] at hid
    obtain ⟨a, ⟨ha, he⟩, rfl⟩ := hid
    exact ⟨a, ha, rfl, (allocGCEligible_reapable he).1, fun _ => he⟩

theorem gcEval_fst (h : (gcEval s eval T allowBatch now).1 = true) :
    eval.TerminalStatus = true ∧ eval.ModifyIndex ≤ T ∧ batchKept s eval allowBatch = false ∧
      ∀ a ∈ s.AllocsByEval eval.ID,
        allocGCEligible a (s.JobByID eval.Namespace eval.JobID) now T = true ∧
          a.ID ∈ (gcEval s eval T allowBatch now).2 := by
  rcases gcEval_cases s eval T allowBatch now with he | ⟨ht, hm, ⟨-, _, -, he⟩ | ⟨hk, he⟩⟩
  · simp [he] at h
  · simp [he] at h
  · rw [he, gcScan_eq] at h ⊢
    simp only [List.all_eq_true] at h
    refine ⟨ht, hm, hk, fun a ha => ⟨h a ha, ?_⟩⟩
    exact List.mem_map.2 ⟨a, List.mem_filter.2 ⟨ha, h a ha⟩, rfl⟩

end Decisions

/-- Whichever exit `gcEval` takes, every allocation it hands back is a terminal allocation of
the evaluation; unless it keeps a batch evaluation, each is also reapable. -/
theorem gcEval_hands_back_terminal_allocs (s : StateStore) (eval : Evaluation) (T : Nat)
    (allowBatch : Bool) (now : Time) (id : String) (hid : id ∈ (gcEval s eval T allowBatch now).2) :
    ∃ a ∈ s.AllocsByEval eval.ID, a.ID = id ∧ a.TerminalStatus = true ∧
      (batchKept s eval allowBatch = false → Reapable T a) := by
  obtain ⟨a, hae, rfl, ht, helig⟩ := gcEval_snd hid
  exact ⟨a, hae, rfl, ht, fun hk => allocGCEligible_reapable (helig hk)⟩

theorem gcEval_hands_back_terminal_allocs_rerun :
    "a" ∈ (gcEval (gcSnapshot (batchJob 20 JobStatusRunning) (evalAlloc .stop .running 30))
        completeEval 10 false ⟨0⟩).2 ∧
      ∃ a ∈ (gcSnapshot (batchJob 20 JobStatusRunning) (evalAlloc .stop .running 30)).AllocsByEval "e",
        a.ID = "a" ∧ a.TerminalStatus = true ∧
        (batchKept (gcSnapshot (batchJob 20 JobStatusRunning) (evalAlloc .stop .running 30))
          completeEval false = false → Reapable 10 a) :=
  have hid : "a" ∈ (gcEval (gcSnapshot (batchJob 20 JobStatusRunning) (evalAlloc .stop .running 30))
      completeEval 10 false ⟨0⟩).2 := by decide
  ⟨hid, gcEval_hands_back_terminal_allocs _ _ _ _ _ _ hid⟩

/-- An evaluation `gcEval` collects is terminal and not modified after the threshold, and every
one of its allocations is handed back and reapable. -/
theorem gcEval_collects_whole_evaluation (s : StateStore) (eval : Evaluation) (T : Nat)
    (allowBatch : Bool) (now : Time) (h : (gcEval s eval T allowBatch now).1 = true) :
    eval.TerminalStatus = true ∧ eval.ModifyIndex ≤ T ∧
      ∀ a ∈ s.AllocsByEval eval.ID, a.ID ∈ (gcEval s eval T allowBatch now).2 ∧ Reapable T a := by
  obtain ⟨ht, hm, -, hall⟩ := gcEval_fst h
  exact ⟨ht, hm, fun a ha => ⟨(hall a ha).2, allocGCEligible_reapable (hall a ha).1⟩⟩

/-- The job is dead and the evaluation's one allocation complete: `gcEval` collects both. -/
theorem gcEval_collects_whole_evaluation_dead :
    (gcEval (gcSnapshot (batchJob 10 JobStatusDead) (evalAlloc .run .complete 5)) completeEval
        10 true ⟨0⟩).1 = true ∧
      completeEval.TerminalStatus = true ∧ completeEval.ModifyIndex ≤ 10 ∧
      ∀ a ∈ (gcSnapshot (batchJob 10 JobStatusDead) (evalAlloc .run .complete 5)).AllocsByEval
          completeEval.ID,
        a.ID ∈ (gcEval (gcSnapshot (batchJob 10 JobStatusDead) (evalAlloc .run .complete 5))
          completeEval 10 true ⟨0⟩).2 ∧ Reapable 10 a :=
  have h : (gcEval (gcSnapshot (batchJob 10 JobStatusDead) (evalAlloc .run .complete 5))
      completeEval 10 true ⟨0⟩).1 = true := by decide
  ⟨h, gcEval_collects_whole_evaluation _ _ _ _ _ h⟩

-- ---------------------------------------------------------------------------
-- The collectors
-- ---------------------------------------------------------------------------

/-- What a reap of the snapshot `s` keeps: every allocation is one of the store that satisfies
`P`, every evaluation goes with all of its allocations, and every job with all of its
evaluations. -/
structure SafeReap (s : StateStore) (P : Allocation → Prop) (r : Reap) : Prop where
  allocs : ∀ id ∈ r.allocs, ∃ a ∈ s.allocs.vals, a.ID = id ∧ P a
  evals : ∀ eid ∈ r.evals, ∀ a ∈ s.AllocsByEval eid, a.ID ∈ r.allocs
  jobs : ∀ job ∈ r.jobs, ∀ e ∈ s.EvalsByJob job.Namespace job.ID, e.ID ∈ r.evals

section Collectors

variable {s : StateStore} {P : Allocation → Prop} {T : Nat} {now : Time}

theorem SafeReap.empty : SafeReap s P {} := ⟨by simp, by simp, by simp⟩

theorem SafeReap.append {r : Reap} (hr : SafeReap s P r) {as es : List String} {js : List Job}
    (ha : ∀ id ∈ as, ∃ a ∈ s.allocs.vals, a.ID = id ∧ P a)
    (he : ∀ eid ∈ es, ∀ a ∈ s.AllocsByEval eid, a.ID ∈ as)
    (hj : ∀ job ∈ js, ∀ e ∈ s.EvalsByJob job.Namespace job.ID, e.ID ∈ es) :
    SafeReap s P { evals := r.evals ++ es, allocs := r.allocs ++ as, jobs := r.jobs ++ js } := by
  refine ⟨?_, ?_, ?_⟩
  · intro id hid
    rcases List.mem_append.1 hid with hid | hid
    · exact hr.allocs id hid
    · exact ha id hid
  · intro eid heid a hae
    rcases List.mem_append.1 heid with heid | heid
    · exact List.mem_append_left _ (hr.evals eid heid a hae)
    · exact List.mem_append_right _ (he eid heid a hae)
  · intro job hjob e hej
    rcases List.mem_append.1 hjob with hjob | hjob
    · exact List.mem_append_left _ (hr.jobs job hjob e hej)
    · exact List.mem_append_right _ (hj job hjob e hej)

theorem jobEvalsGC_spec {evals : List Evaluation} {as es : List String}
    (h : jobEvalsGC s T now evals = some (as, es)) :
    (∀ id ∈ as, ∃ a ∈ s.allocs.vals, a.ID = id ∧ Reapable T a) ∧
      (∀ eid ∈ es, ∀ a ∈ s.AllocsByEval eid, a.ID ∈ as) ∧ ∀ e ∈ evals, e.ID ∈ es := by
  induction evals generalizing as es with
  | nil =>
    simp only [jobEvalsGC, Option.some.injEq, Prod.mk.injEq] at h
    obtain ⟨rfl, rfl⟩ := h
    simp
  | cons eval evals ih =>
    simp only [jobEvalsGC] at h
    split at h
    · rename_i hgc
      obtain ⟨⟨as', es'⟩, hrest, hr⟩ := Option.map_eq_some_iff.1 h
      simp only [Prod.mk.injEq] at hr
      obtain ⟨rfl, rfl⟩ := hr
      obtain ⟨ha, he, hm⟩ := ih hrest
      obtain ⟨-, -, hk, hall⟩ := gcEval_fst hgc
      refine ⟨?_, ?_, ?_⟩
      · intro id hid
        rcases List.mem_append.1 hid with hid | hid
        · obtain ⟨a, hae, rfl, -, helig⟩ := gcEval_snd hid
          exact ⟨a, ((StateStore.mem_allocsByEval s).1 hae).1, rfl, allocGCEligible_reapable (helig hk)⟩
        · exact ha id hid
      · intro eid heid a hae
        rcases List.mem_cons.1 heid with rfl | heid
        · exact List.mem_append_left _ (hall a hae).2
        · exact List.mem_append_right _ (he eid heid a hae)
      · intro e hee
        rcases List.mem_cons.1 hee with rfl | hee
        · exact List.mem_cons_self
        · exact List.mem_cons_of_mem _ (hm e hee)
    · contradiction

theorem SafeReap.jobStep {r : Reap} (hr : SafeReap s (Reapable T) r) (job : Job) :
    SafeReap s (Reapable T) (jobGCStep s T now r job) := by
  unfold jobGCStep
  split
  · exact hr
  · split
    · exact hr
    · rename_i hj
      obtain ⟨ha, he, hm⟩ := jobEvalsGC_spec hj
      refine hr.append ha he ?_
      intro job' hjob e hej
      rw [List.mem_singleton] at hjob
      subst hjob
      exact hm e hej

theorem evalGCStep_eq (r : Reap) (eval : Evaluation) :
    evalGCStep s T now r eval =
      { evals := r.evals ++ (if (gcEval s eval T false now).1 then [eval.ID] else []),
        allocs := r.allocs ++ (gcEval s eval T false now).2, jobs := r.jobs ++ [] } := by
  by_cases hgc : (gcEval s eval T false now).1 = true <;> simp [evalGCStep, hgc]

theorem SafeReap.evalStep {r : Reap} (hr : SafeReap s (·.TerminalStatus = true) r)
    (eval : Evaluation) : SafeReap s (·.TerminalStatus = true) (evalGCStep s T now r eval) := by
  rw [evalGCStep_eq]
  refine hr.append ?_ ?_ (by simp)
  · intro id hid
    obtain ⟨a, hae, rfl, ht, -⟩ := gcEval_snd hid
    exact ⟨a, ((StateStore.mem_allocsByEval s).1 hae).1, rfl, ht⟩
  · intro eid heid a hae
    by_cases hgc : (gcEval s eval T false now).1 = true
    · rw [if_pos hgc, List.mem_singleton] at heid
      subst heid
      exact ((gcEval_fst hgc).2.2.2 a hae).2
    · simp [hgc] at heid

theorem SafeReap.foldl_jobStep (jobs : List Job) {r : Reap} (hr : SafeReap s (Reapable T) r) :
    SafeReap s (Reapable T) (jobs.foldl (jobGCStep s T now) r) := by
  induction jobs generalizing r with
  | nil => exact hr
  | cons job jobs ih => exact ih (hr.jobStep job)

theorem SafeReap.foldl_evalStep (evals : List Evaluation) {r : Reap}
    (hr : SafeReap s (·.TerminalStatus = true) r) :
    SafeReap s (·.TerminalStatus = true) (evals.foldl (evalGCStep s T now) r) := by
  induction evals generalizing r with
  | nil => exact hr
  | cons eval evals ih => exact ih (hr.evalStep eval)

end Collectors

/-- `jobGC` reaps only reapable allocations, an evaluation only with all of its allocations, and
a job only with all the allocations of all of its evaluations. -/
theorem jobGC_reaps_only_reapable (s : StateStore) (T : Nat) (now : Time) :
    let r := jobGC s T now
    (∀ id ∈ r.allocs, ∃ a ∈ s.allocs.vals, a.ID = id ∧ Reapable T a) ∧
      (∀ eid ∈ r.evals, ∀ a ∈ s.AllocsByEval eid, a.ID ∈ r.allocs) ∧
      ∀ job ∈ r.jobs, ∀ e ∈ s.EvalsByJob job.Namespace job.ID, ∀ a ∈ s.AllocsByEval e.ID,
        a.ID ∈ r.allocs := by
  intro r
  have hr : SafeReap s (Reapable T) r := SafeReap.empty.foldl_jobStep (s.JobsByGC true)
  exact ⟨hr.allocs, hr.evals, fun job hj e he a ha => hr.evals e.ID (hr.jobs job hj e he) a ha⟩

/-- `evalGC` reaps only terminal allocations of the store, and an evaluation only with all of
its allocations. -/
theorem evalGC_reaps_whole_evaluations (s : StateStore) (T : Nat) (now : Time) :
    let r := evalGC s T now
    (∀ id ∈ r.allocs, ∃ a ∈ s.allocs.vals, a.ID = id ∧ a.TerminalStatus = true) ∧
      ∀ eid ∈ r.evals, ∀ a ∈ s.AllocsByEval eid, a.ID ∈ r.allocs := by
  intro r
  have hr : SafeReap s (·.TerminalStatus = true) r := SafeReap.empty.foldl_evalStep s.evals
  exact ⟨hr.allocs, hr.evals⟩

end Nomad.Server
