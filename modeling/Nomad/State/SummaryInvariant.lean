import Nomad.State.PlanResults

/-!
# Job summaries count the stored allocations

A job summary keeps, for each task group of the job, how many of its allocations are in each
client status. No write recounts them: `updateSummaryWithAlloc` moves the one allocation written
from the bin of the status it had to the bin of the one it gets, and a new allocation adds one to
the pending bin. This module proves that these increments keep every summary equal to a count of
the allocation table, over every run of the store's transactions from an empty store, and that
`ReconcileJobSummaries`, which recounts the summaries from the allocations, then finds the bins
they already had.

The increments rest on what a write does to an allocation, which is the scheduler's and the
clients' part, not the store's: `SummaryWrite` states it. A summary counts an allocation by its
job, the incarnation of that job (its create index, as `updateSummaryWithAlloc` compares), its
group and its status (`summaryKey`); `allocCount` counts the table by that key.
-/

namespace Nomad.State

open Go Container Structs

/-- What a summary counts an allocation by: its job, the incarnation of that job, its group and its
client status. -/
def summaryKey (a : Allocation) : String × String × Nat × String × AllocClientStatus :=
  (a.Namespace, a.JobID, a.Job.CreateIndex, a.TaskGroup, a.ClientStatus)

def keyCount (o : Option Allocation) (k : String × String × Nat × String × AllocClientStatus) : Int :=
  if o.map summaryKey = some k then 1 else 0

def summaryView (js : JobSummary) :
    String × String × Nat × (String → AllocClientStatus → Int) :=
  (js.Namespace, js.JobID, js.CreateIndex, js.bins)

-- ---------------------------------------------------------------------------
-- What the increments assume of a write
-- ---------------------------------------------------------------------------

/-- A new allocation starts pending, in a job the store has. -/
def NewAllocWrite (before : StateStore) (alloc : Allocation) : Prop :=
  alloc.ClientStatus = .pending ∧ (before.JobByID alloc.Namespace alloc.JobID).isSome

/-- An allocation written over `existing` keeps its job, the job's incarnation and its group; a
failed or complete one keeps its status, since the counters never take an allocation out of those
two bins. -/
def ReplaceAllocWrite (existing alloc : Allocation) : Prop :=
  existing.Namespace = alloc.Namespace ∧ existing.JobID = alloc.JobID ∧
    existing.Job.CreateIndex = alloc.Job.CreateIndex ∧ existing.TaskGroup = alloc.TaskGroup ∧
    (existing.ClientStatus = .failed ∨ existing.ClientStatus = .complete →
      alloc.ClientStatus = existing.ClientStatus)

def SummaryWrite (w : AllocWrite) : Prop :=
  match w.existing with
  | none => NewAllocWrite w.before w.alloc
  | some existing => ReplaceAllocWrite existing w.alloc

instance (before : StateStore) (alloc : Allocation) : Decidable (NewAllocWrite before alloc) :=
  inferInstanceAs (Decidable (alloc.ClientStatus = .pending ∧
    (before.JobByID alloc.Namespace alloc.JobID).isSome))

instance (existing alloc : Allocation) : Decidable (ReplaceAllocWrite existing alloc) :=
  inferInstanceAs (Decidable (existing.Namespace = alloc.Namespace ∧ existing.JobID = alloc.JobID ∧
    existing.Job.CreateIndex = alloc.Job.CreateIndex ∧ existing.TaskGroup = alloc.TaskGroup ∧
    (existing.ClientStatus = .failed ∨ existing.ClientStatus = .complete →
      alloc.ClientStatus = existing.ClientStatus)))

instance (w : AllocWrite) : Decidable (SummaryWrite w) :=
  match w with
  | ⟨before, none, alloc⟩ => inferInstanceAs (Decidable (NewAllocWrite before alloc))
  | ⟨_, some existing, alloc⟩ => inferInstanceAs (Decidable (ReplaceAllocWrite existing alloc))

-- ---------------------------------------------------------------------------
-- The counters of one task group
-- ---------------------------------------------------------------------------

theorem TaskGroupSummary.bin_decr (t : TaskGroupSummary) {st : AllocClientStatus}
    (hst : st ≠ .failed ∧ st ≠ .complete) (hpos : 0 < t.bin st) (st' : AllocClientStatus) :
    (t.decr st).bin st' = t.bin st' - if st' = st then 1 else 0 := by
  cases st <;> cases st' <;> simp_all [decr, bin]

theorem TaskGroupSummary.withAlloc_snd (t : TaskGroupSummary) (alloc : Allocation)
    (existing : Option Allocation) :
    (t.withAlloc alloc existing).2 = true ↔
      existing.elim (alloc.ClientStatus = .pending) (·.ClientStatus ≠ alloc.ClientStatus) := by
  cases existing with
  | none =>
    simp only [withAlloc, Option.elim_none]
    cases alloc.ClientStatus <;> simp
  | some e =>
    simp only [withAlloc, Option.elim_some]
    split_ifs with h <;> simp [h]

theorem TaskGroupSummary.bin_withAlloc (t : TaskGroupSummary) (alloc : Allocation)
    (existing : Option Allocation) (hnew : existing = none → alloc.ClientStatus = .pending)
    (hold : ∀ e, existing = some e → e.ClientStatus ≠ alloc.ClientStatus →
      e.ClientStatus ≠ .failed ∧ e.ClientStatus ≠ .complete ∧ 0 < t.bin e.ClientStatus)
    (st : AllocClientStatus) :
    (t.withAlloc alloc existing).1.bin st =
      t.bin st + (if st = alloc.ClientStatus then 1 else 0) -
        (existing.map fun e => if st = e.ClientStatus then 1 else 0).getD 0 := by
  cases existing with
  | none =>
    have hp := hnew rfl
    simp only [withAlloc, hp, Option.map_none, Option.getD_none, sub_zero]
    cases st <;> simp [bin]
  | some e =>
    simp only [withAlloc, Option.map_some, Option.getD_some]
    by_cases hne : e.ClientStatus = alloc.ClientStatus
    · rw [if_neg (not_not.mpr hne), hne]
      dsimp only
      split_ifs <;> omega
    · -- the replaced allocation is counted in its bin, which the new status does not touch
      obtain ⟨hf, hc, hpos⟩ := hold e rfl hne
      have hpos' : 0 < (t.incr alloc.ClientStatus).bin e.ClientStatus := by
        rw [bin_incr, if_neg hne]
        omega
      rw [if_pos hne]
      dsimp only
      rw [bin_decr _ ⟨hf, hc⟩ hpos', bin_incr]

theorem JobSummary.bins_insert (js : JobSummary) (g : String) (v : TaskGroupSummary) (index : Nat)
    (tg : String) (st : AllocClientStatus) :
    ({ js with Summary := js.Summary.insert g v, ModifyIndex := index } : JobSummary).bins tg st =
      if tg = g then v.bin st else js.bins tg st := by
  unfold JobSummary.bins
  split_ifs with h
  · rw [h, AList.lookup_insert]
    rfl
  · rw [AList.lookup_insert_ne h]

theorem keyCount_some (a : Allocation) (ns id : String) (ci : Nat) (tg : String) (st : AllocClientStatus) :
    keyCount (some a) (ns, id, ci, tg, st) =
      if a.Namespace = ns ∧ a.JobID = id ∧ a.Job.CreateIndex = ci ∧ a.TaskGroup = tg ∧ a.ClientStatus = st
      then 1 else 0 := by
  simp [keyCount, summaryKey]

theorem keyCount_write_of_ne {b : StateStore} {existing : Option Allocation} {alloc : Allocation}
    (hw : SummaryWrite ⟨b, existing, alloc⟩) {ns id : String} {ci : Nat} {tg : String}
    (hne : ¬ (alloc.Namespace = ns ∧ alloc.JobID = id ∧ alloc.Job.CreateIndex = ci ∧ alloc.TaskGroup = tg))
    (st : AllocClientStatus) :
    keyCount (some alloc) (ns, id, ci, tg, st) = 0 ∧ keyCount existing (ns, id, ci, tg, st) = 0 := by
  refine ⟨?_, ?_⟩
  · rw [keyCount_some, if_neg (fun h => hne ⟨h.1, h.2.1, h.2.2.1, h.2.2.2.1⟩)]
  · cases existing with
    | none => rfl
    | some e =>
      obtain ⟨h1, h2, h3, h4, -⟩ : ReplaceAllocWrite e alloc := hw
      rw [keyCount_some, if_neg (fun h => hne ⟨h1 ▸ h.1, h2 ▸ h.2.1, h3 ▸ h.2.2.1, h4 ▸ h.2.2.2.1⟩)]

namespace StateStore

def allocCount (s : StateStore) (k : String × String × Nat × String × AllocClientStatus) : Int :=
  (s.allocs.vals.countP fun a => summaryKey a = k : Nat)

/-- The invariant of the summaries. Each summary is stored under its job's key, belongs to the
registered incarnation of the job, and counts the stored allocations of that incarnation; each
registered job has a summary, and each stored allocation a registered job. -/
structure SumInv (s : StateStore) : Prop where
  allocs_keyed : ∀ k a, s.allocs.lookup k = some a → a.ID = k
  jobs_keyed : Table.Keyed jobKey s.jobs
  summaries_keyed : ∀ k js, s.jobSummaries.lookup k = some js → (js.Namespace, js.JobID) = k
  summary_job : ∀ ns id js, s.jobSummaries.lookup (ns, id) = some js →
    ∃ job, s.JobByID ns id = some job ∧ job.CreateIndex = js.CreateIndex
  job_summary : ∀ ns id, (s.JobByID ns id).isSome → (s.jobSummaries.lookup (ns, id)).isSome
  alloc_job : ∀ a ∈ s.allocs.vals, (s.JobByID a.Namespace a.JobID).isSome
  counts : ∀ ns id js, s.jobSummaries.lookup (ns, id) = some js →
    ∀ tg st, js.bins tg st = s.allocCount (ns, id, js.CreateIndex, tg, st)

theorem sumInv_empty : SumInv {} where
  allocs_keyed _ _ h := by cases h
  jobs_keyed := List.nodup_nil
  summaries_keyed _ _ h := by cases h
  summary_job _ _ _ h := by cases h
  job_summary _ _ h := by cases h
  alloc_job _ h := by cases h
  counts _ _ _ h := by cases h

/-- `t` agrees with `s` on everything the summaries are about: the same allocations, the same
incarnation of each job, and the same summaries up to what they do not count. -/
structure SameCounts (s t : StateStore) : Prop where
  allocs : t.allocs = s.allocs
  jobs : ∀ ns id, (t.JobByID ns id).map (·.CreateIndex) = (s.JobByID ns id).map (·.CreateIndex)
  jobs_keyed : Table.Keyed jobKey s.jobs → Table.Keyed jobKey t.jobs
  summaries : ∀ k, (t.jobSummaries.lookup k).map summaryView = (s.jobSummaries.lookup k).map summaryView

variable {s t u : StateStore} {index : Nat}

-- ---------------------------------------------------------------------------
-- Counting the allocation table
-- ---------------------------------------------------------------------------

def countBy {β : Type} [DecidableEq β] (f : Allocation → β) (s : StateStore) (k : β) : Int :=
  (s.allocs.vals.countP fun a => f a = k : Nat)

def countOne {β : Type} [DecidableEq β] (f : Allocation → β) (o : Option Allocation) (k : β) : Int :=
  if o.map f = some k then 1 else 0

/-- An allocation write changes a count by the allocation written, less the one it replaces. -/
theorem countBy_insertAlloc {β : Type} [DecidableEq β] (f : Allocation → β) (s : StateStore)
    (a : Allocation) (k : β) :
    countBy f (s.insertAlloc a) k = countBy f s k + countOne f (some a) k -
      countOne f (s.allocs.lookup a.ID) k := by
  have h := Map.countP_vals_insert (fun x => decide (f x = k)) s.allocs a.ID a
  unfold countBy countOne
  rw [insertAlloc_allocs]
  cases hl : s.allocs.lookup a.ID with
  | none =>
    rw [hl, Option.map_none, Option.getD_none, Nat.add_zero] at h
    rw [h]
    by_cases hk : f a = k <;> simp [hk]
  | some o =>
    rw [hl, Option.map_some, Option.getD_some] at h
    by_cases hk : f a = k <;> by_cases ho : f o = k <;> simp [hk, ho] at h ⊢ <;>
      omega

theorem allocCount_insertAlloc (s : StateStore) (a : Allocation) (k) :
    (s.insertAlloc a).allocCount k = s.allocCount k + keyCount (some a) k -
      keyCount (s.allocs.lookup a.ID) k :=
  countBy_insertAlloc summaryKey s a k

theorem allocCount_insertAlloc_of_key {a o : Allocation} (ho : s.allocs.lookup a.ID = some o)
    (hk : summaryKey o = summaryKey a) (k) : (s.insertAlloc a).allocCount k = s.allocCount k := by
  rw [allocCount_insertAlloc, ho]
  simp [keyCount, hk]

theorem allocCount_of_jobByID_none (hs : SumInv s) {ns id : String} (hj : s.JobByID ns id = none)
    (ci tg st) : s.allocCount (ns, id, ci, tg, st) = 0 := by
  unfold allocCount
  rw [List.countP_eq_zero.mpr, Nat.cast_zero]
  intro a ha hk
  have hka : a.Namespace = ns ∧ a.JobID = id := by
    simp only [summaryKey, decide_eq_true_eq, Prod.mk.injEq] at hk
    exact ⟨hk.1, hk.2.1⟩
  have := hs.alloc_job a ha
  rw [hka.1, hka.2, hj] at this
  cases this

-- ---------------------------------------------------------------------------
-- Writes that keep what the summaries count
-- ---------------------------------------------------------------------------

namespace SameCounts

theorem refl (s : StateStore) : SameCounts s s := ⟨rfl, fun _ _ => rfl, id, fun _ => rfl⟩

theorem trans (h₁ : SameCounts s t) (h₂ : SameCounts t u) : SameCounts s u :=
  ⟨h₂.allocs.trans h₁.allocs, fun ns id => (h₂.jobs ns id).trans (h₁.jobs ns id),
    h₂.jobs_keyed ∘ h₁.jobs_keyed, fun k => (h₂.summaries k).trans (h₁.summaries k)⟩

theorem of_eq (ha : t.allocs = s.allocs) (hj : t.jobs = s.jobs) (hjs : t.jobSummaries = s.jobSummaries) :
    SameCounts s t :=
  ⟨ha, fun ns id => by simp only [JobByID, hj], fun h => hj ▸ h, fun k => by rw [hjs]⟩

theorem summary_of (h : SameCounts s t) {k : String × String} {js : JobSummary}
    (ht : t.jobSummaries.lookup k = some js) :
    ∃ js₀, s.jobSummaries.lookup k = some js₀ ∧ summaryView js₀ = summaryView js := by
  have hk := h.summaries k
  rw [ht] at hk
  cases hs : s.jobSummaries.lookup k with
  | none => rw [hs] at hk; cases hk
  | some js₀ =>
    rw [hs] at hk
    exact ⟨js₀, rfl, (Option.some.inj hk).symm⟩

theorem isSome_summary (h : SameCounts s t) (k : String × String) :
    (t.jobSummaries.lookup k).isSome = (s.jobSummaries.lookup k).isSome := by
  rw [← Option.isSome_map (f := summaryView), h.summaries k, Option.isSome_map]

theorem isSome_job (h : SameCounts s t) (ns id : String) :
    (t.JobByID ns id).isSome = (s.JobByID ns id).isSome := by
  rw [← Option.isSome_map (f := (·.CreateIndex)), h.jobs ns id, Option.isSome_map]

theorem sumInv (hs : SumInv s) (h : SameCounts s t) : SumInv t where
  allocs_keyed k a ha := hs.allocs_keyed k a (h.allocs ▸ ha)
  jobs_keyed := h.jobs_keyed hs.jobs_keyed
  summaries_keyed k js ht := by
    obtain ⟨js₀, hs₀, hv⟩ := h.summary_of ht
    have := hs.summaries_keyed k js₀ hs₀
    simp only [summaryView, Prod.mk.injEq] at hv
    rw [← hv.1, ← hv.2.1]
    exact this
  summary_job ns id js ht := by
    obtain ⟨js₀, hs₀, hv⟩ := h.summary_of ht
    obtain ⟨job, hj, hci⟩ := hs.summary_job ns id js₀ hs₀
    have hjt := h.jobs ns id
    rw [hj] at hjt
    cases ht' : t.JobByID ns id with
    | none => rw [ht'] at hjt; cases hjt
    | some job' =>
      rw [ht'] at hjt
      simp only [summaryView, Prod.mk.injEq] at hv
      exact ⟨job', rfl, (Option.some.inj hjt).trans (hci.trans hv.2.2.1)⟩
  job_summary ns id hj := by
    rw [h.isSome_summary]
    exact hs.job_summary ns id (by rwa [← h.isSome_job])
  alloc_job a ha := by
    rw [h.isSome_job]
    exact hs.alloc_job a (h.allocs ▸ ha)
  counts ns id js ht tg st := by
    obtain ⟨js₀, hs₀, hv⟩ := h.summary_of ht
    simp only [summaryView, Prod.mk.injEq] at hv
    have hc := hs.counts ns id js₀ hs₀ tg st
    rw [← hv.2.2.2, ← hv.2.2.1, hc]
    unfold allocCount
    rw [h.allocs]

end SameCounts

theorem SumInv.lookup_self (hs : SumInv s) {k : String × String} {js : JobSummary}
    (h : s.jobSummaries.lookup k = some js) : s.jobSummaries.lookup (js.Namespace, js.JobID) = some js := by
  rw [hs.summaries_keyed k js h]
  exact h

theorem jobByID_key {ns id : String} {job : Job} (h : s.JobByID ns id = some job) :
    job.Namespace = ns ∧ job.ID = id := by
  rw [jobByID_eq_lookup] at h
  simpa [jobKey] using (Table.lookup_eq_some h).2

theorem jobByID_of_jobs (h : t.jobs = s.jobs) (ns id : String) : t.JobByID ns id = s.JobByID ns id := by
  unfold JobByID
  rw [h]

theorem summaryView_of_bins {js js₀ : JobSummary} (h : js = { js₀ with Summary := js.Summary })
    (hb : ∀ tg st, js.bins tg st = js₀.bins tg st) (index : Nat) :
    summaryView { js with ModifyIndex := index } = summaryView js₀ := by
  have hns := congrArg JobSummary.Namespace h
  have hid := congrArg JobSummary.JobID h
  have hci := congrArg JobSummary.CreateIndex h
  simp only [summaryView, Prod.mk.injEq] at hns hid hci ⊢
  exact ⟨hns, hid, hci, funext fun tg => funext fun st => hb tg st⟩

-- ---------------------------------------------------------------------------
-- Job, summary and evaluation writes
-- ---------------------------------------------------------------------------

theorem sameCounts_insertEval (e : Evaluation) : SameCounts s (s.insertEval e) := .of_eq rfl rfl rfl

theorem sameCounts_insertDeployment (d : Deployment) : SameCounts s (s.insertDeployment d) :=
  .of_eq rfl rfl rfl

theorem sameCounts_upsertJobVersion (job : Job) : SameCounts s (s.upsertJobVersion job) :=
  .of_eq (upsertJobVersion_allocs job) (upsertJobVersion_jobs job) (upsertJobVersion_jobSummaries job)

theorem sameCounts_insertJob {j old : Job} (hj : s.JobByID j.Namespace j.ID = some old)
    (hci : old.CreateIndex = j.CreateIndex) : SameCounts s (s.insertJob j) where
  allocs := rfl
  jobs ns id := by
    rw [jobByID_insertJob]
    split_ifs with h
    · obtain ⟨rfl, rfl⟩ := Prod.mk.inj h
      rw [hj]
      simp [hci]
    · rfl
  jobs_keyed h := Table.keyed_insert h j
  summaries _ := rfl

theorem sameCounts_insertSummary {js : JobSummary} (js₀ : JobSummary)
    (h₀ : s.jobSummaries.lookup (js₀.Namespace, js₀.JobID) = some js₀)
    (hv : summaryView js = summaryView js₀) : SameCounts s (s.insertSummary js) where
  allocs := rfl
  jobs _ _ := rfl
  jobs_keyed := id
  summaries k := by
    have hkey : (js.Namespace, js.JobID) = (js₀.Namespace, js₀.JobID) := by
      simp only [summaryView, Prod.mk.injEq] at hv
      rw [hv.1, hv.2.1]
    rw [insertSummary_jobSummaries, hkey]
    by_cases hk : k = (js₀.Namespace, js₀.JobID)
    · rw [hk, AList.lookup_insert, h₀, Option.map_some, Option.map_some, hv]
    · rw [AList.lookup_insert_ne hk]

theorem sameCounts_setJobStatus (hs : SumInv s) {job : Job} (hj : s.JobByID job.Namespace job.ID = some job)
    {evalDelete : Bool} {forceStatus : String} (h : s.setJobStatus index job evalDelete forceStatus = .ok t) :
    SameCounts s t := by
  rcases setJobStatus_cases h with rfl | ⟨status, rfl | ⟨js, children, hjs, rfl⟩⟩
  · exact .refl _
  · exact sameCounts_insertJob hj rfl
  · have h₁ : SameCounts s (s.insertJob { job with Status := status, ModifyIndex := index }) :=
      sameCounts_insertJob hj rfl
    refine h₁.trans (sameCounts_insertSummary js ?_ rfl)
    exact hs.lookup_self hjs

theorem sameCounts_setJobStatuses (hs : SumInv s) {jobs : Map NamespacedID String} {evalDelete : Bool}
    (h : s.setJobStatuses index jobs evalDelete = .ok t) : SameCounts s t := by
  unfold setJobStatuses at h
  refine foldlM_invariant (SameCounts s) (fun u e u' hu hstep => hu.trans ?_) _ (.refl s) h
  rcases setJobStatusOf_cases hstep with rfl | ⟨job, hj, hjob⟩
  · exact .refl _
  · -- the job is read from the store, so it is stored under its own key
    obtain ⟨hns, hid⟩ := jobByID_key hj
    rw [← hns, ← hid] at hj
    exact sameCounts_setJobStatus (hu.sumInv hs) hj hjob

theorem sameCounts_updateSummaryWithJob (hs : SumInv s) {job : Job}
    (hsum : (s.jobSummaries.lookup (job.Namespace, job.ID)).isSome) :
    SameCounts s (s.updateSummaryWithJob index job) := by
  rcases updateSummaryWithJob_cases s index job with h | ⟨js₀, hjs₀, h⟩ | ⟨hnone, -⟩
  · rw [h]
    exact .refl s
  · rw [h]
    exact sameCounts_insertSummary js₀ (hs.lookup_self hjs₀) (summaryView_of_bins
      (addTaskGroupSummaries_fst (js₀, false) job.TaskGroups)
      (bins_addTaskGroupSummaries (js₀, false) job.TaskGroups) index)
  · rw [hnone] at hsum
    cases hsum

theorem sameCounts_nestedUpsertEval (hs : SumInv s) (eval : Evaluation) :
    SameCounts s (s.nestedUpsertEval index eval) := by
  obtain ⟨evals, h | ⟨js, hjs, h⟩⟩ := nestedUpsertEval_cases s index eval <;> rw [h]
  · exact .of_eq rfl rfl rfl
  · -- only the queued counts of the job's summary change
    obtain ⟨hfst, hbins⟩ := setQueued_fst (js, false) eval.QueuedAllocations.entries
    exact (sameCounts_insertSummary js (hs.lookup_self hjs) (summaryView_of_bins hfst hbins index)).trans
      (.of_eq rfl rfl rfl)

theorem sameCounts_foldl_nestedUpsertEval (hs : SumInv s) (index : Nat) (evals : List Evaluation) :
    SameCounts s (evals.foldl (fun t eval => t.nestedUpsertEval index eval) s) :=
  foldl_invariant (SameCounts s) evals
    (fun _ eval _ hu => hu.trans (sameCounts_nestedUpsertEval (hu.sumInv hs) eval)) (.refl s)

theorem sameCounts_UpsertEvals (hs : SumInv s) {evals : List Evaluation}
    (h : s.UpsertEvals index evals = .ok t) : SameCounts s t := by
  rw [UpsertEvals_eq] at h
  have h₁ := sameCounts_foldl_nestedUpsertEval hs index evals
  exact h₁.trans (sameCounts_setJobStatuses (h₁.sumInv hs) (mapError_eq_ok.mp h))

-- ---------------------------------------------------------------------------
-- Registering a job
-- ---------------------------------------------------------------------------

theorem setJobStatus_views (hs : SumInv s) {job : Job} {evalDelete : Bool} {forceStatus : String}
    (h : s.setJobStatus index job evalDelete forceStatus = .ok t) :
    t.allocs = s.allocs ∧ Table.Keyed jobKey t.jobs ∧
      (∀ ns id, (job.Namespace, job.ID) ≠ (ns, id) → t.JobByID ns id = s.JobByID ns id) ∧
      ∀ k, (t.jobSummaries.lookup k).map summaryView = (s.jobSummaries.lookup k).map summaryView := by
  -- the job write alone
  have hjob : ∀ status : String,
      Table.Keyed jobKey (s.insertJob { job with Status := status, ModifyIndex := index }).jobs ∧
      ∀ ns id, (job.Namespace, job.ID) ≠ (ns, id) →
        (s.insertJob { job with Status := status, ModifyIndex := index }).JobByID ns id = s.JobByID ns id :=
    fun _ => ⟨Table.keyed_insert hs.jobs_keyed _, fun ns id hne => by rw [jobByID_insertJob, if_neg hne]⟩
  rcases setJobStatus_cases h with rfl | ⟨status, rfl | ⟨js, children, hjs, rfl⟩⟩
  · exact ⟨rfl, hs.jobs_keyed, fun _ _ _ => rfl, fun _ => rfl⟩
  · exact ⟨rfl, (hjob status).1, (hjob status).2, fun _ => rfl⟩
  · -- the parent's summary changes only in its children
    have hsum : SameCounts s (s.insertSummary { js with Children := some children, ModifyIndex := index }) :=
      sameCounts_insertSummary js (hs.lookup_self hjs) rfl
    exact ⟨rfl, (hjob status).1, (hjob status).2, hsum.summaries⟩

theorem sumInv_insertNewJob (hs : SumInv s) {j : Job} {js : JobSummary}
    (hnone : s.JobByID j.Namespace j.ID = none) (hkey : (js.Namespace, js.JobID) = (j.Namespace, j.ID))
    (hci : js.CreateIndex = j.CreateIndex) (hbins : ∀ tg st, js.bins tg st = 0) :
    SumInv ((s.insertSummary js).insertJob j) where
  allocs_keyed := hs.allocs_keyed
  jobs_keyed := Table.keyed_insert hs.jobs_keyed j
  summaries_keyed k js' h := by
    rw [insertJob_jobSummaries, insertSummary_jobSummaries, hkey] at h
    by_cases hk : k = (j.Namespace, j.ID)
    · rw [hk, AList.lookup_insert] at h
      cases h
      rw [hk, hkey]
    · rw [AList.lookup_insert_ne hk] at h
      exact hs.summaries_keyed k js' h
  summary_job ns id js' h := by
    rw [insertJob_jobSummaries, insertSummary_jobSummaries, hkey] at h
    rw [jobByID_insertJob, jobByID_insertSummary]
    by_cases hk : (j.Namespace, j.ID) = (ns, id)
    · rw [← hk, AList.lookup_insert] at h
      cases h
      exact ⟨j, if_pos hk, hci.symm⟩
    · rw [AList.lookup_insert_ne (Ne.symm hk)] at h
      rw [if_neg hk]
      exact hs.summary_job ns id js' h
  job_summary ns id h := by
    rw [insertJob_jobSummaries, insertSummary_jobSummaries, hkey]
    rw [jobByID_insertJob, jobByID_insertSummary] at h
    by_cases hk : (j.Namespace, j.ID) = (ns, id)
    · rw [← hk, AList.lookup_insert]
      rfl
    · rw [AList.lookup_insert_ne (Ne.symm hk)]
      rw [if_neg hk] at h
      exact hs.job_summary ns id h
  alloc_job a ha := by
    rw [jobByID_insertJob, jobByID_insertSummary]
    split_ifs
    · rfl
    · exact hs.alloc_job a ha
  counts ns id js' h tg st := by
    rw [insertJob_jobSummaries, insertSummary_jobSummaries, hkey] at h
    by_cases hk : (j.Namespace, j.ID) = (ns, id)
    · rw [← hk, AList.lookup_insert] at h
      cases h
      obtain ⟨rfl, rfl⟩ := Prod.mk.inj hk
      -- no allocation of a job the store did not have
      rw [hbins]
      exact (allocCount_of_jobByID_none hs hnone _ tg st).symm
    · rw [AList.lookup_insert_ne (Ne.symm hk)] at h
      exact hs.counts ns id js' h tg st

theorem newSummary_spec (job : Job) (index : Nat) :
    let js := { (addTaskGroupSummaries (newJobSummary job index, true) job.TaskGroups).1 with
      ModifyIndex := index }
    (js.Namespace, js.JobID) = (job.Namespace, job.ID) ∧ js.CreateIndex = index ∧
      ∀ tg st, js.bins tg st = 0 := by
  have hfst := addTaskGroupSummaries_fst (newJobSummary job index, true) job.TaskGroups
  refine ⟨?_, ?_, fun tg st => ?_⟩
  · rw [hfst]
    rfl
  · rw [hfst]
    rfl
  · -- the entries the loop adds are empty, and a new summary has none
    have hb := bins_addTaskGroupSummaries (newJobSummary job index, true) job.TaskGroups tg st
    exact hb.trans (by simp [JobSummary.bins, newJobSummary])

theorem sumInv_upsertJobImpl (hs : SumInv s) {job : Job} {keepVersion : Bool}
    (h : s.upsertJobImpl index job keepVersion = .ok t) : SumInv t := by
  obtain ⟨-, job', t₁, hp, rfl⟩ := upsertJobImpl_ok h
  obtain ⟨hns, hid, hcases⟩ := prepareJob_ok hp
  have hjobs : ∀ ns id,
      ((t₁.updateSummaryWithJob index job').upsertJobVersion job').JobByID ns id = t₁.JobByID ns id :=
    jobByID_of_jobs (by simp)
  rcases hcases with ⟨existing, hex, ht₁, hci⟩ | ⟨hnone, hci, hst⟩
  · -- a registered job keeps its incarnation, and its summary gains the groups it lacked
    rw [ht₁]
    rw [← hns, ← hid] at hex
    have hsum : (s.jobSummaries.lookup (job'.Namespace, job'.ID)).isSome :=
      hs.job_summary _ _ (by rw [hex]; rfl)
    have h₁ : SameCounts s (s.updateSummaryWithJob index job') := sameCounts_updateSummaryWithJob hs hsum
    have hj : ((s.updateSummaryWithJob index job').upsertJobVersion job').JobByID job'.Namespace job'.ID =
        some existing := by
      rw [← ht₁, hjobs, ht₁, hex]
    exact ((h₁.trans (sameCounts_upsertJobVersion job')).trans (sameCounts_insertJob hj hci.symm)).sumInv hs
  · -- a new job: its status write touches its own key and its parent's children, and it gets a
    -- summary with empty bins
    obtain ⟨hallocs, hkeyed, hother, hviews⟩ := setJobStatus_views hs hst
    have hnone' : s.JobByID job'.Namespace job'.ID = none := by
      rw [hns, hid]
      exact hnone
    have hs₀ : s.jobSummaries.lookup (job'.Namespace, job'.ID) = none := by
      cases hl : s.jobSummaries.lookup (job'.Namespace, job'.ID) with
      | none => rfl
      | some js =>
        obtain ⟨_, hj, -⟩ := hs.summary_job _ _ js hl
        rw [hnone'] at hj
        cases hj
    have ht₀ : t₁.jobSummaries.lookup (job'.Namespace, job'.ID) = none := by
      have hv := hviews (job'.Namespace, job'.ID)
      rw [hs₀, Option.map_none] at hv
      simpa using hv
    rw [updateSummaryWithJob_of_none ht₀] at hjobs ⊢
    obtain ⟨hkey, hci', hbins⟩ := newSummary_spec job' index
    have hinv := sumInv_insertNewJob hs hnone' hkey (hci'.trans hci.symm) hbins
    refine SameCounts.sumInv hinv ⟨?_, fun ns id => ?_, fun _ => ?_, fun k => ?_⟩
    · simpa using hallocs
    · rw [jobByID_insertJob, jobByID_insertJob]
      split_ifs with hk
      · rfl
      · rw [hjobs, jobByID_insertSummary, hother ns id (by rwa [hns, hid] at hk)]
    · exact Table.keyed_insert (by simpa using hkeyed) job'
    · simp only [insertJob_jobSummaries, upsertJobVersion_jobSummaries, insertSummary_jobSummaries]
      rw [hkey]
      by_cases hk : k = (job'.Namespace, job'.ID)
      · rw [hk, AList.lookup_insert, AList.lookup_insert]
      · rw [AList.lookup_insert_ne hk, AList.lookup_insert_ne hk, hviews k]

-- ---------------------------------------------------------------------------
-- Deployment writes
-- ---------------------------------------------------------------------------

theorem sumInv_updateJobStabilityImpl (hs : SumInv s) {ns jobID : String} {jobVersion : Nat}
    {stable : Bool} (h : s.updateJobStabilityImpl index ns jobID jobVersion stable = .ok t) : SumInv t := by
  rcases updateJobStabilityImpl_ok h with rfl | ⟨_, hj⟩
  · exact hs
  · exact sumInv_upsertJobImpl hs hj

theorem sumInv_upsertDeploymentImpl (hs : SumInv s) {deployment : Deployment}
    (h : s.upsertDeploymentImpl index deployment = .ok t) : SumInv t := by
  obtain ⟨_, rfl | ⟨-, hj⟩⟩ := upsertDeploymentImpl_ok h
  · exact (sameCounts_insertDeployment _).sumInv hs
  · exact sumInv_updateJobStabilityImpl ((sameCounts_insertDeployment _).sumInv hs) hj

/-- A deployment's status write keeps the invariant, whether it fails or not: `UpsertPlanResults`
commits what a failed one wrote. -/
theorem sumInv_updateDeploymentStatusImpl (hs : SumInv s) (u : DeploymentStatusUpdate) :
    SumInv (s.updateDeploymentStatusImpl index u).1 := by
  rcases updateDeploymentStatusImpl_fst s index u with h | ⟨_, -, -, h | ⟨-, h⟩⟩
  · rw [h]
    exact hs
  · rw [h]
    exact (sameCounts_insertDeployment _).sumInv hs
  · exact sumInv_updateJobStabilityImpl ((sameCounts_insertDeployment _).sumInv hs) h

theorem sumInv_upsertDeploymentUpdates (hs : SumInv s) (us : List DeploymentStatusUpdate) :
    SumInv (s.upsertDeploymentUpdates index us).1 := by
  induction us generalizing s with
  | nil => exact hs
  | cons u us ih =>
    have hu : SumInv (s.updateDeploymentStatusImpl index u).1 := sumInv_updateDeploymentStatusImpl hs u
    unfold upsertDeploymentUpdates
    split
    · rename_i t' heq
      rw [heq] at hu
      exact ih hu
    · exact hu

theorem sumInv_updateDeploymentWithAlloc (hs : SumInv s) {alloc : Allocation} {existing : Option Allocation}
    (h : s.updateDeploymentWithAlloc index alloc existing = .ok t) : SumInv t := by
  rcases updateDeploymentWithAlloc_ok h with rfl | ⟨_, _, -, -, -, -, hd⟩
  · exact hs
  · exact sumInv_upsertDeploymentImpl hs hd

-- ---------------------------------------------------------------------------
-- Allocation writes
-- ---------------------------------------------------------------------------

theorem allocCount_pos {a : Allocation} (ha : a ∈ s.allocs.vals) : 0 < s.allocCount (summaryKey a) := by
  have h : 0 < s.allocs.vals.countP (fun x => decide (summaryKey x = summaryKey a)) :=
    List.countP_pos_iff.mpr ⟨a, ha, by simp⟩
  unfold allocCount
  omega

theorem keyCount_write_self {b : StateStore} {existing : Option Allocation} {alloc : Allocation}
    (hw : SummaryWrite ⟨b, existing, alloc⟩) (st : AllocClientStatus) :
    keyCount (some alloc) (alloc.Namespace, alloc.JobID, alloc.Job.CreateIndex, alloc.TaskGroup, st) =
        (if st = alloc.ClientStatus then 1 else 0) ∧
      keyCount existing (alloc.Namespace, alloc.JobID, alloc.Job.CreateIndex, alloc.TaskGroup, st) =
        (existing.map fun e => if st = e.ClientStatus then 1 else 0).getD 0 := by
  refine ⟨by simp [keyCount_some, eq_comm], ?_⟩
  cases existing with
  | none => rfl
  | some e =>
    obtain ⟨h1, h2, h3, h4, -⟩ : ReplaceAllocWrite e alloc := hw
    simp [keyCount_some, h1, h2, h3, h4, eq_comm]

theorem SummaryWrite.job_isSome (hs : SumInv s) {b : StateStore} {existing : Option Allocation}
    {alloc : Allocation} (hw : SummaryWrite ⟨b, existing, alloc⟩)
    (hb : ∀ ns id, (b.JobByID ns id).isSome → (s.JobByID ns id).isSome)
    (hmem : ∀ e, existing = some e → e ∈ s.allocs.vals) : (s.JobByID alloc.Namespace alloc.JobID).isSome := by
  cases existing with
  | none => exact hb _ _ hw.2
  | some e =>
    -- the allocation replaced is stored, so its job is registered
    obtain ⟨h1, h2, -⟩ : ReplaceAllocWrite e alloc := hw
    rw [← h1, ← h2]
    exact hs.alloc_job e (hmem e rfl)

/-- The summaries after `updateSummaryWithAlloc`: each is one that was stored, of the same job and
incarnation, with its bins moved by the write. -/
theorem updateSummaryWithAlloc_bins (hs : SumInv s) {b : StateStore} {alloc : Allocation}
    {existing : Option Allocation} (hmem : ∀ e, existing = some e → e ∈ s.allocs.vals)
    (hw : SummaryWrite ⟨b, existing, alloc⟩)
    (h : s.updateSummaryWithAlloc index alloc existing = .ok t) {ns id : String} {js' : JobSummary}
    (ht : t.jobSummaries.lookup (ns, id) = some js') :
    ∃ js, s.jobSummaries.lookup (ns, id) = some js ∧
      (js'.Namespace, js'.JobID, js'.CreateIndex) = (js.Namespace, js.JobID, js.CreateIndex) ∧
      ∀ tg st, js'.bins tg st = js.bins tg st + keyCount (some alloc) (ns, id, js.CreateIndex, tg, st) -
        keyCount existing (ns, id, js.CreateIndex, tg, st) := by
  -- a summary of another job or incarnation: the write counts in none of its bins
  have hkeep : ∀ js : JobSummary,
      ¬ (alloc.Namespace = ns ∧ alloc.JobID = id ∧ alloc.Job.CreateIndex = js.CreateIndex) →
      ∀ tg st, js.bins tg st = js.bins tg st + keyCount (some alloc) (ns, id, js.CreateIndex, tg, st) -
        keyCount existing (ns, id, js.CreateIndex, tg, st) := by
    intro js hne tg st
    obtain ⟨h₁, h₂⟩ := keyCount_write_of_ne hw (fun h => hne ⟨h.1, h.2.1, h.2.2.1⟩) st
    rw [h₁, h₂]
    ring
  rcases updateSummaryWithAlloc_ok h with ⟨hnone, -, rfl⟩ |
    ⟨js, hjs, ⟨hci, rfl⟩ | ⟨hci, tgs, htgs, ⟨hch, rfl⟩ | ⟨hch, rfl⟩⟩⟩
  · -- no summary of the allocation's job
    refine ⟨js', ht, rfl, hkeep js' ?_⟩
    rintro ⟨rfl, rfl, -⟩
    rw [hnone] at ht
    cases ht
  · -- the summary of another incarnation of the job
    refine ⟨js', ht, rfl, hkeep js' ?_⟩
    rintro ⟨rfl, rfl, hc⟩
    rw [hjs] at ht
    cases ht
    exact hci hc.symm
  · -- no allocation moves: a replacement with the status it had
    refine ⟨js', ht, rfl, fun tg st => ?_⟩
    have hsame : keyCount (some alloc) (ns, id, js'.CreateIndex, tg, st) =
        keyCount existing (ns, id, js'.CreateIndex, tg, st) := by
      cases existing with
      | none =>
        -- a new allocation is pending, which counts
        have hc := (TaskGroupSummary.withAlloc_snd tgs alloc none).mpr hw.1
        rw [hch] at hc
        cases hc
      | some e =>
        have hst : e.ClientStatus = alloc.ClientStatus := by
          by_contra hne
          have hc := (TaskGroupSummary.withAlloc_snd tgs alloc (some e)).mpr hne
          rw [hch] at hc
          cases hc
        obtain ⟨h1, h2, h3, h4, -⟩ : ReplaceAllocWrite e alloc := hw
        have hkey : summaryKey e = summaryKey alloc := by
          simp only [summaryKey, h1, h2, h3, h4, hst]
        simp only [keyCount, Option.map_some, hkey]
    rw [hsame]
    ring
  · -- the write's own summary: the bins of its group move
    have hkey : (js.Namespace, js.JobID) = (alloc.Namespace, alloc.JobID) := hs.summaries_keyed _ js hjs
    change (s.jobSummaries.insert (js.Namespace, js.JobID) _).lookup (ns, id) = some js' at ht
    rw [hkey] at ht
    by_cases hk : (ns, id) = (alloc.Namespace, alloc.JobID)
    · obtain ⟨rfl, rfl⟩ := Prod.mk.inj hk
      rw [AList.lookup_insert] at ht
      cases ht
      refine ⟨js, hjs, rfl, fun tg st => ?_⟩
      rw [JobSummary.bins_insert]
      split_ifs with htg
      · subst htg
        -- the summary counts the replaced allocation in its bin, so that bin is positive
        have hbin : ∀ st, tgs.bin st = js.bins alloc.TaskGroup st := fun st => by
          simp [JobSummary.bins, htgs]
        have hold : ∀ e, existing = some e → e.ClientStatus ≠ alloc.ClientStatus →
            e.ClientStatus ≠ .failed ∧ e.ClientStatus ≠ .complete ∧ 0 < tgs.bin e.ClientStatus := by
          rintro e rfl hne
          obtain ⟨h1, h2, h3, h4, h5⟩ : ReplaceAllocWrite e alloc := hw
          have hfc : e.ClientStatus ≠ .failed ∧ e.ClientStatus ≠ .complete :=
            ⟨fun hf => hne (h5 (.inl hf)).symm, fun hc => hne (h5 (.inr hc)).symm⟩
          refine ⟨hfc.1, hfc.2, ?_⟩
          rw [hbin, hs.counts _ _ js hjs, hci, ← h1, ← h2, ← h3, ← h4]
          exact allocCount_pos (hmem e rfl)
        have hnew : existing = none → alloc.ClientStatus = .pending := by
          rintro rfl
          exact hw.1
        obtain ⟨hka, hke⟩ := keyCount_write_self hw st
        rw [TaskGroupSummary.bin_withAlloc tgs alloc existing hnew hold st, hbin, hci, hka, hke]
      · obtain ⟨h₁, h₂⟩ := keyCount_write_of_ne hw (fun h => htg h.2.2.2.symm) st
        rw [h₁, h₂]
        ring
    · rw [AList.lookup_insert_ne hk] at ht
      refine ⟨js', ht, rfl, hkeep js' ?_⟩
      rintro ⟨rfl, rfl, -⟩
      exact hk rfl

/-- The summary write of an allocation, then the allocation write: the invariant of the
counters. -/
theorem sumInv_writeAlloc (hs : SumInv s) {b : StateStore} {alloc : Allocation}
    {existing : Option Allocation} (h : s.updateSummaryWithAlloc index alloc existing = .ok t)
    (hex : s.allocs.lookup alloc.ID = existing) (hw : SummaryWrite ⟨b, existing, alloc⟩)
    (hjob : (s.JobByID alloc.Namespace alloc.JobID).isSome) : SumInv (t.insertAlloc alloc) := by
  have hmem : ∀ e, existing = some e → e ∈ s.allocs.vals := fun e he =>
    Map.mem_vals.mpr ⟨alloc.ID, hex.trans he⟩
  -- only the summaries change, and none of them goes
  have hframe : t.allocs = s.allocs ∧ t.jobs = s.jobs := by
    rcases updateSummaryWithAlloc_eq h with rfl | ⟨_, rfl⟩ <;> exact ⟨rfl, rfl⟩
  have hpresent : ∀ k, (s.jobSummaries.lookup k).isSome → (t.jobSummaries.lookup k).isSome := by
    rcases updateSummaryWithAlloc_eq h with rfl | ⟨js, rfl⟩
    · exact fun _ h => h
    · intro k hk
      rw [insertSummary_jobSummaries]
      by_cases hkk : k = (js.Namespace, js.JobID)
      · rw [hkk, AList.lookup_insert]
        rfl
      · rw [AList.lookup_insert_ne hkk]
        exact hk
  have hjobs : ∀ ns id, (t.insertAlloc alloc).JobByID ns id = s.JobByID ns id := fun ns id => by
    rw [jobByID_insertAlloc]
    exact jobByID_of_jobs hframe.2 ns id
  have hcount : ∀ k, (t.insertAlloc alloc).allocCount k =
      s.allocCount k + keyCount (some alloc) k - keyCount existing k := fun k => by
    rw [allocCount_insertAlloc, hframe.1, hex]
    unfold allocCount
    rw [hframe.1]
  refine ⟨fun k a ha => ?_, ?_, fun ⟨ns, id⟩ js' ht => ?_, fun ns id js' ht => ?_, fun ns id hj => ?_,
    fun a ha => ?_, fun ns id js' ht tg st => ?_⟩
  · rw [insertAlloc_allocs, hframe.1] at ha
    by_cases hk : k = alloc.ID
    · rw [hk, AList.lookup_insert] at ha
      cases ha
      exact hk.symm
    · rw [AList.lookup_insert_ne hk] at ha
      exact hs.allocs_keyed k a ha
  · show Table.Keyed jobKey t.jobs
    rw [hframe.2]
    exact hs.jobs_keyed
  · obtain ⟨js, hjs, hv, -⟩ := updateSummaryWithAlloc_bins hs hmem hw h ht
    simp only [Prod.mk.injEq] at hv
    rw [hv.1, hv.2.1]
    exact hs.summaries_keyed _ js hjs
  · obtain ⟨js, hjs, hv, -⟩ := updateSummaryWithAlloc_bins hs hmem hw h ht
    simp only [Prod.mk.injEq] at hv
    obtain ⟨job, hj, hci⟩ := hs.summary_job ns id js hjs
    exact ⟨job, (hjobs ns id).trans hj, hci.trans hv.2.2.symm⟩
  · rw [hjobs] at hj
    exact hpresent _ (hs.job_summary ns id hj)
  · rw [hjobs]
    rw [insertAlloc_allocs, hframe.1] at ha
    rcases Map.mem_vals_insert ha with rfl | ha
    · exact hjob
    · exact hs.alloc_job a ha
  · -- the bins moved by the write, against the count moved by it
    obtain ⟨js, hjs, hv, hbins⟩ := updateSummaryWithAlloc_bins hs hmem hw h ht
    simp only [Prod.mk.injEq] at hv
    rw [hbins tg st, hs.counts ns id js hjs tg st, hv.2.2, hcount]

theorem sumInv_insertAlloc_of_key (hs : SumInv s) {a o : Allocation} (ho : s.allocs.lookup a.ID = some o)
    (hk : summaryKey o = summaryKey a) : SumInv (s.insertAlloc a) where
  allocs_keyed k x hx := by
    rw [insertAlloc_allocs] at hx
    by_cases hka : k = a.ID
    · rw [hka, AList.lookup_insert] at hx
      cases hx
      exact hka.symm
    · rw [AList.lookup_insert_ne hka] at hx
      exact hs.allocs_keyed k x hx
  jobs_keyed := hs.jobs_keyed
  summaries_keyed := hs.summaries_keyed
  summary_job := hs.summary_job
  job_summary := hs.job_summary
  alloc_job x hx := by
    rw [jobByID_insertAlloc]
    rw [insertAlloc_allocs] at hx
    rcases Map.mem_vals_insert hx with rfl | hx
    · -- the allocation has the job of the one it replaces
      simp only [summaryKey, Prod.mk.injEq] at hk
      rw [← hk.1, ← hk.2.1]
      exact hs.alloc_job o (Map.mem_vals.mpr ⟨_, ho⟩)
    · exact hs.alloc_job x hx
  counts ns id js h tg st := by
    rw [hs.counts ns id js h tg st, allocCount_insertAlloc_of_key ho hk]

theorem sumInv_linkPrevious (hs : SumInv s) (alloc : Allocation) : SumInv (s.linkPrevious index alloc) := by
  rcases linkPrevious_cases s index alloc with h | ⟨prev, hprev, h⟩
  · rw [h]
    exact hs
  · -- the previous allocation is stored under its own ID
    rw [h]
    refine sumInv_insertAlloc_of_key hs (o := prev) ?_ rfl
    rw [← hs.allocs_keyed _ prev hprev] at hprev
    exact hprev

-- ---------------------------------------------------------------------------
-- Transactions
-- ---------------------------------------------------------------------------

theorem sumInv_upsertAlloc {acc acc' : StateStore × Map NamespacedID String × List AllocWrite}
    {input : AllocInput} (hs : SumInv acc.1) (h : upsertAlloc index acc input = .ok acc')
    (hw : ∀ w ∈ acc'.2.2, SummaryWrite w) : SumInv acc'.1 := by
  obtain ⟨alloc, t₁, t₂, -, hid, h₁, h₂, h₃, hlog⟩ := upsertAlloc_ok h
  have hw' : SummaryWrite ⟨acc.1, acc.1.allocs.lookup input.alloc.ID, alloc⟩ :=
    hw _ (by rw [hlog]; exact List.mem_append_right _ (List.mem_singleton_self _))
  -- the deployment write before it keeps the allocations and the jobs
  have hs₁ := sumInv_updateDeploymentWithAlloc hs h₁
  obtain ⟨hallocs, hkept⟩ := updateDeploymentWithAlloc_kept h₁
  have hex : t₁.allocs.lookup alloc.ID = acc.1.allocs.lookup input.alloc.ID := by rw [hallocs, hid]
  have hmem : ∀ e, acc.1.allocs.lookup input.alloc.ID = some e → e ∈ t₁.allocs.vals := fun e he =>
    Map.mem_vals.mpr ⟨alloc.ID, hex.trans he⟩
  have hjob := SummaryWrite.job_isSome hs₁ hw' hkept hmem
  rw [h₃]
  exact sumInv_linkPrevious (sumInv_writeAlloc hs₁ h₂ hex hw' hjob) alloc

theorem sumInv_upsertAllocsImpl (hs : SumInv s) {allocs : List AllocInput} {ws : List AllocWrite}
    (h : s.upsertAllocsImpl index allocs = .ok (t, ws)) (hw : ∀ w ∈ ws, SummaryWrite w) : SumInv t := by
  obtain ⟨t₁, jobs, hfold, hst⟩ := upsertAllocsImpl_ok h
  have h₁ : SumInv t₁ :=
    foldlM_log_invariant (fun acc : StateStore × Map NamespacedID String × List AllocWrite => acc.2.2)
      (fun acc => SumInv acc.1) SummaryWrite
      (fun _ _ _ hb => by
        obtain ⟨_, _, _, -, -, -, -, -, hlog⟩ := upsertAlloc_ok hb
        exact ⟨_, hlog⟩)
      (fun _ _ _ hb hstep hq => sumInv_upsertAlloc hb hstep hq) allocs hs hfold hw
  exact (sameCounts_setJobStatuses h₁ hst).sumInv h₁

theorem sumInv_nestedUpdateAllocFromClient (hs : SumInv s) {alloc : Allocation} {ws : List AllocWrite}
    (h : s.nestedUpdateAllocFromClient index alloc = .ok (t, ws)) (hw : ∀ w ∈ ws, SummaryWrite w) :
    SumInv t := by
  rcases nestedUpdateAllocFromClient_ok h with ⟨-, rfl, -⟩ | ⟨exist, t₁, t₂, hex, h₁, h₂, h₃, rfl⟩
  · exact hs
  · have hw' := hw _ (List.mem_singleton_self _)
    have hs₁ := sumInv_updateDeploymentWithAlloc hs h₁
    obtain ⟨hallocs, hkept⟩ := updateDeploymentWithAlloc_kept h₁
    -- the stored allocation is stored under its ID, which the copy keeps
    have hex₁ : t₁.allocs.lookup exist.ID = some exist := by
      rw [hallocs, hs.allocs_keyed _ exist hex]
      exact hex
    have hmem : ∀ e, some exist = some e → e ∈ t₁.allocs.vals := fun e he =>
      Map.mem_vals.mpr ⟨exist.ID, hex₁.trans he⟩
    have hs₂ := sumInv_writeAlloc hs₁ h₂ hex₁ hw' (SummaryWrite.job_isSome hs₁ hw' hkept hmem)
    exact (sameCounts_setJobStatuses hs₂ h₃).sumInv hs₂

theorem sumInv_UpdateAllocsFromClient (hs : SumInv s) {allocs : List Allocation} {ws : List AllocWrite}
    (h : s.UpdateAllocsFromClient index allocs = .ok (t, ws)) (hw : ∀ w ∈ ws, SummaryWrite w) :
    SumInv t :=
  foldlM_log_invariant (fun acc : StateStore × List AllocWrite => acc.2) (fun acc => SumInv acc.1)
    SummaryWrite
    (fun _ _ _ hb => by
      obtain ⟨ws, -, hws⟩ := updateAllocFromClientStep_ok hb
      exact ⟨ws, hws⟩)
    (fun _ _ _ hb hstep hq => by
      obtain ⟨ws, hn, hws⟩ := updateAllocFromClientStep_ok hstep
      exact sumInv_nestedUpdateAllocFromClient hb hn fun w hw' =>
        hq w (by rw [hws]; exact List.mem_append_right _ hw'))
    allocs hs h hw

theorem sumInv_upsertOptionalEval (hs : SumInv s) (index : Nat) (eval : Option Evaluation) :
    SumInv (s.upsertOptionalEval index eval) := by
  cases eval with
  | none => exact hs
  | some e => exact (sameCounts_nestedUpsertEval hs e).sumInv hs

theorem sumInv_upsertJobAndEval (hs : SumInv s) {job : Option Job} {eval : Option Evaluation}
    (h : s.upsertJobAndEval index job eval = .ok t) : SumInv t := by
  obtain ⟨u, hu, rfl⟩ := upsertJobAndEval_ok h
  have hsu : SumInv u := by
    rcases hu with ⟨-, rfl⟩ | ⟨_, -, hj⟩
    · exact hs
    · exact sumInv_upsertJobImpl hs hj
  exact sumInv_upsertOptionalEval hsu index eval

theorem sumInv_upsertOptionalDeployment (hs : SumInv s) {d : Option Deployment}
    (h : s.upsertOptionalDeployment index d = .ok t) : SumInv t := by
  cases d with
  | none =>
    cases h
    exact hs
  | some d => exact sumInv_upsertDeploymentImpl hs h

theorem sumInv_updateOptionalDeploymentStatus (hs : SumInv s) {u : Option DeploymentStatusUpdate}
    (h : s.updateOptionalDeploymentStatus index u = .ok t) : SumInv t := by
  cases u with
  | none =>
    cases h
    exact hs
  | some u =>
    have hu : SumInv (s.updateDeploymentStatusImpl index u).1 := sumInv_updateDeploymentStatusImpl hs u
    simp only [updateOptionalDeploymentStatus] at h
    split at h
    · cases h
    · rename_i t' heq
      cases h
      rw [heq] at hu
      exact hu

theorem sumInv_UpdateDeploymentStatus (hs : SumInv s) {req : DeploymentStatusUpdateRequest}
    (h : s.UpdateDeploymentStatus index req = .ok t) : SumInv t := by
  obtain ⟨t₁, h₁, h₂⟩ := UpdateDeploymentStatus_ok h
  have hu : SumInv (s.updateDeploymentStatusImpl index req.DeploymentUpdate).1 :=
    sumInv_updateDeploymentStatusImpl hs _
  rw [h₁] at hu
  exact sumInv_upsertJobAndEval hu h₂

theorem sumInv_setAllocHealth (hs : SumInv s) {deploymentID id : String} {healthy : Bool} {ts : Time}
    {w : AllocWrite} (h : s.setAllocHealth index deploymentID id healthy ts = .ok (t, w)) : SumInv t := by
  obtain ⟨old, t₁, hold, -, h₁, rfl, -⟩ := setAllocHealth_ok h
  have hs₁ := sumInv_updateDeploymentWithAlloc hs h₁
  obtain ⟨hallocs, -⟩ := updateDeploymentWithAlloc_kept h₁
  -- a health write keeps what the summaries count of the allocation
  refine sumInv_insertAlloc_of_key hs₁ (o := old) ?_ rfl
  show t₁.allocs.lookup old.ID = some old
  rw [hallocs, hs.allocs_keyed _ old hold]
  exact hold

theorem sumInv_UpdateDeploymentAllocHealth (hs : SumInv s) {req : ApplyDeploymentAllocHealthRequest}
    {ws : List AllocWrite} (h : s.UpdateDeploymentAllocHealth index req = .ok (t, ws)) : SumInv t := by
  obtain ⟨-, t₁, t₂, -, -, hfold, h₂, h₃⟩ := UpdateDeploymentAllocHealth_ok h
  have hs₁ : SumInv t₁ :=
    foldlM_invariant (fun acc : StateStore × List AllocWrite => SumInv acc.1)
      (fun _ _ _ hb hstep => by
        obtain ⟨_, hw, -⟩ := setAllocHealthStep_ok hstep
        exact sumInv_setAllocHealth hb hw) _ hs hfold
  exact sumInv_upsertJobAndEval (sumInv_updateOptionalDeploymentStatus hs₁ h₂) h₃

theorem sumInv_UpdateDeploymentPromotion (hs : SumInv s) {req : ApplyDeploymentPromoteRequest}
    (h : s.UpdateDeploymentPromotion index req = .ok t) : SumInv t := by
  obtain ⟨deployment, -, copy, t₁, -, -, -, -, h₁, rfl⟩ := UpdateDeploymentPromotion_ok h
  have hs₂ := sumInv_upsertOptionalEval (sumInv_upsertDeploymentImpl hs h₁) index req.Eval
  have hallocs : (t₁.upsertOptionalEval index req.Eval).allocs = s.allocs := by
    obtain ⟨_, hf⟩ := upsertDeploymentImpl_frame h₁
    rw [upsertOptionalEval_allocs, hf.allocs]
    rfl
  -- each canary write replaces the allocation stored under its ID by one with the same key
  refine (foldl_invariant (fun u : StateStore => SumInv u ∧
      ∀ k, (u.allocs.lookup k).map summaryKey = (s.allocs.lookup k).map summaryKey)
    (s.promotable req deployment) (fun u a ha hu => ?_) ⟨hs₂, fun k => by rw [hallocs]⟩).1
  obtain ⟨hu, hview⟩ := hu
  have hmem : a ∈ s.allocs.vals := (List.mem_filter.mp (List.mem_filter.mp ha).1).1
  obtain ⟨k, hk⟩ := Map.mem_vals.mp hmem
  rw [← hs.allocs_keyed k a hk] at hk
  have hv := hview a.ID
  rw [hk, Option.map_some] at hv
  obtain ⟨o, ho, hok⟩ := Option.map_eq_some_iff.mp hv
  refine ⟨sumInv_insertAlloc_of_key hu (o := o) ho hok, fun k' => ?_⟩
  rw [insertAlloc_allocs]
  by_cases hk' : k' = a.ID
  · rw [hk', AList.lookup_insert, hk, Option.map_some, Option.map_some]
    rfl
  · rw [AList.lookup_insert_ne hk', hview k']

theorem sumInv_UpsertPlanResults (hs : SumInv s) {results : ApplyPlanResultsRequest}
    {ws : List AllocWrite} (h : s.UpsertPlanResults index results = .ok (t, ws))
    (hw : ∀ w ∈ ws, SummaryWrite w) : SumInv t := by
  obtain ⟨_, _, _, t₁, t₃, t₄, -, -, -, h₁, h₃, h₄, rfl⟩ := UpsertPlanResults_ok h
  have hs₁ : SumInv t₁ := sumInv_upsertOptionalDeployment hs h₁
  -- the deployment updates keep it whether or not they fail
  have hs₂ : SumInv (if results.DeploymentUpdates.length ≠ 0 then
      (t₁.upsertDeploymentUpdates index results.DeploymentUpdates).1 else t₁) := by
    split_ifs
    · exact sumInv_upsertDeploymentUpdates hs₁ _
    · exact hs₁
  have hs₃ : SumInv t₃ := by
    rcases h₃ with ⟨-, rfl⟩ | ⟨-, he⟩
    · exact hs₂
    · obtain ⟨e, rfl⟩ := updateEvalModifyIndex_ok he
      exact (sameCounts_insertEval e).sumInv hs₂
  have hs₄ := sumInv_upsertAllocsImpl hs₃ h₄ hw
  exact (sameCounts_foldl_nestedUpsertEval hs₄ index results.PreemptionEvals).sumInv hs₄

theorem sumInv_apply (hs : SumInv s) {op : Op} {ws : List AllocWrite} (h : Op.apply s op = .ok (t, ws))
    (hw : ∀ w ∈ ws, SummaryWrite w) : SumInv t := by
  cases op with
  | UpsertJob index job =>
    obtain ⟨_, h', he⟩ := map_eq_ok h
    cases he
    exact sumInv_upsertJobImpl hs h'
  | UpsertEvals index evals =>
    obtain ⟨_, h', he⟩ := map_eq_ok h
    cases he
    exact (sameCounts_UpsertEvals hs h').sumInv hs
  | UpsertAllocs index allocs => exact sumInv_upsertAllocsImpl hs h hw
  | UpdateAllocsFromClient index allocs => exact sumInv_UpdateAllocsFromClient hs h hw
  | UpsertPlanResults index results => exact sumInv_UpsertPlanResults hs h hw
  | UpdateDeploymentStatus index req =>
    obtain ⟨_, h', he⟩ := map_eq_ok h
    cases he
    exact sumInv_UpdateDeploymentStatus hs h'
  | UpdateDeploymentAllocHealth index req => exact sumInv_UpdateDeploymentAllocHealth hs h
  | UpdateDeploymentPromotion index req =>
    obtain ⟨_, h', he⟩ := map_eq_ok h
    cases he
    exact sumInv_UpdateDeploymentPromotion hs h'

/-- The run rule: from a store with the invariant, every run whose committed allocation writes
are ones the counters assume ends in one. -/
theorem sumInv_run (hs : SumInv s) (ops : List Op)
    (hw : ∀ c ∈ (run s ops).2, ∀ w ∈ c.writes, SummaryWrite w) : SumInv (run s ops).1 := by
  induction ops generalizing s with
  | nil => exact hs
  | cons op ops ih =>
    cases happ : Op.apply s op with
    | error e =>
      rw [run_cons_error ops happ] at hw ⊢
      exact ih hs hw
    | ok r =>
      obtain ⟨t, ws⟩ := r
      rw [run_cons_ok ops happ] at hw ⊢
      exact ih (sumInv_apply hs happ (hw _ List.mem_cons_self)) fun c hc => hw c (List.mem_cons_of_mem _ hc)

theorem SumInv.summary_of_job (hs : SumInv s) {ns id : String} {job : Job}
    (hj : s.JobByID ns id = some job) :
    ∃ js, s.jobSummaries.lookup (ns, id) = some js ∧ js.CreateIndex = job.CreateIndex ∧
      ∀ tg st, js.bins tg st = s.allocCount (ns, id, job.CreateIndex, tg, st) := by
  obtain ⟨js, hjs⟩ := Option.isSome_iff_exists.mp (hs.job_summary ns id (by rw [hj]; rfl))
  obtain ⟨job', hj', hci⟩ := hs.summary_job ns id js hjs
  rw [hj] at hj'
  cases hj'
  exact ⟨js, hjs, hci.symm, fun tg st => by rw [hs.counts ns id js hjs tg st, hci]⟩

-- ---------------------------------------------------------------------------
-- Recounting the summaries
-- ---------------------------------------------------------------------------

theorem bin_countAllocStep (job : Job) (m : Map String TaskGroupSummary) (alloc : Allocation)
    (tg : String) (st : AllocClientStatus) :
    (((countAllocStep job m alloc).lookup tg).getD {}).bin st = ((m.lookup tg).getD {}).bin st +
      if alloc.Job.CreateIndex = job.CreateIndex ∧ alloc.TaskGroup = tg ∧ alloc.ClientStatus = st
      then 1 else 0 := by
  unfold countAllocStep
  by_cases hci : alloc.Job.CreateIndex = job.CreateIndex
  · rw [if_neg (not_not.mpr hci)]
    by_cases htg : alloc.TaskGroup = tg
    · subst htg
      rw [AList.lookup_insert, Option.getD_some, TaskGroupSummary.bin_incr]
      simp [hci, eq_comm]
    · rw [AList.lookup_insert_ne (Ne.symm htg)]
      simp [htg]
  · rw [if_pos hci]
    simp [hci]

/-- The bins `ReconcileJobSummaries` computes for a job: its allocations of the job's incarnation,
by group and status. -/
theorem bins_countAllocs (job : Job) (allocs : List Allocation) (tg : String) (st : AllocClientStatus) :
    (((countAllocs job allocs).lookup tg).getD {}).bin st =
      (allocs.countP fun a => a.Job.CreateIndex = job.CreateIndex ∧ a.TaskGroup = tg ∧
        a.ClientStatus = st : Nat) := by
  -- the loop adds its count to the bins it starts from, which are empty
  have hloop : ∀ (l : List Allocation) (m : Map String TaskGroupSummary),
      (((l.foldl (countAllocStep job) m).lookup tg).getD {}).bin st = ((m.lookup tg).getD {}).bin st +
        (l.countP fun a => a.Job.CreateIndex = job.CreateIndex ∧ a.TaskGroup = tg ∧
          a.ClientStatus = st : Nat) := by
    intro l
    induction l with
    | nil => simp
    | cons a l ih =>
      intro m
      rw [List.foldl_cons, ih, bin_countAllocStep, List.countP_cons]
      by_cases hc : a.Job.CreateIndex = job.CreateIndex ∧ a.TaskGroup = tg ∧ a.ClientStatus = st
      · simp only [hc, and_self, if_true, decide_true]
        push_cast
        ring
      · simp [hc]
  have hinit : (((job.TaskGroups.foldl (fun (m : Map String TaskGroupSummary) (g : TaskGroup) =>
      m.insert g.Name {}) ∅).lookup tg).getD {}).bin st = 0 := by
    cases h : (job.TaskGroups.foldl (fun (m : Map String TaskGroupSummary) (g : TaskGroup) =>
        m.insert g.Name {}) ∅).lookup tg with
    | none => simp
    | some y =>
      rcases Map.lookup_foldl_insert (fun g : TaskGroup => g.Name) (fun _ => ({} : TaskGroupSummary))
        job.TaskGroups ∅ h with h | ⟨_, _, _, rfl⟩
      · exact absurd h (by simp)
      · simp
  unfold countAllocs
  rw [hloop, hinit, zero_add]

theorem countP_allocsByJobIndex (s : StateStore) (ns id : String) (ci : Nat) (tg : String)
    (st : AllocClientStatus) :
    ((s.allocsByJobIndex ns id).countP fun a => a.Job.CreateIndex = ci ∧ a.TaskGroup = tg ∧
      a.ClientStatus = st : Nat) = s.allocCount (ns, id, ci, tg, st) := by
  unfold allocsByJobIndex allocCount
  rw [List.countP_filter]
  congr 2
  funext a
  rw [Bool.eq_iff_iff]
  simp only [summaryKey, Prod.mk.injEq, Bool.and_eq_true, beq_iff_eq, decide_eq_true_eq]
  tauto

theorem reconcileJobSummary_allocs (t : StateStore) (parents : Map String (List Job)) (job : Job) :
    (t.reconcileJobSummary index parents job).allocs = t.allocs := by
  unfold reconcileJobSummary
  split_ifs
  · split
    · rfl
    · dsimp only
      split_ifs <;> rfl
  · rfl

theorem reconcileJobSummary_lookup_of_ne (t : StateStore) (parents : Map String (List Job)) {job : Job}
    {k : String × String} (hk : (job.Namespace, job.ID) ≠ k) :
    (t.reconcileJobSummary index parents job).jobSummaries.lookup k = t.jobSummaries.lookup k := by
  unfold reconcileJobSummary
  split_ifs
  · split
    · rfl
    · dsimp only
      split_ifs
      · exact AList.lookup_insert_ne (Ne.symm hk)
      · rfl
  · exact AList.lookup_insert_ne (Ne.symm hk)

/-- For a job that is neither periodic nor parameterized, `ReconcileJobSummaries` stores the count
of its allocations. -/
theorem ReconcileJobSummaries_lookup (hkeyed : Table.Keyed jobKey s.jobs) {job : Job} (hj : job ∈ s.jobs)
    (hk : (job.IsParameterized || job.IsPeriodic) = false) :
    (s.ReconcileJobSummaries index).jobSummaries.lookup (job.Namespace, job.ID) = some {
      JobID := job.ID, Namespace := job.Namespace
      Summary := countAllocs job (s.allocsByJobIndex job.Namespace job.ID), Children := none
      CreateIndex := job.CreateIndex, ModifyIndex := index } := by
  obtain ⟨l₁, l₂, hl, hne⟩ := Table.split_of_mem hkeyed hj
  unfold ReconcileJobSummaries
  rw [hl, List.foldl_append, List.foldl_cons]
  -- the jobs before it leave the allocations; those after it write other keys
  generalize hu : l₁.foldl (fun t job => t.reconcileJobSummary index s.parentMap job) s = u
  have hallocs : u.allocs = s.allocs := by
    rw [← hu]
    exact foldl_invariant (fun t : StateStore => t.allocs = s.allocs) l₁
      (fun t j _ ht => (reconcileJobSummary_allocs t _ j).trans ht) rfl
  have hstep : u.reconcileJobSummary index s.parentMap job = u.insertSummary {
      JobID := job.ID, Namespace := job.Namespace
      Summary := countAllocs job (s.allocsByJobIndex job.Namespace job.ID), Children := none
      CreateIndex := job.CreateIndex, ModifyIndex := index } := by
    unfold reconcileJobSummary allocsByJobIndex
    rw [if_neg (by rw [hk]; decide), hallocs]
  rw [hstep]
  refine foldl_invariant (fun t : StateStore => t.jobSummaries.lookup (job.Namespace, job.ID) = some _) l₂
    (fun t j hj ht => ?_) ?_
  · rw [reconcileJobSummary_lookup_of_ne (k := (job.Namespace, job.ID)) t _
      (hne j (List.mem_append_right _ hj))]
    exact ht
  · exact AList.lookup_insert _

theorem SumInv.reconcile_bins (hs : SumInv s) {ns id : String} {job : Job} (hj : s.JobByID ns id = some job)
    (hk : (job.IsParameterized || job.IsPeriodic) = false) (index : Nat) :
    ∃ js js', s.jobSummaries.lookup (ns, id) = some js ∧
      (s.ReconcileJobSummaries index).jobSummaries.lookup (ns, id) = some js' ∧
      ∀ tg st, js'.bins tg st = js.bins tg st := by
  obtain ⟨js, hjs, -, hbins⟩ := hs.summary_of_job hj
  obtain ⟨hns, hid⟩ := jobByID_key hj
  have hmem : job ∈ s.jobs := by
    rw [jobByID_eq_lookup] at hj
    exact (Table.lookup_eq_some hj).1
  have hr : (s.ReconcileJobSummaries index).jobSummaries.lookup (job.Namespace, job.ID) = some _ :=
    ReconcileJobSummaries_lookup hs.jobs_keyed hmem hk
  rw [hns, hid] at hr
  refine ⟨js, _, hjs, hr, fun tg st => ?_⟩
  -- the recount is the count over the job's index, which the summary has
  rw [hbins tg st, ← countP_allocsByJobIndex, ← hns, ← hid]
  exact bins_countAllocs job _ tg st

end StateStore

-- ---------------------------------------------------------------------------
-- Over runs from an empty store
-- ---------------------------------------------------------------------------

/-- **Summaries count allocations.** Over every run of transactions from an empty store whose
allocation writes are as `SummaryWrite` says, each registered job has a summary of its
incarnation, and each of its bins is the number of the job's stored allocations of that
incarnation, group and client status. -/
theorem run_summaries_count (ops : List Op)
    (hw : ∀ c ∈ (run {} ops).2, ∀ w ∈ c.writes, SummaryWrite w) {ns id : String} {job : Job}
    (hj : (run {} ops).1.JobByID ns id = some job) :
    ∃ js, (run {} ops).1.jobSummaries.lookup (ns, id) = some js ∧ js.CreateIndex = job.CreateIndex ∧
      ∀ tg st, js.bins tg st = (run {} ops).1.allocCount (ns, id, job.CreateIndex, tg, st) :=
  (StateStore.sumInv_run StateStore.sumInv_empty ops hw).summary_of_job hj

def apiJob : Job :=
  { ID := "api", Namespace := "default", «Type» := "service", Priority := 50, Stop := false,
    Version := 0, CreateIndex := 0, ModifyIndex := 0, JobModifyIndex := 0,
    TaskGroups := [{ Name := "g", Count := 1, Update := none, ReschedulePolicy := none }] }

def apiAlloc : Allocation :=
  { ID := "a1", Name := 0, JobID := "api", Job := { apiJob with CreateIndex := 1 }, TaskGroup := "g",
    NodeID := "n1", DesiredStatus := .run, DesiredTransition := ⟨none, none, none⟩,
    ClientStatus := .pending, DeploymentID := "", DeploymentStatus := none, TaskStates := [],
    RescheduleTracker := none, NextAllocation := "", FollowupEvalID := "", ModifyTime := 0 }

/-- `api` registered at 1, its allocation placed at 2 and reported running by its client at 3. -/
def apiOps : List Op :=
  [.UpsertJob 1 apiJob, .UpsertAllocs 2 [⟨apiAlloc, some apiAlloc.Job⟩],
    .UpdateAllocsFromClient 3 [{ apiAlloc with ClientStatus := .running }]]

/-- After the run, the running bin of `api` counts its one running allocation. -/
theorem run_summaries_count_api :
    ∃ js, (run {} apiOps).1.jobSummaries.lookup ("default", "api") = some js ∧ js.bins "g" .running = 1 := by
  have hw : ∀ c ∈ (run {} apiOps).2, ∀ w ∈ c.writes, SummaryWrite w := by decide +kernel
  have hj : (run {} apiOps).1.JobByID "default" "api" =
      some { apiJob with CreateIndex := 1, ModifyIndex := 2, JobModifyIndex := 1, Status := "running" } := by
    decide +kernel
  obtain ⟨js, hjs, -, hbins⟩ := run_summaries_count apiOps hw hj
  refine ⟨js, hjs, ?_⟩
  rw [hbins]
  decide +kernel

/-- **The recount agrees with the increments.** On every such run, `ReconcileJobSummaries` finds
the summary of each registered job that is neither periodic nor parameterized with the bins the
writes kept. -/
theorem run_reconcile_keeps_bins (ops : List Op)
    (hw : ∀ c ∈ (run {} ops).2, ∀ w ∈ c.writes, SummaryWrite w) {ns id : String} {job : Job}
    (hj : (run {} ops).1.JobByID ns id = some job) (hk : (job.IsParameterized || job.IsPeriodic) = false)
    (index : Nat) :
    ∃ js js', (run {} ops).1.jobSummaries.lookup (ns, id) = some js ∧
      ((run {} ops).1.ReconcileJobSummaries index).jobSummaries.lookup (ns, id) = some js' ∧
      ∀ tg st, js'.bins tg st = js.bins tg st :=
  (StateStore.sumInv_run StateStore.sumInv_empty ops hw).reconcile_bins hj hk index

/-- Recounting after the run of `api` at index 4 keeps its bins. -/
theorem run_reconcile_keeps_bins_api :
    ∃ js js', (run {} apiOps).1.jobSummaries.lookup ("default", "api") = some js ∧
      ((run {} apiOps).1.ReconcileJobSummaries 4).jobSummaries.lookup ("default", "api") = some js' ∧
      ∀ tg st, js'.bins tg st = js.bins tg st := by
  have hw : ∀ c ∈ (run {} apiOps).2, ∀ w ∈ c.writes, SummaryWrite w := by decide +kernel
  have hj : (run {} apiOps).1.JobByID "default" "api" =
      some { apiJob with CreateIndex := 1, ModifyIndex := 2, JobModifyIndex := 1, Status := "running" } := by
    decide +kernel
  exact run_reconcile_keeps_bins apiOps hw hj rfl 4

end Nomad.State
