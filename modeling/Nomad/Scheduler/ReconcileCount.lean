import Nomad.Scheduler.GroupCount
import Nomad.Scheduler.ReconcileApply

/-!
# The count a group converges to

`Compute` runs `computeGroup` once for every entry of the allocation matrix, each on the
reconciler the previous one returned. The matrix groups the job's allocations by task group
(`newAllocMatrix_groupsBy`), so the other groups' runs stop only allocations of theirs, place
only for themselves and leave the group's state in the deployment alone (`AwayFrame`): what the
whole result says about one group is what that group's own run appended. The run starts from
what `cancelDeployments` returns, flagged by the deployment it keeps (`Compute_lists_of_start`).
For a service group that starts from scratch, `computeGroup_clean` then counts it out, and after
the plan is applied the group has exactly its count.
-/

namespace Nomad.Scheduler

open Go Structs Container

-- ---------------------------------------------------------------------------
-- The allocation matrix
-- ---------------------------------------------------------------------------

theorem allocSet.insert_of_not_contains {s : allocSet} {x : Allocation}
    (h : s.contains x.ID = false) : s.insert x = s ++ [x] := by
  simp [allocSet.insert, h]

theorem groupsBy_foldl_insert (pre l : List Allocation) (m : Map String allocSet)
    (hid : ((pre ++ l).map (·.ID)).Nodup) (hm : Map.GroupsBy (·.TaskGroup) pre m) :
    Map.GroupsBy (·.TaskGroup) (pre ++ l) (l.foldl (fun (m : Map String allocSet) a =>
      m.insert a.TaskGroup (((m.lookup a.TaskGroup).getD []).insert a)) m) := by
  induction l generalizing pre m with
  | nil => simpa using hm
  | cons x l ih =>
    -- the slice `x` joins holds allocations of `pre`, none of which has its ID
    have hx : ((m.lookup x.TaskGroup).getD []).contains x.ID = false := by
      rw [hm x.TaskGroup]
      refine Bool.eq_false_iff.mpr fun hc => ?_
      obtain ⟨y, hy, he⟩ := List.mem_map.mp ((allocSet.contains_iff _ _).mp hc)
      rw [List.map_append, List.nodup_append] at hid
      exact hid.2.2 _ (List.mem_map_of_mem (List.mem_of_mem_filter hy)) _
        (List.mem_map_of_mem (List.mem_cons_self ..)) he
    rw [List.foldl_cons, allocSet.insert_of_not_contains hx]
    simpa using ih (pre ++ [x]) _ (by simpa using hid) (hm.snoc x)

theorem newAllocMatrix_groupsBy (job : Job) (allocs : List Allocation)
    (hid : (allocs.map (·.ID)).Nodup) :
    Map.GroupsBy (·.TaskGroup) allocs (newAllocMatrix (some job) allocs) ∧
      ∀ tg ∈ job.TaskGroups, tg.Name ∈ newAllocMatrix (some job) allocs := by
  have h0 := groupsBy_foldl_insert [] allocs ∅ hid (Map.groupsBy_empty _)
  rw [List.nil_append] at h0
  obtain ⟨hg, hmem⟩ := h0.foldl_insert_nil (job.TaskGroups.map (·.Name))
  rw [List.foldl_map] at hg hmem
  simp only [newAllocMatrix]
  exact ⟨hg, fun tg htg => hmem _ (.inl (List.mem_map_of_mem htg))⟩

theorem Job.mem_of_LookupTaskGroup {job : Job} {g : String} {tg : TaskGroup}
    (h : job.LookupTaskGroup g = some tg) : tg ∈ job.TaskGroups ∧ tg.Name = g :=
  ⟨List.mem_of_find?_eq_some h, by simpa using List.find?_some h⟩

theorem newAllocMatrix_lookup (job : Job) (allocs : List Allocation)
    (hid : (allocs.map (·.ID)).Nodup) {g : String} {tg : TaskGroup}
    (htg : job.LookupTaskGroup g = some tg) :
    (newAllocMatrix (some job) allocs).lookup g = some (allocs.filter (·.TaskGroup = g)) := by
  obtain ⟨hg, hkeys⟩ := newAllocMatrix_groupsBy job allocs hid
  obtain ⟨hmem, rfl⟩ := Job.mem_of_LookupTaskGroup htg
  obtain ⟨v, hv⟩ := Map.exists_lookup_of_mem (hkeys tg hmem)
  rw [hv, hg.lookup hv]

/-- The entries of the matrix around a group `g` of the job: the groups before and after it are
other groups, each with its own allocations. -/
theorem newAllocMatrix_split (job : Job) (existing : List Allocation)
    (hid : (existing.map (·.ID)).Nodup) {g : String} {tg : TaskGroup}
    (htg : job.LookupTaskGroup g = some tg) :
    ∃ l₁ l₂, (newAllocMatrix (some job) existing).entries =
        l₁ ++ ⟨g, existing.filter (·.TaskGroup = g)⟩ :: l₂ ∧
      ∀ e ∈ l₁ ++ l₂, e.1 ≠ g ∧ e.2 = existing.filter (·.TaskGroup = e.1) := by
  obtain ⟨l₁, l₂, hl, -⟩ := Map.entries_split (newAllocMatrix_lookup job existing hid htg)
  refine ⟨l₁, l₂, hl, fun e he =>
    ⟨Map.key_ne_of_split hl he, (newAllocMatrix_groupsBy job existing hid).1.entry ?_⟩⟩
  rw [hl]
  rcases List.mem_append.mp he with he | he
  · exact List.mem_append_left _ he
  · exact List.mem_append_right _ (List.mem_cons_of_mem _ he)

-- ---------------------------------------------------------------------------
-- The other groups
-- ---------------------------------------------------------------------------

def StopElsewhere (g : String) (existing : allocSet) (e : allocStopResult) : Prop :=
  e.alloc ∈ existing ∧ e.alloc.TaskGroup ≠ g

def PlaceElsewhere (g : String) (e : allocPlaceResult) : Prop := e.taskGroup.Name ≠ g

def DestructiveElsewhere (g : String) (existing : allocSet) (e : allocDestructiveResult) : Prop :=
  e.placeTaskGroup.Name ≠ g ∧ e.stopAlloc ∈ existing ∧ e.stopAlloc.TaskGroup ≠ g

namespace allocReconciler

/-- What the runs of `computeGroup` for groups other than `g` may change, `existing` being the
job's allocations. -/
structure AwayFrame (g : String) (existing : allocSet) (a a' : allocReconciler) : Prop where
  settings : a'.settings = a.settings
  stop : GrowsBy (StopElsewhere g existing) a.result.stop a'.result.stop
  place : GrowsBy (PlaceElsewhere g) a.result.place a'.result.place
  destructive : GrowsBy (DestructiveElsewhere g existing) a.result.destructiveUpdate
    a'.result.destructiveUpdate
  deployment : a.DeploymentClean g → a'.DeploymentClean g
  lookup : a'.deployment.bind (·.TaskGroups.lookup g) = a.deployment.bind (·.TaskGroups.lookup g)

namespace AwayFrame

variable {g : String} {existing : allocSet} {a a' a'' : allocReconciler}

theorem refl (g : String) (existing : allocSet) (a : allocReconciler) : AwayFrame g existing a a :=
  ⟨rfl, .refl _ _, .refl _ _, .refl _ _, id, rfl⟩

theorem trans (h₁ : AwayFrame g existing a a') (h₂ : AwayFrame g existing a' a'') :
    AwayFrame g existing a a'' :=
  ⟨h₂.settings.trans h₁.settings, h₁.stop.trans h₂.stop, h₁.place.trans h₂.place,
    h₁.destructive.trans h₂.destructive, h₂.deployment ∘ h₁.deployment, h₂.lookup.trans h₁.lookup⟩

theorem of_groupFrame {g' : String} (hne : g' ≠ g)
    (h : GroupFrame g' (existing.filter (·.TaskGroup = g')) a a') : AwayFrame g existing a a' := by
  -- an allocation of `g'` is an existing one outside `g`
  have hall : ∀ x ∈ existing.filter (·.TaskGroup = g'), x ∈ existing ∧ x.TaskGroup ≠ g :=
    fun x hx => by
      obtain ⟨hx, hg⟩ := List.mem_filter.mp hx
      exact ⟨hx, (of_decide_eq_true hg).trans_ne hne⟩
  exact ⟨h.settings, h.stop.mono fun _ he => hall _ he,
    h.place.mono fun _ he => he.1.trans_ne hne,
    h.destructive.mono fun _ he => ⟨he.1.trans_ne hne, hall _ he.2⟩,
    h.deployment g hne.symm, h.lookup g hne.symm⟩

end AwayFrame

theorem foldl_computeGroup_away (job : Job) (g : String) (existing : allocSet)
    (l : List (Σ _ : String, allocSet))
    (hl : ∀ e ∈ l, e.1 ≠ g ∧ e.2 = existing.filter (·.TaskGroup = e.1)) (a : allocReconciler) :
    AwayFrame g existing a (l.foldl (fun a e => (a.computeGroup job e.1 e.2).1) a) := by
  induction l generalizing a with
  | nil => exact .refl _ _ _
  | cons e l ih =>
    obtain ⟨hne, he⟩ := hl e (List.mem_cons_self ..)
    have hstep : AwayFrame g existing a (a.computeGroup job e.1 e.2).1 :=
      .of_groupFrame hne (he ▸ computeGroup_frame a job e.1 e.2)
    exact hstep.trans (ih (fun e' he' => hl e' (List.mem_cons_of_mem _ he')) _)

-- ---------------------------------------------------------------------------
-- `Compute`
-- ---------------------------------------------------------------------------

variable (a : allocReconciler)

theorem cancelDeployments_none (job : Job) (hjob : a.job = some job) (hstop : job.Stop = false)
    (hdep : a.deployment = none) : a.cancelDeployments = a := by
  simp [cancelDeployments, hjob, hstop, hdep]

theorem foldl_computeGroup_fst (job : Job) (l : List (Σ _ : String, allocSet)) (a : allocReconciler)
    (b : Bool) :
    (l.foldl (fun (p : allocReconciler × Bool) e =>
      ((p.1.computeGroup job e.1 e.2).1, p.2 && (p.1.computeGroup job e.1 e.2).2)) (a, b)).1 =
      l.foldl (fun a e => (a.computeGroup job e.1 e.2).1) a := by
  induction l generalizing a b with
  | nil => rfl
  | cons e l ih => exact ih _ _

theorem cancelDeployments_job : a.cancelDeployments.job = a.job := by
  unfold cancelDeployments
  split <;> (repeat' split) <;> rfl

theorem cancelDeployments_lists : a.cancelDeployments.result.place = a.result.place ∧
    a.cancelDeployments.result.destructiveUpdate = a.result.destructiveUpdate := by
  unfold cancelDeployments
  split <;> (repeat' split) <;> exact ⟨rfl, rfl⟩

/-- The deployment of the job's current version stays, unless it has succeeded. -/
theorem cancelDeployments_current (job : Job) (d : Deployment) (hjob : a.job = some job)
    (hstop : job.Stop = false) (hd : a.deployment = some d)
    (hci : d.JobCreateIndex = job.CreateIndex) (hv : d.JobVersion = job.Version)
    (hs : d.Status ≠ .successful) : a.cancelDeployments = a := by
  simp [cancelDeployments, hjob, hstop, hd, hci, hv, hs]

/-- With a live job, the allocation lists of `Compute` are those the run of `computeGroup` over
the matrix leaves. The run starts from what `cancelDeployments` returns, with the pause and the
failure of the deployment it keeps read off. -/
theorem Compute_lists_of_start (job : Job) (hjob : a.job = some job) (hstop : job.Stop = false) :
    ∃ a₀ : allocReconciler, a₀.deployment = a.cancelDeployments.deployment ∧
      a₀.result = a.cancelDeployments.result ∧
      (a.cancelDeployments.deployment = none → a₀ = a.cancelDeployments) ∧
      (∀ d, a₀.deployment = some d → a₀.deploymentPaused = decide (d.Status = .paused) ∧
        a₀.deploymentFailed = decide (d.Status = .failed)) ∧
      let a' := (newAllocMatrix (some job) a.existingAllocs).entries.foldl
        (fun a e => (a.computeGroup job e.1 e.2).1) a₀
      a.Compute.stop = a'.result.stop ∧ a.Compute.place = a'.result.place ∧
        a.Compute.destructiveUpdate = a'.result.destructiveUpdate := by
  -- the start is chosen first, so that both cases then unfold `Compute` the same way
  rcases hcd : a.cancelDeployments.deployment with _ | d
  on_goal 1 =>
    refine ⟨a.cancelDeployments, hcd, rfl, fun _ => rfl, fun d h => by simp [hcd] at h, ?_⟩
  on_goal 2 =>
    refine ⟨{ a.cancelDeployments with
        deploymentPaused := decide (d.Status = .paused)
        deploymentFailed := decide (d.Status = .failed) }, hcd, rfl, by simp, fun d' h => ?_, ?_⟩
    · cases hcd ▸ h
      exact ⟨rfl, rfl⟩
  all_goals
    unfold Compute
    dsimp -iota only
    simp only [a.cancelDeployments_job, hjob, hstop, hcd, Bool.false_eq_true, ↓reduceIte,
      foldl_computeGroup_fst]
    generalize (newAllocMatrix (some job) a.existingAllocs).entries.foldl
      (fun (a : allocReconciler) e => (a.computeGroup job e.1 e.2).1) _ = F
    generalize (List.foldl _ (_, true) _).2 = c
    -- the closing steps record a deployment update and a promotion description, nothing else
    rcases hF : F.deployment with _ | d
    · simp only
      split
      · split <;> exact ⟨rfl, rfl, rfl⟩
      · exact ⟨rfl, rfl, rfl⟩
    · cases c <;> simp only [Bool.false_eq_true, ↓reduceIte, withResult,
        reconcileResults.addDeploymentUpdate] <;> split <;> (try split) <;> exact ⟨rfl, rfl, rfl⟩

/-- `Compute`'s run split around a group `g` of the job: from its start `a₀` the groups before
`g` lead to `a₁`, `g` runs there on its own allocations, and the groups after it lead to the
reconciler whose lists `Compute` returns. -/
theorem Compute_around (job : Job) (hjob : a.job = some job) (hstop : job.Stop = false)
    (hid : (a.existingAllocs.map (·.ID)).Nodup) {g : String} {tg : TaskGroup}
    (htg : job.LookupTaskGroup g = some tg) :
    ∃ a₀ a₁ a₃ : allocReconciler, a₀.deployment = a.cancelDeployments.deployment ∧
      a₀.result = a.cancelDeployments.result ∧
      (a.cancelDeployments.deployment = none → a₀ = a.cancelDeployments) ∧
      (∀ d, a₀.deployment = some d → a₀.deploymentPaused = decide (d.Status = .paused) ∧
        a₀.deploymentFailed = decide (d.Status = .failed)) ∧
      AwayFrame g a.existingAllocs a₀ a₁ ∧
      AwayFrame g a.existingAllocs
        (a₁.computeGroup job g (a.existingAllocs.filter (·.TaskGroup = g))).1 a₃ ∧
      a.Compute.stop = a₃.result.stop ∧ a.Compute.place = a₃.result.place ∧
      a.Compute.destructiveUpdate = a₃.result.destructiveUpdate := by
  obtain ⟨a₀, hd₀, hr₀, hn₀, hf₀, hS, hP, hD⟩ := a.Compute_lists_of_start job hjob hstop
  obtain ⟨l₁, l₂, hl, hother⟩ := newAllocMatrix_split job a.existingAllocs hid htg
  rw [hl, List.foldl_append, List.foldl_cons] at hS hP hD
  exact ⟨a₀, _, _, hd₀, hr₀, hn₀, hf₀,
    foldl_computeGroup_away job g _ l₁ (fun e he => hother e (List.mem_append_left _ he)) a₀,
    foldl_computeGroup_away job g _ l₂ (fun e he => hother e (List.mem_append_right _ he)) _,
    hS, hP, hD⟩

end allocReconciler

-- ---------------------------------------------------------------------------
-- Counting the live allocations of a group
-- ---------------------------------------------------------------------------

theorem length_liveIn (r : reconcileResults) (existing : List Allocation) (g : String) :
    (liveIn r existing g).length =
      (existing.filter fun x => x.ID ∉ r.stoppedIDs ∧ x.TerminalStatus = false ∧
        x.TaskGroup = g).length +
      (r.place.filter (·.taskGroup.Name = g)).length +
      (r.destructiveUpdate.filter (·.placeTaskGroup.Name = g)).length := by
  simp only [liveIn, applyResults, List.filter_append, List.length_append, List.filter_map,
    List.length_map, List.filter_filter]
  -- a kept allocation is live when it is not terminal; a new one always is
  congr 2
  refine congrArg List.length (List.filter_congr fun x _ => ?_)
  cases h : x.TerminalStatus <;>
    simp [planned.live, planned.group, h, and_comm, Bool.beq_eq_decide_eq]

theorem filter_around {β : Type} {p : β → Bool} {A δ B : List β} (hA : ∀ e ∈ A, p e = false)
    (hδ : ∀ e ∈ δ, p e = true) (hB : ∀ e ∈ B, p e = false) : (A ++ δ ++ B).filter p = δ := by
  rw [List.filter_append, List.filter_append, List.filter_eq_self.mpr hδ,
    List.filter_eq_nil_iff.mpr fun e he => by simp [hA e he],
    List.filter_eq_nil_iff.mpr fun e he => by simp [hB e he], List.nil_append, List.append_nil]

section around

open allocReconciler

variable {g : String} {existing all : allocSet} {a₀ a₁ a₂ a₃ : allocReconciler}

/-- The placements the result holds for `g` are those `g`'s own run appended. -/
theorem place_filter_around (h₀ : ∀ e ∈ a₀.result.place, e.taskGroup.Name ≠ g)
    (f₁ : AwayFrame g existing a₀ a₁) (fg : GroupFrame g all a₁ a₂)
    (f₂ : AwayFrame g existing a₂ a₃) {δ : List allocPlaceResult}
    (hδ : a₂.result.place = a₁.result.place ++ δ) :
    a₃.result.place.filter (·.taskGroup.Name = g) = δ := by
  obtain ⟨P₁, hP₁, pP₁⟩ := f₁.place
  obtain ⟨P₂, hP₂, pP₂⟩ := f₂.place
  have pδ := (hδ ▸ fg.place).forall_of_append
  rw [hP₂, hδ, hP₁]
  refine filter_around (fun e he => decide_eq_false ?_) (fun e he => decide_eq_true (pδ e he).1)
    fun e he => decide_eq_false (pP₂ e he)
  rcases List.mem_append.mp he with he | he
  · exact h₀ e he
  · exact pP₁ e he

/-- The destructive updates the result holds for `g` are those `g`'s own run appended. -/
theorem destructive_filter_around (h₀ : ∀ e ∈ a₀.result.destructiveUpdate, e.placeTaskGroup.Name ≠ g)
    (f₁ : AwayFrame g existing a₀ a₁) (fg : GroupFrame g all a₁ a₂)
    (f₂ : AwayFrame g existing a₂ a₃) {δ : List allocDestructiveResult}
    (hδ : a₂.result.destructiveUpdate = a₁.result.destructiveUpdate ++ δ) :
    a₃.result.destructiveUpdate.filter (·.placeTaskGroup.Name = g) = δ := by
  obtain ⟨D₁, hD₁, pD₁⟩ := f₁.destructive
  obtain ⟨D₂, hD₂, pD₂⟩ := f₂.destructive
  have pδ := (hδ ▸ fg.destructive).forall_of_append
  rw [hD₂, hδ, hD₁]
  refine filter_around (fun e he => decide_eq_false ?_) (fun e he => decide_eq_true (pδ e he).1)
    fun e he => decide_eq_false (pD₂ e he).1
  rcases List.mem_append.mp he with he | he
  · exact h₀ e he
  · exact (pD₁ e he).1

end around

theorem mem_ids_around {β : Type} (f : β → Allocation) {existing : allocSet} {g : String}
    (hid : (existing.map (·.ID)).Nodup) {A δ B : List β}
    (hA : ∀ e ∈ A, f e ∈ existing ∧ (f e).TaskGroup ≠ g)
    (hB : ∀ e ∈ B, f e ∈ existing ∧ (f e).TaskGroup ≠ g) {x : Allocation} (hx : x ∈ existing)
    (hg : x.TaskGroup = g) :
    x.ID ∈ (A ++ δ ++ B).map (fun e => (f e).ID) ↔ x.ID ∈ δ.map (fun e => (f e).ID) := by
  have hout : ∀ l : List β, (∀ e ∈ l, f e ∈ existing ∧ (f e).TaskGroup ≠ g) →
      x.ID ∉ l.map (fun e => (f e).ID) := by
    intro l hl hm
    obtain ⟨e, he, heq⟩ := List.mem_map.mp hm
    exact (hl e he).2 (List.inj_on_of_nodup_map hid (hl e he).1 hx heq ▸ hg)
  simp [hout A hA, hout B hB]

/-- A service job's group with no update strategy and no canaries, under no deployment, whose
allocations all run, are not yet replaced and are not forced to reschedule: after the plan
made from `Compute` is applied it has exactly its count of live allocations, and every one it
keeps is on a node that is neither down nor gone. -/
theorem Compute_live_count (allocUpdateFn : allocUpdateType) (jobID : String) (job : Job)
    (existing : List Allocation) (nodes : Map String (Option Node)) (evalID : String) (now : Time)
    (uuids : Nat → String) (g : String) (tg : TaskGroup)
    (hstop : job.Stop = false) (htg : job.LookupTaskGroup g = some tg)
    (hu : UpdateStrategy.IsEmpty tg.Update = true) (hcan : ∀ u, tg.Update = some u → u.Canary ≤ 0)
    (hC : 0 ≤ tg.Count) (hC64 : tg.Count < 2 ^ 63)
    (hall : ∀ x ∈ existing, x.TaskGroup = g → x.DesiredStatus = .run ∧
      (x.ClientStatus = .pending ∨ x.ClientStatus = .running) ∧ x.NextAllocation = "" ∧
      x.DesiredTransition.ShouldForceReschedule = false)
    (hid : (existing.map (·.ID)).Nodup) (hlen : existing.length < 2 ^ 63) :
    let r := (NewAllocReconciler allocUpdateFn false jobID (some job) none existing nodes evalID
      now uuids).Compute
    (liveIn r existing g).length = tg.Count.toNat ∧
      ∀ x ∈ existing, x.TaskGroup = g → x.ID ∉ r.stoppedIDs →
        ∀ n, nodes.lookup x.NodeID = some n → ∃ node, n = some node ∧ node.TerminalStatus = false := by
  intro r
  set a := NewAllocReconciler allocUpdateFn false jobID (some job) none existing nodes evalID now
    uuids
  set all := existing.filter (·.TaskGroup = g)
  obtain ⟨a₀, a₁, a₃, -, -, hn₀, -, f₁, f₂, hS, hP, hD⟩ := a.Compute_around job rfl hstop hid htg
  -- with no deployment the run starts from the reconciler itself
  have hc := a.cancelDeployments_none job rfl hstop rfl
  obtain rfl : a₀ = a := (hn₀ (by rw [hc]; rfl)).trans hc
  change allocReconciler.AwayFrame g existing (a₁.computeGroup job g all).1 a₃ at f₂
  have fg := a₁.computeGroup_frame job g all
  -- `g`'s run sees the settings `Compute` starts with
  have hset := f₁.settings
  simp only [allocReconciler.settings, Prod.mk.injEq] at hset
  obtain ⟨hb, ho, hp, hf, ht, -⟩ := hset
  have hall' : ∀ x ∈ all, _ := fun x hx =>
    hall x (List.mem_of_mem_filter hx) (of_decide_eq_true (List.mem_filter.mp hx).2)
  obtain ⟨δS, δP, δD, hδS, hδP, hδD, hcount, hnode⟩ := a₁.computeGroup_clean job g tg all hb ho hp
    hf (f₁.deployment fun _ hd => by cases hd) htg hu hcan hC hC64 hall'
    (hid.sublist (List.filter_sublist.map _)) (lt_of_le_of_lt (List.length_filter_le _ _) hlen)
  -- the stops of the result, around what `g`'s run appended
  obtain ⟨S₁, hS₁, pS₁⟩ := f₁.stop
  obtain ⟨S₂, hS₂, pS₂⟩ := f₂.stop
  obtain ⟨D₁, hD₁, pD₁⟩ := f₁.destructive
  obtain ⟨D₂, hD₂, pD₂⟩ := f₂.destructive
  have hstopL : r.stop = S₁ ++ δS ++ S₂ := by rw [hS, hS₂, hδS, hS₁]; rfl
  have hdestL : r.destructiveUpdate = D₁ ++ δD ++ D₂ := by rw [hD, hD₂, hδD, hD₁]; rfl
  have hstopped : ∀ x ∈ all, x.ID ∈ r.stoppedIDs ↔
      x.ID ∈ δS.map (·.alloc.ID) ++ δD.map (·.stopAlloc.ID) := by
    intro x hx
    obtain ⟨hxe, hxg⟩ := List.mem_filter.mp hx
    simp only [reconcileResults.stoppedIDs, List.mem_append, hstopL, hdestL]
    exact (mem_ids_around (·.alloc : allocStopResult → Allocation) hid pS₁ pS₂ hxe
        (of_decide_eq_true hxg)).or
      (mem_ids_around (·.stopAlloc : allocDestructiveResult → Allocation) hid
        (fun e he => (pD₁ e he).2) (fun e he => (pD₂ e he).2) hxe (of_decide_eq_true hxg))
  have hkept : (existing.filter fun x => x.ID ∉ r.stoppedIDs ∧ x.TerminalStatus = false ∧
      x.TaskGroup = g) =
      all.filter fun x => decide (x.ID ∉ δS.map (·.alloc.ID) ++ δD.map (·.stopAlloc.ID)) := by
    rw [List.filter_filter]
    refine List.filter_congr fun x hx => ?_
    by_cases hg : x.TaskGroup = g
    · have hxa : x ∈ all := List.mem_filter.mpr ⟨hx, decide_eq_true hg⟩
      have hterm := Allocation.terminalStatus_of_running (hall' x hxa).1 (hall' x hxa).2.1
      simp [hstopped x hxa, hterm, hg]
    · simp [hg]
  have hplace : r.place.filter (·.taskGroup.Name = g) = δP := by
    rw [hP]
    exact place_filter_around (fun e he => by cases he) f₁ fg f₂ hδP
  have hdest : r.destructiveUpdate.filter (·.placeTaskGroup.Name = g) = δD := by
    rw [hD]
    exact destructive_filter_around (fun e he => by cases he) f₁ fg f₂ hδD
  refine ⟨?_, fun x hx hg hk => ?_⟩
  · rw [length_liveIn, hkept, hplace, hdest]
    exact hcount
  · -- a kept allocation of `g` is one its run kept: an untainted one
    have hxa : x ∈ all := List.mem_filter.mpr ⟨hx, decide_eq_true hg⟩
    have hu := hnode x hxa fun h => hk ((hstopped x hxa).mpr h)
    rw [ht] at hu
    exact node_ok_of_mem_untainted hu
      (Allocation.terminalStatus_of_running (hall' x hxa).1 (hall' x hxa).2.1)

/-- `web[0]` runs on the down node `n1` and `web[1]` on `n2`: the lost one is replaced, and the
group has its two live allocations. -/
theorem Compute_live_count_lostNode :
    let r := (NewAllocReconciler (fun x _ _ => (true, false, x)) false "example" (some webJob) none
      [webAlloc "a0" 0 "n1" .running, webAlloc "a1" 1 "n2" .running] downN1 "eval1" (Time.Unix 0 0)
      fun _ => "uuid").Compute
    (liveIn r [webAlloc "a0" 0 "n1" .running, webAlloc "a1" 1 "n2" .running] "web").length =
        webGroup.Count.toNat ∧
      ∀ x ∈ [webAlloc "a0" 0 "n1" .running, webAlloc "a1" 1 "n2" .running], x.TaskGroup = "web" →
        x.ID ∉ r.stoppedIDs →
        ∀ n, downN1.lookup x.NodeID = some n → ∃ node, n = some node ∧ node.TerminalStatus = false :=
  Compute_live_count _ _ webJob _ downN1 _ _ _ "web" webGroup rfl rfl rfl (fun _ h => by cases h)
    (by decide) (by decide) (by decide) (by decide) (by decide)

def soloGroup : TaskGroup :=
  { Name := "web", Count := 1, Update := none, ReschedulePolicy := some immediateReschedule }

def soloJob : Job := { webJob with TaskGroups := [soloGroup] }

/-- Two running allocations of `soloGroup`; `web[0]` is marked for a forced reschedule. -/
def forcedAllocs : List Allocation :=
  [{ webAlloc "a0" 0 "n1" .running with Job := soloJob, DesiredTransition := ⟨none, none, some true⟩ },
    { webAlloc "a1" 1 "n2" .running with Job := soloJob }]

def forcedReconciler : allocReconciler :=
  NewAllocReconciler (fun x _ _ => (true, false, x)) false "example" (some soloJob) none forcedAllocs
    ∅ "eval1" (Time.Unix 0 0) fun _ => "uuid"

/-- The forced `web[0]` is rescheduled, outside the untainted set, so `computeStop` weighs only
`web[1]` against the count and stops nothing: `web[1]` stays and a new `web[0]` is placed, two
live allocations for a count of one. -/
theorem forcedReschedule_exceeds_count :
    (liveIn forcedReconciler.Compute forcedAllocs "web").map planned.name = [1, 0] ∧
      (liveIn forcedReconciler.Compute forcedAllocs "web").length ≠ soloGroup.Count.toNat := by
  decide

/-- A strategy with `MaxParallel` 0, which counts as empty, that asks for one canary. -/
def canaryUpdate : UpdateStrategy :=
  { MaxParallel := 0, Canary := 1, AutoRevert := false, AutoPromote := false, ProgressDeadline := 0 }

def canaryGroup : TaskGroup := { soloGroup with Update := some canaryUpdate }

def canaryJob (v : Nat) : Job :=
  { soloJob with Version := v, JobModifyIndex := v, TaskGroups := [canaryGroup] }

def canaryAllocs : List Allocation := [{ webAlloc "a0" 0 "n1" .running with Job := canaryJob 0 }]

def canaryReconciler : allocReconciler :=
  NewAllocReconciler
    (fun x j _ => if x.Job.JobModifyIndex = j.JobModifyIndex then (true, false, x) else (false, true, x))
    false "example" (some (canaryJob 1)) none canaryAllocs ∅ "eval1" (Time.Unix 0 0) fun _ => "uuid"

/-- `web[0]` of version 0 needs a destructive update to version 1. The empty strategy still asks
for its canary, and while the group is canarying the destructive update waits: the old `web[0]`
and the canary `web[0]` are both live, two for a count of one. -/
theorem canary_exceeds_count :
    UpdateStrategy.IsEmpty canaryGroup.Update = true ∧
      (liveIn canaryReconciler.Compute canaryAllocs "web").map planned.name = [0, 0] ∧
      (liveIn canaryReconciler.Compute canaryAllocs "web").length ≠ canaryGroup.Count.toNat := by
  decide

end Nomad.Scheduler
