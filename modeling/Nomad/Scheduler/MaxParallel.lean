import Nomad.Scheduler.ReconcileCount

/-!
# Destructive updates and `max_parallel`

`computeGroup` computes a group's limit once, with `computeLimit`, from the untainted allocations
it has left after taking out the old terminal ones, the stopped canaries, those on tainted nodes,
those to reschedule now and those it stops (`limitUntainted`). Placements take from the limit
first; destructive updates get what is left, and only while the deployment is ready: neither
paused, nor failed, nor waiting on canaries.

`computeGroup_respects_maxParallel`: a group with an update strategy makes no destructive update
while its deployment is paused or failed, waits on its canaries, or has an unhealthy allocation
among the untainted ones; and when it makes `k ≥ 1`, those `k`, the group's new and rescheduling
placements and its untainted allocations in the deployment whose health is not set fit in
`MaxParallel`.

`Compute_respects_maxParallel` lifts the budget to the whole of `Compute`. The run over the
allocation matrix splits around the group as in `Compute_live_count`: the other groups' runs keep
the settings and the group's state in the deployment (`AwayFrame`), so the group's own run sees
the pause, the failure and the canary state of the job's current deployment, and what the result
holds for the group is what that run appended.
-/

namespace Nomad.Scheduler

open Go Structs Container

/-- A placement that is neither a canary nor a migration: a new allocation, a replacement of a
lost one or a rescheduled one. -/
def allocPlaceResult.NewOrRescheduled (p : allocPlaceResult) : Bool :=
  !p.canary && (p.previousAlloc.isNone || p.reschedule)

namespace allocReconciler

variable (a : allocReconciler)

/-- The allocations of `U` in the reconciler's deployment: `partOf` in `computeLimit`. -/
def inDeployment (U : allocSet) : allocSet :=
  match a.deployment with
  | some d => (filterByDeployment U d.ID).1
  | none => []

/-- The set `computeGroup` hands `computeLimit` as untainted for the group `g` of the job, by the
steps `computeGroup` takes up to that call. -/
def limitUntainted (job : Job) (g : String) (all : allocSet) (tg : TaskGroup) : allocSet :=
  let (dstate, _) := a.groupDeploymentState tg g
  let (all, ignore) := a.filterOldTerminalAllocs job all
  let desiredChanges : DesiredUpdates := { Ignore := ignore.length }
  let (a, canaries, all, _) := a.handleGroupCanaries all desiredChanges
  let (untainted, migrate, lost) := filterByTainted all a.taintedNodes
  let (untainted, rescheduleNow, rescheduleLater) :=
    filterByRescheduleable untainted a.batch a.now a.evalID a.deployment
  let a := a.handleDelayedReschedules job rescheduleLater all tg.Name
  let nameIndex := newAllocNameIndex a.jobID g tg.Count (untainted.union [migrate, rescheduleNow])
  let canaryState := dstate.DesiredCanaries ≠ 0 && !dstate.Promoted
  let (_, stop, _, _) := a.computeStop tg nameIndex untainted migrate lost canaries canaryState
  let untainted := untainted.difference [stop]
  if canaryState then untainted.difference [canaries] else untainted

-- ---------------------------------------------------------------------------
-- The limit
-- ---------------------------------------------------------------------------

theorem computeLimit_of_ready (tg : TaskGroup) (s : UpdateStrategy) (U D M : allocSet)
    (hs : tg.Update = some s) (hne : UpdateStrategy.IsEmpty tg.Update = false) (hD : D ≠ [])
    (hp : a.deploymentPaused = false) (hf : a.deploymentFailed = false) :
    a.computeLimit tg U D M false =
      if (a.inDeployment U).any (AllocDeploymentStatus.IsUnhealthy ·.DeploymentStatus) then 0
      else max 0 (s.MaxParallel -
        ((a.inDeployment U).filter (!AllocDeploymentStatus.IsHealthy ·.DeploymentStatus)).length) := by
  have hlen : D.length + M.length ≠ 0 := by
    have := List.length_pos_of_ne_nil hD
    omega
  have hne' : UpdateStrategy.IsEmpty (some s) = false := hs ▸ hne
  unfold computeLimit inDeployment
  -- the loop over `partOf` returns zero at an unhealthy allocation; `limit < 0` clamps at zero
  cases a.deployment <;>
    simp only [hne', hlen, hp, hf, hs, decide_false, Bool.or_self, Bool.false_eq_true, if_false,
      Option.map_some, Option.getD_some, max_def] <;> split_ifs <;> first | rfl | omega

theorem filter_not_healthy {P : allocSet}
    (hP : ∀ x ∈ P, AllocDeploymentStatus.IsUnhealthy x.DeploymentStatus = false) :
    P.filter (!AllocDeploymentStatus.IsHealthy ·.DeploymentStatus) =
      P.filter fun x => (x.DeploymentStatus.bind (·.Healthy)).isNone := by
  refine List.filter_congr fun x hx => ?_
  have hu := hP x hx
  rcases hst : x.DeploymentStatus with _ | ⟨_ | _ | _, c⟩ <;>
    simp_all [AllocDeploymentStatus.IsHealthy, AllocDeploymentStatus.IsUnhealthy]

-- ---------------------------------------------------------------------------
-- What each block appends to the placements and destructive updates
-- ---------------------------------------------------------------------------

section blocks

theorem lists_of_frame {all : allocSet} {a' : allocReconciler} (h : ∀ g, GroupFrame g all a a') :
    a'.result.place = a.result.place ∧ a'.result.destructiveUpdate = a.result.destructiveUpdate :=
  ⟨GrowsBy.eq_of_disjoint (h "").place (h "0").place fun _ h₁ h₂ =>
      absurd (h₁.1.symm.trans h₂.1) (by decide),
    GrowsBy.eq_of_disjoint (h "").destructive (h "0").destructive fun _ h₁ h₂ =>
      absurd (h₁.1.symm.trans h₂.1) (by decide)⟩

theorem placeCanaries_lists {tg : TaskGroup} {ex rc : Bool} {ni : allocNameIndex} {can D : allocSet}
    {dc : DesiredUpdates} {ds : DeploymentState} {a' : allocReconciler} {ni' : allocNameIndex}
    {dc' : DesiredUpdates} {ds' : DeploymentState}
    (h : a.placeCanaries tg ex rc ni can D dc ds = (a', ni', dc', ds')) :
    (∃ cp, a'.result.place = a.result.place ++ cp ∧ ∀ e ∈ cp, e.canary = true) ∧
      a'.result.destructiveUpdate = a.result.destructiveUpdate ∧ a'.settings = a.settings ∧
      a'.deployment = a.deployment ∧ ds'.Promoted = ds.Promoted ∧ (ex = true → ds' = ds) := by
  unfold placeCanaries at h
  split at h
  · simp only [Prod.mk.injEq] at h
    obtain ⟨rfl, -, -, rfl⟩ := h
    refine ⟨⟨_, rfl, fun e he => ?_⟩, rfl, rfl, rfl, by split <;> rfl, fun hex => by simp [hex]⟩
    obtain ⟨n, -, rfl⟩ := List.mem_map.mp he
    rfl
  · simp only [Prod.mk.injEq] at h
    obtain ⟨rfl, -, -, rfl⟩ := h
    exact ⟨⟨[], by simp, by simp⟩, rfl, rfl, rfl, rfl, fun _ => rfl⟩

theorem placeReady_lists {place : List allocPlaceResult} {R : allocSet} {lim : Int}
    {dc : DesiredUpdates} {a' : allocReconciler} {dc' : DesiredUpdates} {lim' : Int}
    (h : a.placeReady place R lim dc = (a', dc', lim')) :
    a'.result.place = a.result.place ++ place ∧
      a'.result.destructiveUpdate = a.result.destructiveUpdate ∧ lim' = lim - min (place.length : Int) lim := by
  simp only [placeReady, Prod.mk.injEq] at h
  obtain ⟨rfl, -, rfl⟩ := h
  exact ⟨rfl, rfl, rfl⟩

theorem placeNotReady_lists {place : List allocPlaceResult} {L R : allocSet} {dc : DesiredUpdates}
    {a' : allocReconciler} {dc' : DesiredUpdates} (h : a.placeNotReady place L R dc = (a', dc')) :
    (∃ δ, a'.result.place = a.result.place ++ δ) ∧
      a'.result.destructiveUpdate = a.result.destructiveUpdate := by
  unfold placeNotReady at h
  -- the lost block and the rescheduling block each append placements, and stops
  obtain ⟨a₁, dc₁, h₁, ⟨δ₁, hδ₁⟩, hd₁⟩ : ∃ a₁ dc₁, (if L.length ≠ 0 then
      (a.withResult (·.addPlace (place.take (min L.length place.length))),
        { dc with Place := dc.Place + min L.length place.length })
      else (a, dc)) = (a₁, dc₁) ∧ (∃ δ, a₁.result.place = a.result.place ++ δ) ∧
      a₁.result.destructiveUpdate = a.result.destructiveUpdate := by
    split
    · exact ⟨_, _, rfl, ⟨_, rfl⟩, rfl⟩
    · exact ⟨_, _, rfl, ⟨[], by simp⟩, rfl⟩
  rw [h₁] at h
  dsimp only at h
  split at h
  · simp only [Prod.mk.injEq] at h
    obtain ⟨rfl, -⟩ := h
    exact ⟨⟨_, (congrArg (· ++ _) hδ₁).trans (List.append_assoc _ _ _)⟩, hd₁⟩
  · simp only [Prod.mk.injEq] at h
    obtain ⟨rfl, -⟩ := h
    exact ⟨⟨δ₁, hδ₁⟩, hd₁⟩

theorem placeDestructive_lists {tg : TaskGroup} {rdy : Bool} {D : allocSet} {lim : Int}
    {dc : DesiredUpdates} {a' : allocReconciler} {dc' : DesiredUpdates}
    (h : a.placeDestructive tg rdy D lim dc = (a', dc')) :
    a'.result.place = a.result.place ∧ ∃ δ, a'.result.destructiveUpdate = a.result.destructiveUpdate ++ δ ∧
      (δ ≠ [] → rdy = true ∧ δ.length = (min (D.length : Int) lim).toNat) := by
  unfold placeDestructive at h
  split at h
  · next hrdy =>
    simp only [Prod.mk.injEq] at h
    obtain ⟨rfl, -⟩ := h
    refine ⟨rfl, _, rfl, fun _ => ⟨hrdy, ?_⟩⟩
    simp only [List.length_map, List.length_take, allocSet.length_nameOrder]
    omega
  · simp only [Prod.mk.injEq] at h
    obtain ⟨rfl, -⟩ := h
    exact ⟨rfl, [], by simp, fun h => absurd rfl h⟩

theorem placeMigrations_lists {tg : TaskGroup} {M : allocSet} {dc : DesiredUpdates}
    {a' : allocReconciler} {dc' : DesiredUpdates} (h : a.placeMigrations tg M dc = (a', dc')) :
    (∃ mp, a'.result.place = a.result.place ++ mp ∧ ∀ e ∈ mp, e.NewOrRescheduled = false) ∧
      a'.result.destructiveUpdate = a.result.destructiveUpdate := by
  simp only [placeMigrations, Prod.mk.injEq] at h
  obtain ⟨rfl, -⟩ := h
  refine ⟨⟨_, rfl, fun e he => ?_⟩, rfl⟩
  -- a migration replaces its allocation and is not a rescheduling
  obtain ⟨x, -, rfl⟩ := List.mem_map.mp he
  rfl

theorem attachDeployment_lists (job : Job) (g : String) (ds : DeploymentState) :
    (a.attachDeployment job g ds).result.place = a.result.place ∧
      (a.attachDeployment job g ds).result.destructiveUpdate = a.result.destructiveUpdate := by
  unfold attachDeployment
  cases a.deployment <;> simp only [setDeployment] <;> split <;> exact ⟨rfl, rfl⟩

end blocks

theorem computeLimit_congr {a' : allocReconciler} (hp : a'.deploymentPaused = a.deploymentPaused)
    (hf : a'.deploymentFailed = a.deploymentFailed) (hd : a'.deployment = a.deployment)
    (tg : TaskGroup) (U D M : allocSet) (cs : Bool) :
    a'.computeLimit tg U D M cs = a.computeLimit tg U D M cs := by
  simp only [computeLimit, hp, hf, hd]

theorem groupDeploymentState_of_lookup (tg : TaskGroup) (g : String) {d : Deployment}
    {ds : DeploymentState} (hd : a.deployment = some d) (hds : d.TaskGroups.lookup g = some ds) :
    a.groupDeploymentState tg g = (ds, true) := by
  simp [groupDeploymentState, hd, hds]

-- ---------------------------------------------------------------------------
-- The group's budget
-- ---------------------------------------------------------------------------

/-- What `computeGroup` appends for a group of the job: placements `δP` and destructive updates
`δD`, these only when the deployment is ready, as many as the limit leaves after the placements
it takes from, and the new and rescheduling placements among `δP` are placements the limit was
taken from. -/
theorem computeGroup_destructive_spec (job : Job) (g : String) (all : allocSet) (tg : TaskGroup)
    (htg : job.LookupTaskGroup g = some tg) :
    ∃ δP δD, (a.computeGroup job g all).1.result.place = a.result.place ++ δP ∧
      (a.computeGroup job g all).1.result.destructiveUpdate = a.result.destructiveUpdate ++ δD ∧
      (δD ≠ [] → a.deploymentPaused = false ∧ a.deploymentFailed = false ∧
        ((a.groupDeploymentState tg g).2 = true → (a.groupDeploymentState tg g).1.DesiredCanaries = 0 ∨
          (a.groupDeploymentState tg g).1.Promoted = true) ∧
        ∃ (D M : allocSet) (place : List allocPlaceResult),
          (δP.filter (·.NewOrRescheduled)).length ≤ place.length ∧
          δD.length = (min (D.length : Int)
            (a.computeLimit tg (a.limitUntainted job g all tg) D M false -
              min (place.length : Int) (a.computeLimit tg (a.limitUntainted job g all tg) D M false))).toNat) := by
  unfold computeGroup
  split
  · simp_all
  next tg' htg' =>
  rw [htg] at htg'
  cases htg'
  dsimp -iota only
  split
  next dstate ex hds =>
  split
  next all₁ ign hfo =>
  split
  next a₁ can all₂ dc hgc =>
  split
  next U M L hT =>
  split
  next U₂ R₁ R₂ hR =>
  split
  next a₂ stop M₂ ni₂ hcs =>
  split
  next a₃ ign₂ inp D hcu =>
  split
  next a₄ ni₄ dc₄ ds₄ hpc =>
  split
  next ni₅ place hcp =>
  split
  next a₅ dc₅ lim₅ hpl =>
  split
  next a₆ dc₆ hpd =>
  split
  next a₇ dc₇ hpm =>
  -- the untainted set `computeLimit` is handed
  have hU : a.limitUntainted job g all tg =
      if (decide (dstate.DesiredCanaries ≠ 0) && !dstate.Promoted) then
        (U₂.difference [stop]).difference [can] else U₂.difference [stop] := by
    simp only [limitUntainted, hds, hfo, hgc, hT, hR, hcs]
  -- up to `placeCanaries` the blocks keep the settings and the deployment, and append neither
  -- placements nor destructive updates
  have f₁ := fun g' => (a.handleGroupCanaries_frame (g := g') hgc).1
  have hw := a₁.handleDelayedReschedules_work job R₂ all₂ tg.Name
  simp only [work, Prod.mk.injEq] at hw
  have hsub : ∀ X : allocSet, (X = U₂ ∨ X = M ∨ X = L) → X ⊆ U₂ ++ M ++ L := by
    rintro X (rfl | rfl | rfl) x hx <;> simp [hx]
  have f₂ := fun g' => computeStop_frame (g := g') _ hcs (hsub U₂ (.inl rfl))
    (hsub M (.inr (.inl rfl))) (hsub L (.inr (.inr rfl)))
  have f₃ := fun g' => (computeUpdates_frame (g := g') _ hcu : GroupFrame g' all _ _ ∧ _ ∧ _)
  obtain ⟨⟨cp, hcp₁, hcp₂⟩, hcd, hs₄, hd₄, hprom, hex⟩ := a₃.placeCanaries_lists hpc
  have hl₃ : a₃.result.place = a.result.place ∧ a₃.result.destructiveUpdate = a.result.destructiveUpdate := by
    obtain ⟨h₁p, h₁d⟩ := a.lists_of_frame f₁
    obtain ⟨h₂p, h₂d⟩ := lists_of_frame _ fun g' => (f₂ g').1
    obtain ⟨h₃p, h₃d⟩ := lists_of_frame _ fun g' => (f₃ g').1
    exact ⟨by rw [h₃p, h₂p, hw.2.2.2.1, h₁p], by rw [h₃d, h₂d, hw.2.2.2.2, h₁d]⟩
  have hs₃ : a₄.settings = a.settings := by
    rw [hs₄, (f₃ g).1.settings, (f₂ g).1.settings, hw.1, (f₁ g).settings]
  have hd₃ : a₄.deployment = a.deployment := by
    rw [hd₄, (f₃ g).2.1, (f₂ g).2.2, hw.2.1, (a.handleGroupCanaries_frame (g := g) hgc).2.2.2]
  simp only [settings, Prod.mk.injEq] at hs₃
  obtain ⟨-, -, hpaused, hfailed, -⟩ := hs₃
  have hlim := a.computeLimit_congr hpaused hfailed hd₃ tg
  -- after `placeCanaries`, the blocks run on whether the deployment is ready
  generalize hrdy : (!a₄.deploymentPaused && !a₄.deploymentFailed &&
    !(decide (ds₄.DesiredCanaries ≠ 0) && !ds₄.Promoted)) = rdy at hpl hpd
  obtain ⟨hp₆, δ, hδ, hδrdy⟩ := a₅.placeDestructive_lists hpd
  obtain ⟨⟨mp, hmp, hmp'⟩, hmd⟩ := a₆.placeMigrations_lists hpm
  have hfin := a₇.attachDeployment_lists job g
  -- the final blocks append nothing more to the two lists
  have hlast : ∀ (c : Prop) [Decidable c] (ds : DeploymentState) (dc : DesiredUpdates),
      ((if c then a₇.attachDeployment job g ds else a₇).setDesired g dc).result.place =
        a₇.result.place ∧
      ((if c then a₇.attachDeployment job g ds else a₇).setDesired g dc).result.destructiveUpdate =
        a₇.result.destructiveUpdate := by
    intro c _ ds dc
    split
    · exact hfin ds
    · exact ⟨rfl, rfl⟩
  cases rdy with
  | false =>
    -- not ready: no destructive update
    simp only [Bool.false_eq_true, if_false] at hpl
    rcases hnr : a₄.placeNotReady place L R₁ dc₄ with ⟨a', dc'⟩
    rw [hnr] at hpl
    simp only [Prod.mk.injEq] at hpl
    obtain ⟨rfl, rfl, -⟩ := hpl
    obtain ⟨⟨δn, hδn⟩, hdn⟩ := a₄.placeNotReady_lists hnr
    have hδ0 : δ = [] := by
      by_contra h
      exact absurd (hδrdy h).1 (by decide)
    subst hδ0
    refine ⟨cp ++ δn ++ mp, [], ?_, ?_, fun h => absurd rfl h⟩
    · rw [(hlast _ _ _).1, hmp, hp₆, hδn, hcp₁, hl₃.1, List.append_assoc, List.append_assoc,
        List.append_assoc]
    · rw [(hlast _ _ _).2, hmd, hδ, hdn, hcd, hl₃.2]
  | true =>
    simp only [if_true] at hpl
    obtain ⟨hp₅, hd₅, rfl⟩ := a₄.placeReady_lists hpl
    have hready := hrdy
    simp only [Bool.and_eq_true, Bool.not_eq_true'] at hready
    refine ⟨cp ++ place ++ mp, δ, ?_, ?_, fun hne => ?_⟩
    · rw [(hlast _ _ _).1, hmp, hp₆, hp₅, hcp₁, hl₃.1, List.append_assoc, List.append_assoc,
        List.append_assoc]
    · rw [(hlast _ _ _).2, hmd, hδ, hd₅, hcd, hl₃.2]
    obtain ⟨-, hlen⟩ := hδrdy hne
    refine ⟨hpaused ▸ hready.1.1, hfailed ▸ hready.1.2, fun hex' => ?_, D, M₂, place, ?_, ?_⟩
    · -- a state already in the deployment is kept, and it does not wait on canaries
      rw [hds] at hex' ⊢
      have hds₄ : ds₄ = dstate := by
        rw [hex hex']
        simp [show ex = true from hex']
      have hcs := hready.2
      rw [hds₄] at hcs
      simpa [Decidable.or_iff_not_imp_left] using hcs
    · -- the canaries and the migrations are not new or rescheduling placements
      have hcpf : cp.filter (·.NewOrRescheduled) = [] := List.filter_eq_nil_iff.2 fun e he => by
        simp [allocPlaceResult.NewOrRescheduled, hcp₂ e he]
      have hmpf : mp.filter (·.NewOrRescheduled) = [] := List.filter_eq_nil_iff.2 fun e he => by
        simp [hmp' e he]
      rw [List.filter_append, List.filter_append, hcpf, hmpf, List.nil_append, List.append_nil]
      exact List.length_filter_le _ _
    · rw [hlen, ← hU, hready.2, hlim]

/-- With a destructive update, `computeGroup` found the deployment ready and the limit not spent:
neither paused nor failed, the group's state not waiting on canaries, no untainted allocation in
the deployment unhealthy, and the destructive updates, the new and rescheduling placements and
the untainted allocations in the deployment whose health is not set within `MaxParallel`. -/
theorem computeGroup_destructive_ready (job : Job) (g : String) (all : allocSet) (tg : TaskGroup)
    (s : UpdateStrategy) (htg : job.LookupTaskGroup g = some tg) (hs : tg.Update = some s)
    (hne : UpdateStrategy.IsEmpty tg.Update = false) :
    let P := a.inDeployment (a.limitUntainted job g all tg)
    ∃ δP δD, (a.computeGroup job g all).1.result.place = a.result.place ++ δP ∧
      (a.computeGroup job g all).1.result.destructiveUpdate = a.result.destructiveUpdate ++ δD ∧
      (δD ≠ [] → a.deploymentPaused = false ∧ a.deploymentFailed = false ∧
        (∀ d ds, a.deployment = some d → d.TaskGroups.lookup g = some ds →
          ds.DesiredCanaries = 0 ∨ ds.Promoted = true) ∧
        (∀ x ∈ P, AllocDeploymentStatus.IsUnhealthy x.DeploymentStatus = false) ∧
        (δD.length : Int) + (δP.filter (·.NewOrRescheduled)).length +
          (P.filter fun x => (x.DeploymentStatus.bind (·.Healthy)).isNone).length ≤ s.MaxParallel) := by
  dsimp only
  set P := a.inDeployment (a.limitUntainted job g all tg) with hPdef
  obtain ⟨δP, δD, hP, hD, hspec⟩ := a.computeGroup_destructive_spec job g all tg htg
  refine ⟨δP, δD, hP, hD, fun hδ => ?_⟩
  obtain ⟨hp, hf, hcan, D, M, place, hplace, hlen⟩ := hspec hδ
  have hpos : 0 < δD.length := List.length_pos_of_ne_nil hδ
  have hD : D ≠ [] := by
    rintro rfl
    simp only [List.length_nil] at hlen
    omega
  rw [a.computeLimit_of_ready tg s _ D M hs hne hD hp hf, ← hPdef] at hlen
  -- an unhealthy allocation would leave no limit
  have hhealth : ∀ x ∈ P, AllocDeploymentStatus.IsUnhealthy x.DeploymentStatus = false := by
    intro x hx
    by_contra hx'
    have hany : (P.any (AllocDeploymentStatus.IsUnhealthy ·.DeploymentStatus)) = true :=
      List.any_eq_true.2 ⟨x, hx, by simpa using hx'⟩
    rw [if_pos hany] at hlen
    omega
  refine ⟨hp, hf, fun d ds hd hds => ?_, hhealth, ?_⟩
  · have h := hcan (by rw [a.groupDeploymentState_of_lookup tg g hd hds])
    rwa [a.groupDeploymentState_of_lookup tg g hd hds] at h
  · have hany : (P.any (AllocDeploymentStatus.IsUnhealthy ·.DeploymentStatus)) = false :=
      List.any_eq_false.2 fun x hx => by simp [hhealth x hx]
    rw [hany, filter_not_healthy hhealth] at hlen
    simp only [Bool.false_eq_true, if_false] at hlen
    omega

/-- A group with an update strategy of `MaxParallel` `m`: `computeGroup` appends placements `δP` and
destructive updates `δD`. It appends no destructive update while the deployment is paused or
failed, while the group's state in the deployment waits on unpromoted canaries, or while one of
the untainted allocations in the deployment is unhealthy. When it appends `k ≥ 1`, those `k`, its
new and rescheduling placements and its untainted allocations in the deployment whose health is
not set number at most `m`. -/
theorem computeGroup_respects_maxParallel (job : Job) (g : String) (all : allocSet) (tg : TaskGroup)
    (s : UpdateStrategy) (htg : job.LookupTaskGroup g = some tg) (hs : tg.Update = some s)
    (hne : UpdateStrategy.IsEmpty tg.Update = false) :
    let partOf := a.inDeployment (a.limitUntainted job g all tg)
    ∃ δP δD, (a.computeGroup job g all).1.result.place = a.result.place ++ δP ∧
      (a.computeGroup job g all).1.result.destructiveUpdate = a.result.destructiveUpdate ++ δD ∧
      ((a.deploymentPaused = true ∨ a.deploymentFailed = true ∨
          (∃ d ds, a.deployment = some d ∧ d.TaskGroups.lookup g = some ds ∧
            0 < ds.DesiredCanaries ∧ ds.Promoted = false) ∨
          ∃ x ∈ partOf, AllocDeploymentStatus.IsUnhealthy x.DeploymentStatus = true) → δD = []) ∧
      (1 ≤ δD.length → (δD.length : Int) + (δP.filter (·.NewOrRescheduled)).length +
        (partOf.filter fun x => (x.DeploymentStatus.bind (·.Healthy)).isNone).length ≤ s.MaxParallel) := by
  dsimp only
  obtain ⟨δP, δD, hP, hD, hready⟩ := a.computeGroup_destructive_ready job g all tg s htg hs hne
  refine ⟨δP, δD, hP, hD, fun hcond => ?_, fun hk => (hready (List.ne_nil_of_length_pos hk)).2.2.2.2⟩
  by_contra hδ
  obtain ⟨hp, hf, hcan, hhealth, -⟩ := hready hδ
  rcases hcond with h | h | ⟨d, ds, hd, hds, hdc, hpr⟩ | ⟨x, hx, hu⟩
  · simp [hp] at h
  · simp [hf] at h
  · rcases hcan d ds hd hds with h | h
    · omega
    · simp [hpr] at h
  · simp [hhealth x hx] at hu

end allocReconciler

def rollingUpdate : UpdateStrategy :=
  { MaxParallel := 1, Canary := 0, AutoRevert := false, AutoPromote := false, ProgressDeadline := 0 }

def rollingGroup : TaskGroup :=
  { Name := "web", Count := 2, Update := some rollingUpdate, ReschedulePolicy := none }

def rollingJob (v : Nat) : Job :=
  { ID := "example", Namespace := "default", «Type» := "service", Priority := 50, Stop := false,
    Version := v, CreateIndex := 10, ModifyIndex := v, JobModifyIndex := v, TaskGroups := [rollingGroup] }

def rollingAlloc (id : String) (idx : Nat) : Allocation :=
  { ID := id, Name := idx, JobID := "example", Job := rollingJob 0, TaskGroup := "web",
    NodeID := "n1", DesiredStatus := .run, DesiredTransition := ⟨none, none, none⟩,
    ClientStatus := .running, DeploymentID := "", DeploymentStatus := none, TaskStates := [],
    RescheduleTracker := none, NextAllocation := "", FollowupEvalID := "", ModifyTime := 0 }

def rollingAllocs : List Allocation := [rollingAlloc "a0" 0, rollingAlloc "a1" 1]

/-- The reconciler for version 1, under which an allocation of another version is updated
destructively. -/
def rollingReconciler : allocReconciler :=
  NewAllocReconciler
    (fun x j _ => if x.Job.JobModifyIndex = j.JobModifyIndex then (true, false, x) else (false, true, x))
    false "example" (some (rollingJob 1)) none rollingAllocs ∅ "eval1" (Time.Unix 0 0) fun _ => "uuid"

theorem computeGroup_respects_maxParallel_rolling :
    (rollingJob 1).LookupTaskGroup "web" = some rollingGroup ∧ rollingGroup.Update = some rollingUpdate ∧
      UpdateStrategy.IsEmpty rollingGroup.Update = false ∧
      let a := rollingReconciler
      let partOf := a.inDeployment (a.limitUntainted (rollingJob 1) "web" rollingAllocs rollingGroup)
      ∃ δP δD, (a.computeGroup (rollingJob 1) "web" rollingAllocs).1.result.place = a.result.place ++ δP ∧
        (a.computeGroup (rollingJob 1) "web" rollingAllocs).1.result.destructiveUpdate =
          a.result.destructiveUpdate ++ δD ∧
        ((a.deploymentPaused = true ∨ a.deploymentFailed = true ∨
            (∃ d ds, a.deployment = some d ∧ d.TaskGroups.lookup "web" = some ds ∧
              0 < ds.DesiredCanaries ∧ ds.Promoted = false) ∨
            ∃ x ∈ partOf, AllocDeploymentStatus.IsUnhealthy x.DeploymentStatus = true) → δD = []) ∧
        (1 ≤ δD.length → (δD.length : Int) + (δP.filter (·.NewOrRescheduled)).length +
          (partOf.filter fun x => (x.DeploymentStatus.bind (·.Healthy)).isNone).length ≤
            rollingUpdate.MaxParallel) :=
  ⟨by decide, rfl, rfl, rollingReconciler.computeGroup_respects_maxParallel (rollingJob 1) "web"
    rollingAllocs rollingGroup rollingUpdate (by decide) rfl rfl⟩

/-- One of the two allocations is replaced: `MaxParallel` is one. -/
example : ((rollingReconciler.computeGroup (rollingJob 1) "web" rollingAllocs).1.result.destructiveUpdate.map
    (·.stopAlloc.ID)) = ["a0"] := by
  decide

-- ---------------------------------------------------------------------------
-- The whole of `Compute`
-- ---------------------------------------------------------------------------

/-- A group with an update strategy of `MaxParallel` `m`, over the whole of `Compute` for a live
job. When the result holds a destructive update for the group, the group's destructive updates
and its new and rescheduling placements number at most `m`. It holds none while the deployment of
the job's current version is paused or failed, or has not succeeded and holds a state of the
group that waits on unpromoted canaries. -/
theorem Compute_respects_maxParallel (allocUpdateFn : allocUpdateType) (batch : Bool)
    (jobID : String) (job : Job) (deployment : Option Deployment) (existing : List Allocation)
    (nodes : Map String (Option Node)) (evalID : String) (now : Time) (uuids : Nat → String)
    (g : String) (tg : TaskGroup) (s : UpdateStrategy) (hstop : job.Stop = false)
    (htg : job.LookupTaskGroup g = some tg) (hs : tg.Update = some s)
    (hne : UpdateStrategy.IsEmpty tg.Update = false) (hid : (existing.map (·.ID)).Nodup) :
    let r := (NewAllocReconciler allocUpdateFn batch jobID (some job) deployment existing nodes
      evalID now uuids).Compute
    let δP := r.place.filter (·.taskGroup.Name = g)
    let δD := r.destructiveUpdate.filter (·.placeTaskGroup.Name = g)
    ((∃ d, deployment = some d ∧ d.JobCreateIndex = job.CreateIndex ∧ d.JobVersion = job.Version ∧
        (d.Status = .paused ∨ d.Status = .failed ∨ d.Status ≠ .successful ∧
          ∃ ds, d.TaskGroups.lookup g = some ds ∧ 0 < ds.DesiredCanaries ∧ ds.Promoted = false)) →
        δD = []) ∧
      (1 ≤ δD.length →
        (δD.length : Int) + (δP.filter (·.NewOrRescheduled)).length ≤ s.MaxParallel) := by
  intro r δP δD
  set a := NewAllocReconciler allocUpdateFn batch jobID (some job) deployment existing nodes evalID
    now uuids
  set all := existing.filter (·.TaskGroup = g)
  obtain ⟨a₀, a₁, a₃, hdep₀, hres₀, -, hflags, f₁, f₂, -, hP, hD⟩ :=
    a.Compute_around job rfl hstop hid htg
  change allocReconciler.AwayFrame g existing (a₁.computeGroup job g all).1 a₃ at f₂
  have fg := a₁.computeGroup_frame job g all
  obtain ⟨δP', δD', hδP, hδD, hready⟩ := a₁.computeGroup_destructive_ready job g all tg s htg hs hne
  -- the group's part of the result is what its own run appended; the run starts with no lists
  have h₀ := a.cancelDeployments_lists
  rw [← hres₀] at h₀
  have hplace : δP = δP' := by
    show r.place.filter (·.taskGroup.Name = g) = δP'
    rw [hP]
    exact place_filter_around (fun e he => by rw [h₀.1] at he; cases he) f₁ fg f₂ hδP
  have hdest : δD = δD' := by
    show r.destructiveUpdate.filter (·.placeTaskGroup.Name = g) = δD'
    rw [hD]
    exact destructive_filter_around (fun e he => by rw [h₀.2] at he; cases he) f₁ fg f₂ hδD
  rw [hplace, hdest]
  refine ⟨fun hcond => ?_, fun hk => ?_⟩
  · -- the current deployment is kept, and `g`'s run sees its flags and its state for `g`
    obtain ⟨d, hd, hci, hv, hst⟩ := hcond
    have hsucc : d.Status ≠ .successful := by
      rcases hst with h | h | ⟨h, -⟩ <;> simp [h]
    have hd₀ : a₀.deployment = some d := by
      rw [hdep₀, a.cancelDeployments_current job d rfl hstop hd hci hv hsucc]
      exact hd
    obtain ⟨hp₀, hf₀⟩ := hflags d hd₀
    have hset := f₁.settings
    simp only [allocReconciler.settings, Prod.mk.injEq] at hset
    obtain ⟨-, -, hp₁, hf₁, -⟩ := hset
    by_contra hδ
    obtain ⟨hp, hf, hcan, -, -⟩ := hready hδ
    rcases hst with h | h | ⟨-, ds, hds, hdc, hpr⟩
    · rw [hp₁, hp₀, h] at hp
      exact absurd hp (by decide)
    · rw [hf₁, hf₀, h] at hf
      exact absurd hf (by decide)
    · obtain ⟨d₁, hd₁, hds₁⟩ :=
        Option.bind_eq_some_iff.mp (f₁.lookup.trans (by rw [hd₀]; exact hds))
      rcases hcan d₁ ds hd₁ hds₁ with h | h
      · omega
      · simp [hpr] at h
  · have hbudget := (hready (List.ne_nil_of_length_pos hk)).2.2.2.2
    omega

theorem Compute_respects_maxParallel_rolling :
    (rollingJob 1).Stop = false ∧ (rollingJob 1).LookupTaskGroup "web" = some rollingGroup ∧
      rollingGroup.Update = some rollingUpdate ∧ UpdateStrategy.IsEmpty rollingGroup.Update = false ∧
      (rollingAllocs.map (·.ID)).Nodup ∧
      let r := rollingReconciler.Compute
      let δP := r.place.filter (·.taskGroup.Name = "web")
      let δD := r.destructiveUpdate.filter (·.placeTaskGroup.Name = "web")
      ((∃ d, (none : Option Deployment) = some d ∧ d.JobCreateIndex = (rollingJob 1).CreateIndex ∧
          d.JobVersion = (rollingJob 1).Version ∧
          (d.Status = .paused ∨ d.Status = .failed ∨ d.Status ≠ .successful ∧
            ∃ ds, d.TaskGroups.lookup "web" = some ds ∧ 0 < ds.DesiredCanaries ∧
              ds.Promoted = false)) → δD = []) ∧
        (1 ≤ δD.length →
          (δD.length : Int) + (δP.filter (·.NewOrRescheduled)).length ≤ rollingUpdate.MaxParallel) :=
  ⟨rfl, by decide, rfl, rfl, by decide,
    Compute_respects_maxParallel
      (fun x j _ =>
        if x.Job.JobModifyIndex = j.JobModifyIndex then (true, false, x) else (false, true, x))
      false "example" (rollingJob 1) none rollingAllocs ∅ "eval1" (Time.Unix 0 0) (fun _ => "uuid")
      "web" rollingGroup rollingUpdate rfl (by decide) rfl rfl (by decide)⟩

/-- Under a paused deployment of version 1, `Compute` replaces neither allocation. -/
example : (NewAllocReconciler
    (fun x j _ => if x.Job.JobModifyIndex = j.JobModifyIndex then (true, false, x) else (false, true, x))
    false "example" (some (rollingJob 1)) (some { NewDeployment (rollingJob 1) "d1" with Status := .paused })
    rollingAllocs ∅ "eval1" (Time.Unix 0 0) fun _ => "uuid").Compute.destructiveUpdate = [] := by
  decide

end Nomad.Scheduler
