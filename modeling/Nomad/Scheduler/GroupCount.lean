import Nomad.Scheduler.GroupFrame

/-!
# A group that starts from scratch

A service group with no update strategy, under no deployment state of its own and without
canaries anywhere, whose allocations all run and are neither rescheduled nor forced to be: for
it `computeGroup` runs its blocks with nothing to decide but the counts. It stops the lost
allocations and as many others as the group has above its count, places the missing ones,
replaces every migrating one and every destructive update, and creates no deployment.
`computeGroup_clean` writes the three lists of the result out, block by block.
-/

namespace Nomad.Scheduler

open Go Structs Container

theorem Allocation.terminalStatus_of_running {x : Allocation} (h1 : x.DesiredStatus = .run)
    (h2 : x.ClientStatus = .pending ∨ x.ClientStatus = .running) : x.TerminalStatus = false := by
  rcases h2 with h2 | h2 <;>
    simp [Allocation.TerminalStatus, Allocation.ServerTerminalStatus,
      Allocation.ClientTerminalStatus, h1, h2]

namespace allocReconciler

variable (a : allocReconciler)

-- ---------------------------------------------------------------------------
-- The blocks on a group that starts from scratch
-- ---------------------------------------------------------------------------

@[simp] theorem markStop_nil (c : Option AllocClientStatus) (d : String) : a.markStop [] c d = a := by
  simp [markStop, withResult, reconcileResults.addStop]

theorem groupDeploymentState_fresh (tg : TaskGroup) (g : String) (hdep : a.DeploymentClean g)
    (hu : UpdateStrategy.IsEmpty tg.Update = true) : a.groupDeploymentState tg g = (.empty, false) := by
  have hl : a.deployment.bind (·.TaskGroups.lookup g) = none := by
    cases h : a.deployment with
    | none => rfl
    | some d => simpa using (hdep d h).2.1
  unfold groupDeploymentState
  rw [hl]
  cases h : tg.Update with
  | none => rfl
  | some u => simp only [h] at hu; simp [hu]

theorem filterOldTerminalAllocs_service (job : Job) (all : allocSet) (h : a.batch = false) :
    a.filterOldTerminalAllocs job all = (all, []) := by
  simp [filterOldTerminalAllocs, h]

theorem handleGroupCanaries_none (g : String) (all : allocSet) (dc : DesiredUpdates)
    (hold : a.oldDeployment = none) (hdep : a.DeploymentClean g) :
    a.handleGroupCanaries all dc = (a, [], all, dc) := by
  unfold handleGroupCanaries
  cases h : a.deployment with
  | none => simp [hold, unpromotedCanaries, h]
  | some d =>
    obtain ⟨hst, -, hpc⟩ := hdep d h
    have hids : d.TaskGroups.entries.flatMap (·.2.PlacedCanaries) = [] := by
      simp only [List.flatMap_eq_nil_iff]
      exact fun s hs => hpc s hs
    simp [hold, unpromotedCanaries, h, hst, hids, filterByTainted]

theorem handleDelayedReschedules_nil (job : Job) (all : allocSet) (name : String) :
    a.handleDelayedReschedules job [] all name = a := rfl

theorem computeLimit_empty (tg : TaskGroup) (U D M : allocSet) (cs : Bool)
    (hu : UpdateStrategy.IsEmpty tg.Update = true) : a.computeLimit tg U D M cs = tg.Count := by
  simp [computeLimit, hu]

theorem computePlacements_length {tg : TaskGroup} {ni : allocNameIndex} {U M : allocSet}
    {ni' : allocNameIndex} {place : List allocPlaceResult}
    (h : computePlacements tg ni U M [] = (ni', place)) (hC64 : tg.Count < 2 ^ 63) :
    place.length = tg.Count.toNat - (U.length + M.length) := by
  dsimp only [computePlacements] at h
  split at h
  · next hle =>
    simp only [Prod.mk.injEq] at h
    obtain ⟨-, rfl⟩ := h
    simp only [List.length_nil, List.map_nil] at hle ⊢
    omega
  · next hlt =>
    simp only [Prod.mk.injEq] at h
    obtain ⟨-, rfl⟩ := h
    simp only [List.length_nil] at hlt ⊢
    have hu : ((toUint (tg.Count - (U.length + M.length + (0 : Nat))) : Nat) : Int) =
        tg.Count - (U.length + M.length) := by
      rw [toUint_of_nonneg (by omega) (by omega)]
      omega
    have hpos : 0 < toUint (tg.Count - (U.length + M.length + (0 : Nat))) := by omega
    rw [List.length_append, List.length_map, List.length_map, List.length_nil,
      allocNameIndex.length_next _ hpos]
    omega

-- ---------------------------------------------------------------------------
-- What stays of the group
-- ---------------------------------------------------------------------------

section kept

variable {all U M L xm xu D : allocSet}

/-- The IDs `computeGroup` stops on a group that starts from scratch: the lost allocations,
those above the count (`xm` migrating, `xu` untainted), the other migrating ones, which it
replaces, and the destructive updates `D`. -/
def stoppedIDs (M L xm xu D : allocSet) : List String :=
  L.map (·.ID) ++ xm.map (·.ID) ++ xu.map (·.ID) ++
    (M.filter fun y => !allocSet.contains xm y.ID).map (·.ID) ++ D.map (·.ID)

theorem mem_stoppedIDs_of_mem {x : Allocation} (xu D : allocSet) (hx : x ∈ M ++ L) :
    x.ID ∈ stoppedIDs M L xm xu D := by
  simp only [stoppedIDs, List.mem_append]
  rcases List.mem_append.mp hx with hx | hx
  · cases h : allocSet.contains xm x.ID
    · exact .inl (.inr (List.mem_map_of_mem (List.mem_filter.mpr ⟨hx, by simp [h]⟩)))
    · exact .inl (.inl (.inl (.inr ((allocSet.contains_iff _ _).mp h))))
  · exact .inl (.inl (.inl (.inl (List.mem_map_of_mem hx))))

theorem mem_untainted_of_kept (hperm : (U ++ M ++ L).Perm all) {x : Allocation} (hx : x ∈ all)
    (hk : x.ID ∉ stoppedIDs M L xm xu D) : x ∈ U := by
  rcases List.mem_append.mp (hperm.symm.subset hx) with hx | hx
  · rcases List.mem_append.mp hx with hx | hx
    · exact hx
    · exact absurd (mem_stoppedIDs_of_mem xu D (List.mem_append_left _ hx)) hk
  · exact absurd (mem_stoppedIDs_of_mem xu D (List.mem_append_right _ hx)) hk

theorem untainted_ids (hperm : (U ++ M ++ L).Perm all) (hid : (all.map (·.ID)).Nodup) :
    (U.map (·.ID)).Nodup ∧ ∀ x ∈ U, ∀ l : allocSet, (∀ y ∈ l, y ∈ M ++ L) → x.ID ∉ l.map (·.ID) := by
  have hidp : ((U ++ M ++ L).map (·.ID)).Nodup := (hperm.map _).nodup_iff.mpr hid
  rw [List.append_assoc, List.map_append, List.nodup_append] at hidp
  refine ⟨hidp.1, fun x hx l hl hm => ?_⟩
  obtain ⟨y, hy, he⟩ := List.mem_map.mp hm
  exact hidp.2.2 _ (List.mem_map_of_mem hx) _ (List.mem_map_of_mem (hl y hy)) he.symm

theorem length_kept (hperm : (U ++ M ++ L).Perm all) (hid : (all.map (·.ID)).Nodup)
    (hxm : xm.Sublist M) (hxu : List.Subperm xu U)
    (hD : D.Sublist (U.filter fun y => !allocSet.contains xu y.ID)) :
    (all.filter fun x => decide (x.ID ∉ stoppedIDs M L xm xu D)).length =
      U.length - xu.length - D.length := by
  obtain ⟨hUid, hne⟩ := untainted_ids hperm hid
  have hUnd : U.Nodup := List.Nodup.of_map _ hUid
  have hU : U.filter (fun x => decide (x.ID ∉ stoppedIDs M L xm xu D)) =
      U.filter fun y => !allocSet.contains (xu ++ D) y.ID := by
    refine List.filter_congr fun x hx => ?_
    -- of the stopped IDs, only those of `xu` and `D` can be untainted ones
    have hiff : x.ID ∈ stoppedIDs M L xm xu D ↔ allocSet.contains (xu ++ D) x.ID = true := by
      rw [allocSet.contains_iff, List.map_append, List.mem_append]
      simp only [stoppedIDs, List.mem_append,
        hne x hx L fun y hy => List.mem_append_right _ hy,
        hne x hx xm fun y hy => List.mem_append_left _ (hxm.subset hy),
        hne x hx _ fun y hy => List.mem_append_left _ (List.mem_of_mem_filter hy), false_or, or_false]
    cases h : allocSet.contains (xu ++ D) x.ID <;> simp [hiff, h]
  -- the stopped untainted ones are distinct allocations of `U`
  have hxund : xu.Nodup := by
    obtain ⟨l, hp, hs⟩ := hxu
    exact hp.nodup_iff.mp (hUnd.sublist hs)
  have hsub : List.Subperm (xu ++ D) U := by
    refine List.Nodup.subperm (List.nodup_append.mpr ⟨hxund,
      (hUnd.filter _).sublist hD, fun x hx y hy hxy => ?_⟩) fun x hx => ?_
    · subst hxy
      have := (List.mem_filter.mp (hD.subset hy)).2
      simp only [Bool.not_eq_eq_eq_not, Bool.not_true] at this
      exact absurd ((allocSet.contains_iff _ _).mpr (List.mem_map_of_mem hx)) (by simp [this])
    · rcases List.mem_append.mp hx with hx | hx
      · exact hxu.subset hx
      · exact List.mem_of_mem_filter (hD.subset hx)
  have hnil : ∀ l : allocSet, (∀ y ∈ l, y ∈ M ++ L) →
      l.filter (fun x => decide (x.ID ∉ stoppedIDs M L xm xu D)) = [] := fun l hl =>
    List.filter_eq_nil_iff.mpr fun y hy => by simpa using mem_stoppedIDs_of_mem xu D (hl y hy)
  rw [← (hperm.filter _).length_eq, List.filter_append, List.filter_append,
    hnil M fun y hy => List.mem_append_left _ hy, hnil L fun y hy => List.mem_append_right _ hy, hU,
    List.append_nil, List.append_nil,
    allocSet.length_filter_not_contains hsub hUid, List.length_append]
  omega

theorem filter_not_mem_congr (l₂ : List String) {l₁ : List String} (h : ∀ id, id ∈ l₁ ↔ id ∈ l₂)
    (s : allocSet) : s.filter (fun x => decide (x.ID ∉ l₁)) = s.filter fun x => decide (x.ID ∉ l₂) :=
  List.filter_congr fun x _ => by simp [h]

end kept

-- ---------------------------------------------------------------------------
-- `computeGroup`
-- ---------------------------------------------------------------------------

/-- On a group that starts from scratch, `computeGroup` appends stops `δS`, placements `δP` and
destructive updates `δD` after which the group has exactly its count: the allocations it keeps,
all untainted, and the ones it places. -/
theorem computeGroup_clean (job : Job) (g : String) (tg : TaskGroup) (all : allocSet)
    (hbatch : a.batch = false) (hold : a.oldDeployment = none)
    (hpaused : a.deploymentPaused = false) (hfailed : a.deploymentFailed = false)
    (hdep : a.DeploymentClean g) (htg : job.LookupTaskGroup g = some tg)
    (hu : UpdateStrategy.IsEmpty tg.Update = true) (hcan : ∀ u, tg.Update = some u → u.Canary ≤ 0)
    (hC : 0 ≤ tg.Count) (hC64 : tg.Count < 2 ^ 63)
    (hall : ∀ x ∈ all, x.DesiredStatus = .run ∧ (x.ClientStatus = .pending ∨ x.ClientStatus = .running) ∧
      x.NextAllocation = "" ∧ x.DesiredTransition.ShouldForceReschedule = false)
    (hid : (all.map (·.ID)).Nodup) (hlen : all.length < 2 ^ 63) :
    ∃ δS δP δD, (a.computeGroup job g all).1.result.stop = a.result.stop ++ δS ∧
      (a.computeGroup job g all).1.result.place = a.result.place ++ δP ∧
      (a.computeGroup job g all).1.result.destructiveUpdate = a.result.destructiveUpdate ++ δD ∧
      (all.filter fun x => decide (x.ID ∉ δS.map (·.alloc.ID) ++ δD.map (·.stopAlloc.ID))).length +
        δP.length + δD.length = tg.Count.toNat ∧
      ∀ x ∈ all, x.ID ∉ δS.map (·.alloc.ID) ++ δD.map (·.stopAlloc.ID) →
        x ∈ (filterByTainted all a.taintedNodes).1 := by
  unfold computeGroup
  split
  · simp_all
  next tg' htg' =>
  rw [htg] at htg'
  cases htg'
  dsimp -iota only
  split
  next dstate ex hds =>
  split
  next all₁ ign hfo =>
  split
  next a₁ can all₂ dc hgc =>
  split
  next U M L hT =>
  split
  next U₂ R₁ R₂ hR =>
  split
  next a₂ stop M₂ ni₂ hcs =>
  split
  next a₃ ign₂ inp D hcu =>
  split
  next a₄ ni₄ dc₄ ds₄ hpc =>
  split
  next ni₅ place hcp =>
  split
  next a₅ dc₅ lim₅ hpl =>
  split
  next a₆ dc₆ hpd =>
  split
  next a₇ dc₇ hpm =>
  rw [a.groupDeploymentState_fresh tg g hdep hu, Prod.mk.injEq] at hds
  obtain ⟨rfl, rfl⟩ := hds
  rw [a.filterOldTerminalAllocs_service job all hbatch, Prod.mk.injEq] at hfo
  obtain ⟨rfl, rfl⟩ := hfo
  rw [a.handleGroupCanaries_none g all _ hold hdep, Prod.mk.injEq] at hgc
  obtain ⟨rfl, rfl, rfl, rfl⟩ := hgc
  -- the three sets of the tainted filter partition `all`
  have hperm := filterByTainted_perm all a.taintedNodes
  rw [hT] at hperm
  have hUsub : U ⊆ all := fun x hx => hperm.subset (List.mem_append_left _ (List.mem_append_left _ hx))
  have hUrun : ∀ x ∈ U, _ := fun x hx => hall x (hUsub hx)
  rw [hbatch, filterByRescheduleable_running a.now a.evalID a.deployment hUrun, Prod.mk.injEq] at hR
  obtain ⟨rfl, rfl, rfl⟩ := hR
  have hUterm : ∀ x ∈ U, x.TerminalStatus = false := fun x hx =>
    Allocation.terminalStatus_of_running (hUrun x hx).1 (hUrun x hx).2.1
  have hidp : ((U ++ M ++ L).map (·.ID)).Nodup := (hperm.map _).nodup_iff.mpr hid
  have hUid : (U.map (·.ID)).Nodup := by
    rw [List.map_append, List.map_append] at hidp
    exact (List.nodup_append.mp (List.nodup_append.mp hidp).1).1
  have hlenUM : (U.length : Int) + M.length < 2 ^ 64 := by
    have := hperm.length_eq
    simp only [List.length_append] at this
    omega
  -- `computeStop`
  have hcs0 : (decide (DeploymentState.empty.DesiredCanaries ≠ 0) && !DeploymentState.empty.Promoted) =
    false := rfl
  obtain ⟨xm, xu, ni', hxm, hxu, hx, hstop⟩ := a.computeStop_spec tg
    (newAllocNameIndex a.jobID g tg.Count (U.union [M, []])) U M L hC hUterm hUid hlenUM
  rw [handleDelayedReschedules_nil, hcs0, hstop, Prod.mk.injEq] at hcs
  obtain ⟨rfl, rfl, rfl, rfl⟩ := hcs
  generalize hrdy : (!a₄.deploymentPaused && !a₄.deploymentFailed &&
    !(decide (ds₄.DesiredCanaries ≠ 0) && !ds₄.Promoted)) = rdy at hpl hpd
  -- `computeUpdates` sorts the untainted allocations that stay
  simp only [computeUpdates, Prod.mk.injEq] at hcu
  obtain ⟨rfl, -, -, hD⟩ := hcu
  -- no canary is required: the update strategy asks for none
  unfold placeCanaries at hpc
  rw [if_neg, Prod.mk.injEq] at hpc
  swap
  · rcases hUpd : tg.Update with _ | u
    · simp
    · have := hcan u hUpd
      simp
      omega
  obtain ⟨rfl, rfl, rfl, rfl⟩ := hpc
  simp only [hcs0, Bool.false_eq_true, ↓reduceIte] at hcp hpl
  -- the deployment is ready: neither paused, failed nor waiting on canaries
  have hrdy' : rdy = true := by
    rw [← hrdy]
    simp [withResult, markStop, hpaused, hfailed, DeploymentState.empty]
  rw [if_pos hrdy', computeLimit_empty _ _ _ _ _ _ hu] at hpl
  simp only [placeReady, markStop_nil, Prod.mk.injEq] at hpl
  obtain ⟨rfl, rfl, rfl⟩ := hpl
  simp only [placeDestructive, hrdy', if_true, Prod.mk.injEq] at hpd
  obtain ⟨rfl, rfl⟩ := hpd
  simp only [placeMigrations, Prod.mk.injEq] at hpm
  obtain ⟨rfl, rfl⟩ := hpm
  -- no deployment is created: the update strategy is empty
  rw [if_neg (by simp [hu])]
  simp only [setDesired, withResult, reconcileResults.addStop, reconcileResults.addPlace,
    reconcileResults.addDestructive, reconcileResults.addInplace, markStop]
  refine ⟨_, _, _, (List.append_assoc _ _ _).trans (List.append_assoc _ _ _), List.append_assoc _ _ _,
    rfl, ?_⟩
  -- the numbers the blocks wrote
  obtain ⟨hUid, hne⟩ := untainted_ids hperm hid
  have hMid : (M.map (·.ID)).Nodup := ((hperm.map _).nodup_iff.mpr hid).sublist
    (((List.sublist_append_right U M).trans (List.sublist_append_left _ L)).map _)
  have hU' : U.difference [List.foldl allocSet.insert (allocSet.union [] [L]) (xm ++ xu)] =
      U.filter fun y => !allocSet.contains xu y.ID := by
    rw [allocSet.difference_singleton]
    refine List.filter_congr fun x hx => ?_
    have hL : allocSet.contains L x.ID = false := Bool.eq_false_iff.mpr fun h =>
      hne x hx L (fun y hy => List.mem_append_right _ hy) ((allocSet.contains_iff _ _).mp h)
    have hm : allocSet.contains xm x.ID = false := Bool.eq_false_iff.mpr fun h =>
      hne x hx xm (fun y hy => List.mem_append_left _ (hxm.subset hy)) ((allocSet.contains_iff _ _).mp h)
    rw [allocSet.contains_foldl_insert, allocSet.contains_union_nil, allocSet.contains_append, hL, hm]
    rfl
  rw [hU'] at hD hcp
  have hDsub : D.Sublist (U.filter fun y => !allocSet.contains xu y.ID) := hD ▸ List.filter_sublist
  have hlenU' := allocSet.length_filter_not_contains hxu hUid
  have hlenM' := allocSet.length_filter_not_contains hxm.subperm hMid
  have hplace := computePlacements_length hcp hC64
  have hDle := hDsub.length_le
  have hxmle := hxm.length_le
  have hxule := hxu.length_le
  -- every destructive update fits in what the placements leave of the limit
  have hm : (min (D.length : Int) (tg.Count - min (place.length : Int) tg.Count)).toNat = D.length := by
    omega
  rw [hm, List.take_of_length_le (by simp)]
  refine ⟨?_, fun x hx hk => ?_⟩
  · rw [filter_not_mem_congr (stoppedIDs M L xm xu D) ?_, length_kept hperm hid hxm hxu hDsub]
    · simp only [List.length_append, List.length_map, allocSet.length_nameOrder]
      omega
    · intro id
      simp only [stoppedIDs, List.map_append, List.map_map, List.mem_append, Function.comp_def,
        notNeeded, List.mem_map, allocSet.mem_nameOrder, or_assoc]
  · rw [hT]
    refine @mem_untainted_of_kept _ _ _ _ xm xu D hperm _ hx fun hs => hk ?_
    simp only [stoppedIDs, List.map_append, List.map_map, List.mem_append, Function.comp_def,
      notNeeded, List.mem_map, allocSet.mem_nameOrder, or_assoc] at hs ⊢
    exact hs

end allocReconciler

end Nomad.Scheduler
