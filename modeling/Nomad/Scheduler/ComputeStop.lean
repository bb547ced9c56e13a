import Nomad.Scheduler.Filters
import Nomad.Scheduler.NameIndex
import Nomad.Scheduler.Reconcile

/-!
# How many `computeStop` stops

Each loop of `computeStop` stops the allocations it picks, in order, until `remove` reaches 0.
`stopLoop_eq` says so: the loop stops all it picks if they are fewer than `remove`, and the
first `remove` of them otherwise.

With no canaries, untainted allocations that are not terminal and a count that is not negative,
`computeStop` stops the lost allocations and exactly as many others as the group has above its
count (`computeStop_spec`). The migrating ones go first, and `Highest` makes that phase finish
unless it takes every migrating allocation. The untainted ones follow, by highest name and then
in any order; they are enough because the count is not negative.
-/

namespace Nomad.Scheduler

open Go Structs Container

namespace allocReconciler

/-- `stopOne` over a list, in order: what one loop of `computeStop` does to the allocations it
stops. -/
def stopAll (fromMigrate : Bool) (l : List Allocation) (s : stopState) : stopState :=
  l.foldl (fun s x => stopOne fromMigrate x s) s

def notNeeded (x : Allocation) : allocStopResult := ⟨x, none, allocNotNeeded⟩

section stopAll

variable (fm : Bool) (l : List Allocation) (s : stopState)

@[simp] theorem stopAll_nil : stopAll fm [] s = s := rfl

@[simp] theorem stopAll_cons (x : Allocation) :
    stopAll fm (x :: l) s = stopAll fm l (stopOne fm x s) := rfl

theorem stopAll_remove : (stopAll fm l s).remove = s.remove - l.length := by
  induction l generalizing s with
  | nil => simp
  | cons x l ih => rw [stopAll_cons, ih]; simp [stopOne]; omega

theorem stopAll_stops : (stopAll fm l s).stops = s.stops ++ l.map notNeeded := by
  induction l generalizing s with
  | nil => simp
  | cons x l ih => rw [stopAll_cons, ih]; simp [stopOne, notNeeded]

theorem stopAll_stop : (stopAll fm l s).stop = l.foldl allocSet.insert s.stop := by
  induction l generalizing s with
  | nil => simp
  | cons x l ih => rw [stopAll_cons, ih]; simp [stopOne]

theorem foldl_erase (u : allocSet) :
    l.foldl (fun u x => u.erase x.ID) u = u.filter fun y => !allocSet.contains l y.ID := by
  induction l generalizing u with
  | nil => simp
  | cons x l ih =>
    rw [List.foldl_cons, ih, allocSet.erase, List.filter_filter]
    refine List.filter_congr fun y _ => ?_
    simp only [allocSet.contains, List.any_cons]
    by_cases h : x.ID = y.ID
    · simp [h]
    · have h1 : (x.ID == y.ID) = false := by simpa using h
      have h2 : (y.ID != x.ID) = true := by simpa using Ne.symm h
      simp [h1, h2, Bool.and_comm]

theorem stopAll_untainted_false :
    (stopAll false l s).untainted = s.untainted.filter fun y => !allocSet.contains l y.ID := by
  rw [← foldl_erase]
  induction l generalizing s with
  | nil => simp
  | cons x l ih => rw [stopAll_cons, ih]; simp [stopOne]

theorem stopAll_migrate_false : (stopAll false l s).migrate = s.migrate := by
  induction l generalizing s with
  | nil => simp
  | cons x l ih => rw [stopAll_cons, ih]; simp [stopOne]

theorem stopAll_untainted_true : (stopAll true l s).untainted = s.untainted := by
  induction l generalizing s with
  | nil => simp
  | cons x l ih => rw [stopAll_cons, ih]; simp [stopOne]

theorem stopAll_migrate_true :
    (stopAll true l s).migrate = s.migrate.filter fun y => !allocSet.contains l y.ID := by
  rw [← foldl_erase]
  induction l generalizing s with
  | nil => simp
  | cons x l ih => rw [stopAll_cons, ih]; simp [stopOne]

end stopAll

theorem stopLoop_eq (fm : Bool) (pick : Allocation → Bool) (xs : List Allocation) (s : stopState)
    (h : 0 < s.remove) :
    stopLoop fm pick xs s =
      if ((xs.filter pick).length : Int) < s.remove then .inr (stopAll fm (xs.filter pick) s)
      else .inl (stopAll fm ((xs.filter pick).take s.remove.toNat) s) := by
  induction xs generalizing s with
  | nil => simp [stopLoop, h]
  | cons x xs ih =>
    by_cases hp : pick x
    · have hr : (stopOne fm x s).remove = s.remove - 1 := rfl
      have htake : s.remove.toNat = (s.remove - 1).toNat + 1 := by omega
      simp only [stopLoop, hp, if_true, List.filter_cons_of_pos hp, List.length_cons]
      by_cases h1 : s.remove = 1
      · -- the first pick brings `remove` to 0
        rw [if_pos (by rw [hr]; omega), if_neg (by omega), htake, List.take_succ_cons, stopAll_cons,
          show (s.remove - 1).toNat = 0 by omega, List.take_zero, stopAll_nil]
      · rw [if_neg (by rw [hr]; omega), ih _ (by rw [hr]; omega), hr, htake, List.take_succ_cons,
          stopAll_cons]
        split_ifs <;> first | rfl | omega
    · simp only [stopLoop, hp, List.filter_cons_of_neg (by simpa using hp)]
      exact ih s h

-- ---------------------------------------------------------------------------
-- The whole of `computeStop`
-- ---------------------------------------------------------------------------

@[simp] theorem markStop_jobID (a : allocReconciler) (l : allocSet) (c : Option AllocClientStatus)
    (d : String) : (a.markStop l c d).jobID = a.jobID := rfl

theorem highest_pick (j g : String) (c : Int) (M : allocSet) (k : Nat)
    (hlt : (M.filter fun x => decide (x.Name ∈ ((newAllocNameIndex j g c M).Highest k).2)).length < k) :
    (M.filter fun x => decide (x.Name ∈ ((newAllocNameIndex j g c M).Highest k).2)) = M := by
  set ni := newAllocNameIndex j g c M
  have hcheck : ∀ i, ni.b.Check i = decide (i ∈ M.map (·.Index)) := fun i =>
    check_bitmapFrom M (toUint c) i
  by_cases hall : (ni.Highest k).2.length < k
  · -- fewer names than asked: `Highest` returned every migrating one
    refine List.filter_eq_self.mpr fun x hx => ?_
    have hc : ni.b.Check x.Name := by
      rw [hcheck]; simpa using ⟨x, hx, rfl⟩
    simpa using ni.mem_highest_of_length_lt hall hc
  · -- as many names as asked, each the name of a picked allocation
    exfalso
    have hsub : (ni.Highest k).2 ⊆
        (M.filter fun x => decide (x.Name ∈ (ni.Highest k).2)).map (·.Name) := by
      intro i hi
      have hc := ni.check_of_mem_highest hi
      rw [hcheck] at hc
      obtain ⟨x, hx, rfl⟩ := List.mem_map.mp (of_decide_eq_true hc)
      exact List.mem_map.mpr ⟨x, List.mem_filter.mpr ⟨hx, by simpa [Allocation.Index] using hi⟩, rfl⟩
    have hle := ((ni.nodup_highest k).subperm hsub).length_le
    rw [List.length_map] at hle
    omega

def finishStop (a : allocReconciler) (L : allocSet) (s : stopState) :
    allocReconciler × allocSet × allocSet × allocNameIndex :=
  ((a.markStop L (some .lost) allocLost).withResult (·.addStop s.stops), s.stop, s.migrate, s.nameIndex)

@[simp] theorem withResult_addStop_nil (a : allocReconciler) : a.withResult (·.addStop []) = a := by
  simp [withResult, reconcileResults.addStop]

/-- With no canaries, untainted allocations that are not terminal and have distinct IDs, and a
count that is not negative, `computeStop` stops the lost allocations, then some migrating ones
`xm` and some untainted ones `xu`: as many as the group has above its count. -/
theorem computeStop_spec (a : allocReconciler) (tg : TaskGroup) (ni : allocNameIndex)
    (U M L : allocSet) (hC : 0 ≤ tg.Count) (hU : ∀ x ∈ U, x.TerminalStatus = false)
    (hUid : (U.map (·.ID)).Nodup) (hlen : (U.length : Int) + M.length < 2 ^ 64) :
    ∃ xm xu ni', xm.Sublist M ∧ List.Subperm xu U ∧
      ((xm.length + xu.length : Nat) : Int) = max 0 ((U.length : Int) + M.length - tg.Count) ∧
      a.computeStop tg ni U M L [] false =
        ((a.markStop L (some .lost) allocLost).withResult (·.addStop ((xm ++ xu).map notNeeded)),
          (xm ++ xu).foldl allocSet.insert (allocSet.union [] [L]),
          M.filter (fun y => !allocSet.contains xm y.ID), ni') := by
  have hterm : filterByTerminal U = U := List.filter_eq_self.mpr fun x hx => by simp [hU x hx]
  by_cases hr : (U.length : Int) + M.length - tg.Count ≤ 0
  · -- nothing above the count: only the lost allocations stop
    refine ⟨[], [], ni, List.nil_sublist _, List.nil_subperm, by simp; omega, ?_⟩
    simp [computeStop, hr]
  · have hpos : 0 < (U.length : Int) + M.length - tg.Count := by omega
    have hru : ((toUint ((U.length : Int) + M.length - tg.Count) : Nat) : Int) =
        (U.length : Int) + M.length - tg.Count := toUint_of_nonneg (by omega) (by omega)
    -- the loops start from this state; the canary phase has nothing to do
    rw [computeStop_of_pos a tg ni U M L hr, hterm]
    dsimp only
    set s0 : stopState := ⟨allocSet.union [] [L], [], U, M, ni, (U.length : Int) + M.length - tg.Count⟩
      with hs0
    have hrem : s0.remove = (U.length : Int) + M.length - tg.Count := rfl
    have hr0 : 0 < s0.remove := hpos
    -- the migrating allocations whose names `Highest` returns
    set P := M.filter fun x => decide (x.Name ∈ ((newAllocNameIndex a.jobID tg.Name tg.Count
      M).Highest (toUint ((U.length : Int) + M.length - tg.Count))).2) with hP
    by_cases hmig : M ≠ [] ∧ ¬ (P.length : Int) < s0.remove
    · -- the migrate phase stops all it has to
      refine ⟨P.take s0.remove.toNat, [], (stopAll true (P.take s0.remove.toNat) s0).nameIndex,
        (List.take_sublist _ _).trans List.filter_sublist, List.nil_subperm, ?_, ?_⟩
      · simp only [List.length_take, List.length_nil, Nat.add_zero]
        omega
      · rw [if_pos (by simpa [s0] using hmig.1), stopLoop_eq _ _ _ _ hr0, if_neg hmig.2]
        simp only [stopAll_stops, stopAll_stop, stopAll_migrate_true, List.append_nil]
        rfl
    · -- the migrate phase stops every migrating allocation, and fewer than it has to
      have hru' : ((toUint s0.remove : Nat) : Int) = s0.remove := hru
      have hPM : (P.length : Int) < s0.remove → P = M := fun hlt =>
        highest_pick a.jobID tg.Name tg.Count M (toUint ((U.length : Int) + M.length - tg.Count))
          (show P.length < toUint ((U.length : Int) + M.length - tg.Count) by omega)
      have hMlt : (M.length : Int) < s0.remove := by
        by_cases hM : M = []
        · simp [hM]; omega
        · have hlt : (P.length : Int) < s0.remove := by
            by_contra h
            exact hmig ⟨hM, h⟩
          rwa [hPM hlt] at hlt
      have hphase : (if M.length ≠ 0 then
          stopLoop true (fun x => decide (x.Name ∈ ((newAllocNameIndex a.jobID tg.Name tg.Count
            M).Highest (toUint ((U.length : Int) + M.length - tg.Count))).2)) M s0 else .inr s0) =
          .inr (stopAll true M s0) := by
        by_cases hM : M = []
        · rw [if_neg (show ¬M.length ≠ 0 by simp [hM])]
          simp [hM]
        · have hlt : (P.length : Int) < s0.remove := by
            by_contra h
            exact hmig ⟨hM, h⟩
          rw [if_pos (show M.length ≠ 0 by simpa using hM), stopLoop_eq _ _ _ _ hr0, if_pos hlt]
          exact congrArg Sum.inr (congrArg (stopAll true · s0) (hPM hlt))
      rw [hphase]
      dsimp only
      -- the state after the migrate phase, and the untainted allocations `Highest` names
      set s1 := stopAll true M s0 with hs1
      have hu1 : s1.untainted = U := stopAll_untainted_true _ _
      have hrem1 : s1.remove = s0.remove - M.length := stopAll_remove _ _ _
      set s1' : stopState := { s1 with nameIndex := (s1.nameIndex.Highest (toUint s1.remove)).1 }
      have hr1 : 0 < s1'.remove := by show 0 < s1.remove; omega
      set P2 := U.filter fun x => decide (x.Name ∈ (s1.nameIndex.Highest (toUint s1.remove)).2)
        with hP2
      have hUnd : U.Nodup := List.Nodup.of_map _ hUid
      -- what the migrate phase leaves for `finishStop`
      have e1 : s1'.stops = M.map notNeeded := by simp [s1', hs1, stopAll_stops, s0]
      have e2 : s1'.stop = M.foldl allocSet.insert (allocSet.union [] [L]) := by
        simp [s1', hs1, stopAll_stop, s0]
      have e3 : s1'.migrate = M.filter fun y => !allocSet.contains M y.ID := by
        simp [s1', hs1, stopAll_migrate_true, s0]
      rw [hu1, stopLoop_eq _ _ _ _ hr1]
      by_cases hlt2 : (P2.length : Int) < s1'.remove
      · -- names shared by several allocations leave some to stop: the fallback takes any
        rw [if_pos hlt2]
        dsimp only
        set s2 := stopAll false P2 s1' with hs2
        have hP2sub : P2.Sublist U := List.filter_sublist
        have hu2 : s2.untainted = U.filter fun y => !allocSet.contains P2 y.ID := by
          rw [hs2, stopAll_untainted_false]
          exact congrArg (List.filter _) hu1
        have hrem2 : s2.remove = s1'.remove - P2.length := stopAll_remove _ _ _
        have hrem1' : s1'.remove = s1.remove := rfl
        have hr2 : 0 < s2.remove := by omega
        have hlenU2 : (U.filter fun y => !allocSet.contains P2 y.ID).length = U.length - P2.length :=
          allocSet.length_filter_not_contains hP2sub.subperm hUid
        have hP2le : P2.length ≤ U.length := hP2sub.length_le
        rw [hu2, stopLoop_eq _ _ _ _ hr2, List.filter_true, if_neg (by omega)]
        dsimp only
        set U2 := U.filter fun y => !allocSet.contains P2 y.ID with hU2
        refine ⟨M, P2 ++ U2.take s2.remove.toNat,
          (stopAll false (U2.take s2.remove.toNat) s2).nameIndex, List.Sublist.refl M, ?_, ?_, ?_⟩
        · -- the two phases stop different untainted allocations
          apply List.Nodup.subperm
          · refine List.nodup_append.mpr ⟨hUnd.sublist hP2sub,
              (hUnd.sublist List.filter_sublist).sublist (List.take_sublist _ _), ?_⟩
            intro x hx y hy hxy
            subst hxy
            have hy' := (List.mem_filter.mp (List.mem_of_mem_take hy)).2
            simp only [Bool.not_eq_eq_eq_not, Bool.not_true] at hy'
            exact absurd ((allocSet.contains_iff _ _).mpr (List.mem_map_of_mem hx)) (by simp [hy'])
          · intro x hx
            rcases List.mem_append.mp hx with h | h
            · exact hP2sub.subset h
            · exact List.filter_sublist.subset (List.mem_of_mem_take h)
        · simp only [List.length_append, List.length_take]
          omega
        · simp only [stopAll_stops, stopAll_stop, stopAll_migrate_false, hs2, e1, e2, e3,
            List.map_append, List.foldl_append, List.append_assoc]
      · -- the highest names finish the job
        refine ⟨M, P2.take s1'.remove.toNat, (stopAll false (P2.take s1'.remove.toNat) s1').nameIndex,
          List.Sublist.refl M, ((List.take_sublist _ _).trans List.filter_sublist).subperm, ?_, ?_⟩
        · have : s1'.remove = s1.remove := rfl
          simp only [List.length_take]
          omega
        · rw [if_neg hlt2]
          simp only [stopAll_stops, stopAll_stop, stopAll_migrate_false, e1, e2, e3,
            List.map_append, List.foldl_append]
          rfl

end allocReconciler

end Nomad.Scheduler
