import Nomad.Server.BlockedEvals

/-!
# What the tracker's maps promise each other

`Tracking ids b`: an evaluation held in `captured` or `escaped` sits under its own ID, in one of
the two maps only, and `jobs` maps its job to that ID. `ids` names the job each evaluation ID
belongs to: the one assumption, that IDs are not shared between jobs, and every blocked
evaluation must agree with it (`Event.Owned`). Every call keeps `Tracking` (`Tracking.step`), so
every run from `NewBlockedEvals` does, and a job then has at most one tracked evaluation, the one
`jobs` names (`run_keeps_one_blocked_eval_per_job`).

The system index and the counters are not part of the promise: they are where the tracker falls
out of step (`unblockNode_leaves_eval_tracked`).
-/

namespace Nomad.Server

open Nomad.Structs Container Go

def Event.Owned (ids : String → NamespacedID) : Event → Prop
  | .Block eval => ids eval.ID = eval.namespacedID
  | .Reblock eval _ => ids eval.ID = eval.namespacedID
  | _ => True

namespace BlockedEvals

def Tracks (b : BlockedEvals) (id : String) (w : wrappedEval) : Prop :=
  b.captured.lookup id = some w ∨ b.escaped.lookup id = some w

structure Tracking (ids : String → NamespacedID) (b : BlockedEvals) : Prop where
  key : ∀ id w, b.Tracks id w → w.eval.ID = id
  disjoint : ∀ id w w', b.captured.lookup id = some w → b.escaped.lookup id = some w' → False
  job : ∀ id w, b.Tracks id w → b.jobs.lookup w.eval.namespacedID = some id
  owner : ∀ id w, b.Tracks id w → ids id = w.eval.namespacedID

variable {ids : String → NamespacedID} {b b' : BlockedEvals}

theorem tracking_new : Tracking ids NewBlockedEvals where
  key _ _ h := by simp [Tracks, NewBlockedEvals] at h
  disjoint _ _ _ h := by simp [NewBlockedEvals] at h
  job _ _ h := by simp [Tracks, NewBlockedEvals] at h
  owner _ _ h := by simp [Tracks, NewBlockedEvals] at h

-- ---------------------------------------------------------------------------
-- Calls that only take evaluations out
-- ---------------------------------------------------------------------------

/-- `b'` holds a part of what `b` tracks, and the `jobs` entries of what it keeps. -/
structure Shrinks (b b' : BlockedEvals) : Prop where
  captured : ∀ id w, b'.captured.lookup id = some w → b.captured.lookup id = some w
  escaped : ∀ id w, b'.escaped.lookup id = some w → b.escaped.lookup id = some w
  jobs : ∀ id w, b'.Tracks id w → b'.jobs.lookup w.eval.namespacedID = b.jobs.lookup w.eval.namespacedID

theorem Shrinks.tracks (hs : Shrinks b b') {id : String} {w : wrappedEval} (h : b'.Tracks id w) :
    b.Tracks id w :=
  h.imp (hs.captured id w) (hs.escaped id w)

theorem Shrinks.of_eq (hc : b'.captured = b.captured) (he : b'.escaped = b.escaped)
    (hj : b'.jobs = b.jobs) : Shrinks b b' where
  captured _ _ h := hc ▸ h
  escaped _ _ h := he ▸ h
  jobs _ _ _ := by rw [hj]

theorem Tracking.shrink (h : Tracking ids b) (hs : Shrinks b b') : Tracking ids b' where
  key id w hw := h.key id w (hs.tracks hw)
  disjoint id w w' hc he := h.disjoint id w w' (hs.captured id w hc) (hs.escaped id w' he)
  job id w hw := (hs.jobs id w hw).trans (h.job id w (hs.tracks hw))
  owner id w hw := h.owner id w (hs.tracks hw)

theorem Tracking.job_ne (h : Tracking ids b) (hs : ∀ id w, b'.Tracks id w → b.Tracks id w)
    {J : NamespacedID} {e : String} (hJ : b.jobs.lookup J = none ∨ b.jobs.lookup J = some e)
    (hgone : ∀ w, ¬ b'.Tracks e w) : ∀ id w, b'.Tracks id w → w.eval.namespacedID ≠ J := by
  rintro id w hw rfl
  have hid := h.job id w (hs id w hw)
  rcases hJ with hJ | hJ <;> rw [hJ] at hid
  · cases hid
  · obtain rfl := Option.some.inj hid
    exact hgone w hw

theorem Shrinks.eraseJob (h : Tracking ids b)
    (hc : ∀ id w, b'.captured.lookup id = some w → b.captured.lookup id = some w)
    (he : ∀ id w, b'.escaped.lookup id = some w → b.escaped.lookup id = some w)
    {J : NamespacedID} {e : String} (hJ : b.jobs.lookup J = none ∨ b.jobs.lookup J = some e)
    (hgone : ∀ w, ¬ b'.Tracks e w) (hj : b'.jobs = b.jobs.erase J) : Shrinks b b' where
  captured := hc
  escaped := he
  jobs id w hw := by
    rw [hj]
    exact AList.lookup_erase_ne (h.job_ne (fun id w hw => hw.imp (hc id w) (he id w)) hJ hgone id w hw)

theorem lookup_releaseJobs_of_forall_ne {jobs : Map NamespacedID String} {us : List wrappedEval}
    {J : NamespacedID} (h : ∀ u ∈ us, u.eval.namespacedID ≠ J) :
    (releaseJobs jobs us).lookup J = jobs.lookup J := by
  induction us generalizing jobs with
  | nil => rfl
  | cons u us ih =>
    simp only [List.mem_cons, forall_eq_or_imp] at h
    show (releaseJobs (jobs.erase u.eval.namespacedID) us).lookup J = _
    rw [ih h.2, AList.lookup_erase_ne (Ne.symm h.1)]

/-- Releasing evaluations that `b` tracks and `b'` no longer does: the shape of every unblock
loop. -/
theorem Shrinks.release (h : Tracking ids b)
    (hc : ∀ id w, b'.captured.lookup id = some w → b.captured.lookup id = some w)
    (he : ∀ id w, b'.escaped.lookup id = some w → b.escaped.lookup id = some w)
    {us : List wrappedEval} (hu : ∀ u ∈ us, b.Tracks u.eval.ID u ∧ ∀ w, ¬ b'.Tracks u.eval.ID w)
    (hj : b'.jobs = releaseJobs b.jobs us) : Shrinks b b' where
  captured := hc
  escaped := he
  jobs id w hw := by
    rw [hj]
    refine lookup_releaseJobs_of_forall_ne fun u hmem hJ => ?_
    obtain ⟨hut, hgone⟩ := hu u hmem
    have hid := h.job _ _ hut
    rw [hJ, h.job id w (hw.imp (hc id w) (he id w))] at hid
    obtain rfl := Option.some.inj hid
    exact hgone w hw

theorem Tracking.lookup_of_mem_captured (h : Tracking ids b) {u : wrappedEval}
    (hu : u ∈ Map.vals b.captured) : b.captured.lookup u.eval.ID = some u := by
  obtain ⟨k, hk⟩ := Map.mem_vals.mp hu
  rwa [h.key k u (.inl hk)]

theorem Tracking.lookup_of_mem_escaped (h : Tracking ids b) {u : wrappedEval}
    (hu : u ∈ Map.vals b.escaped) : b.escaped.lookup u.eval.ID = some u := by
  obtain ⟨k, hk⟩ := Map.mem_vals.mp hu
  rwa [h.key k u (.inr hk)]

-- ---------------------------------------------------------------------------
-- Blocking
-- ---------------------------------------------------------------------------

theorem Tracking.processBlockJobDuplicate (h : Tracking ids b) {eval : Evaluation} {nc : Bool}
    (hr : b.processBlockJobDuplicate eval = (b', nc)) :
    Tracking ids b' ∧ (nc = false → ∀ id w, b'.Tracks id w → w.eval.namespacedID ≠ eval.namespacedID) := by
  unfold BlockedEvals.processBlockJobDuplicate at hr
  split at hr
  next hJ =>
    cases hr
    refine ⟨h, fun _ id w hw hwJ => ?_⟩
    have hid := h.job id w hw
    rw [hwJ, hJ] at hid
    cases hid
  next existingID hJ =>
    split at hr
    next existingW hc =>
      split at hr
      next =>
        -- the older captured evaluation is dropped
        cases hr
        have hs : Shrinks b { b with
            captured := b.captured.erase existingID
            stats := { b.stats with TotalBlocked := b.stats.TotalBlocked - 1 }
            duplicates := b.duplicates ++ [existingW.eval] } :=
          ⟨fun _ _ hw => (Map.lookup_erase_eq_some hw).2, fun _ _ hw => hw, fun _ _ _ => rfl⟩
        refine ⟨h.shrink hs, fun _ => h.job_ne (fun _ _ => hs.tracks) (.inr hJ) ?_⟩
        rintro w (hw | hw)
        · simp at hw
        · exact h.disjoint _ _ _ hc hw
      next =>
        cases hr
        exact ⟨h.shrink (.of_eq rfl rfl rfl), nofun⟩
    next hc =>
      split at hr
      next he =>
        -- neither map holds the job's entry: it is dropped
        cases hr
        have hgone : ∀ w, ¬ b.Tracks existingID w := by
          rintro w (hw | hw)
          · rw [hc] at hw; cases hw
          · rw [he] at hw; cases hw
        exact ⟨h.shrink (.eraseJob h (fun _ _ hw => hw) (fun _ _ hw => hw) (.inr hJ) hgone rfl),
          fun _ => h.job_ne (fun _ _ hw => hw) (.inr hJ) hgone⟩
      next existingW he =>
        split at hr
        next =>
          -- the older escaped evaluation is dropped
          cases hr
          have hs : Shrinks b { b with
              escaped := b.escaped.erase existingID
              stats := { b.stats with TotalEscaped := b.stats.TotalEscaped - 1 }
              duplicates := b.duplicates ++ [existingW.eval] } :=
            ⟨fun _ _ hw => hw, fun _ _ hw => (Map.lookup_erase_eq_some hw).2, fun _ _ _ => rfl⟩
          refine ⟨h.shrink hs, fun _ => h.job_ne (fun _ _ => hs.tracks) (.inr hJ) ?_⟩
          rintro w (hw | hw)
          · exact absurd (hc ▸ hw) nofun
          · simp at hw
        next =>
          cases hr
          exact ⟨h.shrink (.of_eq rfl rfl rfl), nofun⟩

theorem Tracking.insert (h : Tracking ids b) (new : wrappedEval)
    (hclear : ∀ id w, b.Tracks id w → w.eval.namespacedID ≠ new.eval.namespacedID)
    (hown : ids new.eval.ID = new.eval.namespacedID)
    (hmaps : (b'.captured = b.captured.insert new.eval.ID new ∧ b'.escaped = b.escaped) ∨
      (b'.captured = b.captured ∧ b'.escaped = b.escaped.insert new.eval.ID new))
    (hjobs : b'.jobs = b.jobs.insert new.eval.namespacedID new.eval.ID) : Tracking ids b' := by
  have hfree : ∀ w, ¬ b.Tracks new.eval.ID w := fun w hw =>
    hclear _ _ hw ((h.owner _ _ hw).symm.trans hown)
  -- what `b'` tracks is `new`, or was tracked by `b` under another ID
  have htr : ∀ id w, b'.Tracks id w → (id = new.eval.ID ∧ w = new) ∨ b.Tracks id w := by
    rintro id w (hw | hw) <;> rcases hmaps with ⟨hc, he⟩ | ⟨hc, he⟩
    · rw [hc, Map.lookup_insert_eq_some] at hw
      exact hw.imp (fun h => ⟨h.1, h.2.symm⟩) fun h => .inl h.2
    · rw [hc] at hw; exact .inr (.inl hw)
    · rw [he] at hw; exact .inr (.inr hw)
    · rw [he, Map.lookup_insert_eq_some] at hw
      exact hw.imp (fun h => ⟨h.1, h.2.symm⟩) fun h => .inr h.2
  refine ⟨fun id w hw => ?_, fun id w w' hc he => ?_, fun id w hw => ?_, fun id w hw => ?_⟩
  · rcases htr id w hw with ⟨rfl, rfl⟩ | hw
    · rfl
    · exact h.key id w hw
  · rcases hmaps with ⟨hc', he'⟩ | ⟨hc', he'⟩
    · rw [hc', Map.lookup_insert_eq_some] at hc
      rw [he'] at he
      rcases hc with ⟨rfl, -⟩ | ⟨-, hc⟩
      · exact hfree w' (.inr he)
      · exact h.disjoint id w w' hc he
    · rw [he', Map.lookup_insert_eq_some] at he
      rw [hc'] at hc
      rcases he with ⟨rfl, -⟩ | ⟨-, he⟩
      · exact hfree w (.inl hc)
      · exact h.disjoint id w w' hc he
  · rw [hjobs]
    rcases htr id w hw with ⟨rfl, rfl⟩ | hw
    · exact AList.lookup_insert _
    · rw [AList.lookup_insert_ne (hclear id w hw)]
      exact h.job id w hw
  · rcases htr id w hw with ⟨rfl, rfl⟩ | hw
    · exact hown
    · exact h.owner id w hw

theorem Tracking.trackBlocked (h : Tracking ids b) {eval : Evaluation} {token : String}
    {out : List (Evaluation × String)}
    (hclear : ∀ id w, b.Tracks id w → w.eval.namespacedID ≠ eval.namespacedID)
    (hown : ids eval.ID = eval.namespacedID) (hr : b.trackBlocked eval token = .ok (b', out)) :
    Tracking ids b' := by
  unfold BlockedEvals.trackBlocked at hr
  split at hr
  · cases hr
    exact h
  · cases hesc : eval.EscapedComputedClass <;> simp only [hesc, Bool.false_eq_true, if_false, if_true] at hr
    · obtain ⟨system, -, hb⟩ := Outcome.map_eq_ok.mp hr
      cases hb
      exact h.insert ⟨eval, token⟩ hclear hown (.inl ⟨rfl, rfl⟩) rfl
    · cases hr
      exact h.insert ⟨eval, token⟩ hclear hown (.inr ⟨rfl, rfl⟩) rfl

theorem Tracking.processBlock (h : Tracking ids b) {eval : Evaluation} {token : String}
    {out : List (Evaluation × String)} (hown : ids eval.ID = eval.namespacedID)
    (hr : b.processBlock eval token = .ok (b', out)) : Tracking ids b' := by
  unfold BlockedEvals.processBlock at hr
  split at hr
  · cases hr
    exact h
  · split at hr
    next b₁ hd =>
      cases hr
      exact (h.processBlockJobDuplicate hd).1
    next b₁ hd =>
      obtain ⟨h₁, hclear⟩ := h.processBlockJobDuplicate hd
      exact h₁.trackBlocked (hclear rfl) hown hr

-- ---------------------------------------------------------------------------
-- Untracking and unblocking
-- ---------------------------------------------------------------------------

theorem foldl_removeSystem_maps (es : List Evaluation) (b : BlockedEvals) :
    (es.foldl removeSystem b).captured = b.captured ∧ (es.foldl removeSystem b).escaped = b.escaped ∧
      (es.foldl removeSystem b).jobs = b.jobs := by
  induction es generalizing b with
  | nil => exact ⟨rfl, rfl, rfl⟩
  | cons e es ih => exact ih (b.removeSystem e)

theorem Tracking.foldl_removeSystem (h : Tracking ids b) (es : List Evaluation) :
    Tracking ids (es.foldl removeSystem b) :=
  let ⟨hc, he, hj⟩ := foldl_removeSystem_maps es b
  h.shrink (.of_eq hc he hj)

theorem Tracking.untrackCaptured (h : Tracking ids b) {nsID : NamespacedID} {evalID : String}
    (hJ : b.jobs.lookup nsID = some evalID) :
    Tracking ids (b.untrackCaptured nsID evalID) ∧
      ((b.untrackCaptured nsID evalID).jobs.lookup nsID = none ∨
        (b.untrackCaptured nsID evalID).jobs.lookup nsID = some evalID) ∧
      (b.untrackCaptured nsID evalID).captured.lookup evalID = none := by
  unfold BlockedEvals.untrackCaptured
  split
  next w hc =>
    refine ⟨h.shrink (.eraseJob h (fun _ _ hw => (Map.lookup_erase_eq_some hw).2) (fun _ _ hw => hw)
      (.inr hJ) ?_ rfl), .inl (AList.lookup_erase _ _), AList.lookup_erase _ _⟩
    rintro w' (hw | hw)
    · simp at hw
    · exact h.disjoint _ _ _ hc hw
  next hc => exact ⟨h, .inr hJ, hc⟩

theorem Tracking.untrackEscaped (h : Tracking ids b) {nsID : NamespacedID} {evalID : String}
    (hJ : b.jobs.lookup nsID = none ∨ b.jobs.lookup nsID = some evalID)
    (hc : b.captured.lookup evalID = none) : Tracking ids (b.untrackEscaped nsID evalID) := by
  unfold BlockedEvals.untrackEscaped
  split
  next w he =>
    refine h.shrink (.eraseJob h (fun _ _ hw => hw) (fun _ _ hw => (Map.lookup_erase_eq_some hw).2)
      hJ ?_ rfl)
    rintro w' (hw | hw)
    · exact absurd (hc ▸ hw) nofun
    · simp at hw
  next => exact h

theorem Tracking.Untrack (h : Tracking ids b) (jobID ns : String) :
    Tracking ids (b.Untrack jobID ns) := by
  unfold BlockedEvals.Untrack
  split
  · exact h
  · dsimp only
    split
    · exact h.foldl_removeSystem _
    · split
      · exact h
      next evalID hJ =>
        obtain ⟨h₁, hJ₁, hc₁⟩ := h.untrackCaptured hJ
        exact h₁.untrackEscaped hJ₁ hc₁

theorem Tracking.recordUnblock (h : Tracking ids b) (keys : List String) (index : Nat)
    (update : capacityUpdate) : Tracking ids (b.recordUnblock keys index update) := by
  unfold BlockedEvals.recordUnblock
  split
  · exact h
  · exact h.shrink (.of_eq rfl rfl rfl)

theorem Tracking.unblock (h : Tracking ids b) (computedClass quota : String) :
    Tracking ids (b.unblock computedClass quota).1 := by
  unfold BlockedEvals.unblock
  split
  · exact h
  -- the captured evaluations released: tracked in `b` under their ID, and not kept
  have hout : ∀ u ∈ (Map.vals b.captured).filter fun w => !staysBlocked computedClass quota w,
      b.captured.lookup u.eval.ID = some u ∧ staysBlocked computedClass quota u = false := by
    intro u hu
    rw [List.mem_filter, Bool.not_eq_true'] at hu
    exact ⟨h.lookup_of_mem_captured hu.1, hu.2⟩
  have hcap : ∀ id w, (b.captured.filter fun _ w => staysBlocked computedClass quota w).lookup id =
      some w → b.captured.lookup id = some w ∧ staysBlocked computedClass quota w = true :=
    fun _ _ hw => Map.lookup_filter_eq_some.mp hw
  by_cases hrel : b.escaped.entries.length ≠ 0 ∧ computedClass ≠ ""
  · -- every escaped evaluation is released too
    simp only [hrel, ne_eq, not_false_eq_true, and_self, if_true]
    have hs : Shrinks b { b with
        escaped := ∅
        captured := b.captured.filter fun _ w => staysBlocked computedClass quota w
        jobs := releaseJobs b.jobs (Map.vals b.escaped ++
          (Map.vals b.captured).filter fun w => !staysBlocked computedClass quota w) } := by
      refine .release h (fun id w hw => (hcap id w hw).1) (fun _ _ hw => by simp at hw) ?_ rfl
      intro u hu
      rcases List.mem_append.mp hu with hu | hu
      · have he := h.lookup_of_mem_escaped hu
        refine ⟨.inr he, ?_⟩
        rintro w (hw | hw)
        · exact h.disjoint _ _ _ (hcap _ _ hw).1 he
        · simp at hw
      · obtain ⟨hc, hstay⟩ := hout u hu
        refine ⟨.inl hc, ?_⟩
        rintro w (hw | hw)
        · obtain ⟨hc', hstay'⟩ := hcap _ _ hw
          rw [hc] at hc'
          cases hc'
          rw [hstay] at hstay'
          cases hstay'
        · simp at hw
    split
    · exact h.shrink { hs with jobs := hs.jobs }
    · exact h.shrink hs
  · simp only [hrel, if_false, List.nil_append]
    have hs : Shrinks b { b with
        captured := b.captured.filter fun _ w => staysBlocked computedClass quota w
        jobs := releaseJobs b.jobs
          ((Map.vals b.captured).filter fun w => !staysBlocked computedClass quota w) } := by
      refine .release h (fun id w hw => (hcap id w hw).1) (fun _ _ hw => hw) ?_ rfl
      intro u hu
      obtain ⟨hc, hstay⟩ := hout u hu
      refine ⟨.inl hc, ?_⟩
      rintro w (hw | hw)
      · obtain ⟨hc', hstay'⟩ := hcap _ _ hw
        rw [hc] at hc'
        cases hc'
        rw [hstay] at hstay'
        cases hstay'
      · exact h.disjoint _ _ _ hc hw
    split
    · exact h.shrink { hs with jobs := hs.jobs }
    · exact h.shrink hs

theorem Tracking.watchCapacity (h : Tracking ids b) : Tracking ids b.watchCapacity.1 := by
  unfold BlockedEvals.watchCapacity
  split
  · exact h
  · refine Tracking.unblock ?_ _ _
    exact h.shrink (.of_eq rfl rfl rfl)

theorem Tracking.UnblockNode (h : Tracking ids b) (nodeID : String) :
    Tracking ids (b.UnblockNode nodeID).1 := by
  unfold BlockedEvals.UnblockNode
  split
  next evals ok _ =>
    split
    · exact h
    · have := h.foldl_removeSystem (evals.map Prod.fst)
      rwa [List.foldl_map] at this

theorem Tracking.UnblockFailed (h : Tracking ids b) : Tracking ids b.UnblockFailed.1 := by
  unfold BlockedEvals.UnblockFailed
  split
  · exact h
  have hcap : ∀ id w, (b.captured.filter fun _ w => !failedOnMaxPlans w).lookup id = some w →
      b.captured.lookup id = some w ∧ failedOnMaxPlans w = false := fun _ _ hw => by
    simpa using Map.lookup_filter_eq_some.mp hw
  have hesc : ∀ id w, (b.escaped.filter fun _ w => !failedOnMaxPlans w).lookup id = some w →
      b.escaped.lookup id = some w ∧ failedOnMaxPlans w = false := fun _ _ hw => by
    simpa using Map.lookup_filter_eq_some.mp hw
  -- the released evaluations, from either map, are tracked in `b` and kept in neither filter
  have hu : ∀ u ∈ (Map.vals b.captured).filter failedOnMaxPlans ++ (Map.vals b.escaped).filter failedOnMaxPlans,
      b.Tracks u.eval.ID u ∧ ∀ w,
        ¬ ((b.captured.filter fun _ w => !failedOnMaxPlans w).lookup u.eval.ID = some w ∨
          (b.escaped.filter fun _ w => !failedOnMaxPlans w).lookup u.eval.ID = some w) := by
    intro u hu
    rcases List.mem_append.mp hu with hu | hu <;> rw [List.mem_filter] at hu
    · have hc := h.lookup_of_mem_captured hu.1
      refine ⟨.inl hc, ?_⟩
      rintro w (hw | hw)
      · obtain ⟨hc', hf⟩ := hcap _ _ hw
        rw [hc] at hc'
        cases hc'
        rw [hu.2] at hf
        cases hf
      · exact h.disjoint _ _ _ hc (hesc _ _ hw).1
    · have he := h.lookup_of_mem_escaped hu.1
      refine ⟨.inr he, ?_⟩
      rintro w (hw | hw)
      · exact h.disjoint _ _ _ (hcap _ _ hw).1 he
      · obtain ⟨he', hf⟩ := hesc _ _ hw
        rw [he] at he'
        cases he'
        rw [hu.2] at hf
        cases hf
  dsimp only
  split <;> exact h.shrink (.release h (fun id w hw => (hcap id w hw).1) (fun id w hw => (hesc id w hw).1) hu rfl)

theorem Tracking.SetEnabled (h : Tracking ids b) (enabled : Bool) :
    Tracking ids (b.SetEnabled enabled) := by
  unfold BlockedEvals.SetEnabled
  split
  · exact h
  · split
    · exact h.shrink (.of_eq rfl rfl rfl)
    · -- disabling flushes the maps
      exact tracking_new.shrink (.of_eq rfl rfl rfl)

-- ---------------------------------------------------------------------------
-- Runs
-- ---------------------------------------------------------------------------

theorem fst_of_ok {x : BlockedEvals × List (Evaluation × String)} {out : List (Evaluation × String)}
    (hs : Outcome.ok x = .ok (b', out)) : x.1 = b' :=
  congrArg Prod.fst (Outcome.ok.inj hs)

theorem Tracking.step (h : Tracking ids b) {e : Event} (he : e.Owned ids)
    {out : List (Evaluation × String)} (hs : b.step e = .ok (b', out)) : Tracking ids b' := by
  cases e with
  | Block eval => exact h.processBlock he hs
  | Reblock eval token => exact h.processBlock he hs
  | Untrack jobID ns => rw [← fst_of_ok hs]; exact h.Untrack jobID ns
  | Unblock computedClass index => rw [← fst_of_ok hs]; exact h.recordUnblock _ _ _
  | UnblockQuota quota index =>
    rw [← fst_of_ok hs]
    unfold BlockedEvals.UnblockQuota
    split
    · exact h
    · exact h.recordUnblock _ _ _
  | UnblockClassAndQuota c quota index => rw [← fst_of_ok hs]; exact h.recordUnblock _ _ _
  | watchCapacity => rw [← fst_of_ok hs]; exact h.watchCapacity
  | UnblockNode nodeID => rw [← fst_of_ok hs]; exact h.UnblockNode nodeID
  | UnblockFailed => rw [← fst_of_ok hs]; exact h.UnblockFailed
  | GetDuplicates => rw [← fst_of_ok hs]; exact h.shrink (.of_eq rfl rfl rfl)
  | SetEnabled enabled => rw [← fst_of_ok hs]; exact h.SetEnabled enabled
  | prune oldThreshold => rw [← fst_of_ok hs]; exact h.shrink (.of_eq rfl rfl rfl)

theorem Tracking.run (h : Tracking ids b) {es : List Event} (hes : ∀ e ∈ es, e.Owned ids)
    {out : List (Evaluation × String)} (hr : b.run es = .ok (b', out)) : Tracking ids b' := by
  induction es generalizing b out with
  | nil =>
    cases hr
    exact h
  | cons e es ih =>
    obtain ⟨⟨b₁, out₁⟩, h₁, hrest⟩ := Outcome.bind_eq_ok.mp hr
    obtain ⟨⟨b₂, out₂⟩, h₂, hb⟩ := Outcome.map_eq_ok.mp hrest
    cases hb
    exact ih (h.step (hes e (.head _)) h₁) (fun e he => hes e (.tail _ he)) h₂

theorem Tracking.eq_of_job (h : Tracking ids b) {id₁ id₂ : String} {w₁ w₂ : wrappedEval}
    (h₁ : b.Tracks id₁ w₁) (h₂ : b.Tracks id₂ w₂) (hjob : w₁.eval.namespacedID = w₂.eval.namespacedID) :
    id₁ = id₂ ∧ w₁ = w₂ ∧ b.jobs.lookup w₁.eval.namespacedID = some id₁ := by
  have hj₁ := h.job id₁ w₁ h₁
  obtain rfl : id₁ = id₂ := by
    have hj₂ := h.job id₂ w₂ h₂
    rw [← hjob, hj₁] at hj₂
    exact Option.some.inj hj₂
  refine ⟨rfl, ?_, hj₁⟩
  rcases h₁ with h₁ | h₁ <;> rcases h₂ with h₂ | h₂
  · exact Option.some.inj (h₁.symm.trans h₂)
  · exact (h.disjoint _ _ _ h₁ h₂).elim
  · exact (h.disjoint _ _ _ h₂ h₁).elim
  · exact Option.some.inj (h₁.symm.trans h₂)

end BlockedEvals

/-- **One blocked evaluation per job.** Over every run of calls from a new tracker, as long as no
evaluation ID is used for two jobs, two evaluations tracked in `captured` or `escaped` for one job
are the same one under the same ID, and `jobs` maps the job to that ID. -/
theorem run_keeps_one_blocked_eval_per_job (ids : String → NamespacedID) (es : List Event)
    (hes : ∀ e ∈ es, e.Owned ids) {b : BlockedEvals} {out : List (Evaluation × String)}
    (hr : NewBlockedEvals.run es = .ok (b, out)) {id₁ id₂ : String} {w₁ w₂ : wrappedEval}
    (h₁ : b.Tracks id₁ w₁) (h₂ : b.Tracks id₂ w₂) (hjob : w₁.eval.namespacedID = w₂.eval.namespacedID) :
    id₁ = id₂ ∧ w₁ = w₂ ∧ b.jobs.lookup w₁.eval.namespacedID = some id₁ :=
  (BlockedEvals.tracking_new.run hes hr).eq_of_job h₁ h₂ hjob

/-- Blocking two escaped evaluations of job `web`: the newer one is tracked, and named by `jobs`. -/
theorem run_keeps_one_blocked_eval_per_job_web :
    let es : List Event :=
      [.SetEnabled true, .Block (escapedEval "e1" 10), .Block (escapedEval "e2" 20)]
    ∃ b out, NewBlockedEvals.run es = .ok (b, out) ∧ b.Tracks "e2" ⟨escapedEval "e2" 20, ""⟩ ∧
      b.jobs.lookup (escapedEval "e2" 20).namespacedID = some "e2" := by
  intro es
  have hes : ∀ e ∈ es, e.Owned fun _ => ⟨"web", "default"⟩ := by
    simp [es, Event.Owned, escapedEval, Evaluation.namespacedID]
  obtain ⟨b, out, hr, ht⟩ : ∃ b out, NewBlockedEvals.run es = .ok (b, out) ∧
      b.Tracks "e2" ⟨escapedEval "e2" 20, ""⟩ := ⟨_, _, rfl, .inr (by decide)⟩
  exact ⟨b, out, hr, ht, (run_keeps_one_blocked_eval_per_job _ es hes hr ht ht rfl).2.2⟩

end Nomad.Server
