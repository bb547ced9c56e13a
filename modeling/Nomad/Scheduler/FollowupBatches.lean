import Nomad.Scheduler.Reconcile

/-!
# The follow-up evaluations of delayed reschedules

`handleDelayedReschedules` sorts the allocations to reschedule later by time and walks them
once. An allocation joins the current batch while it is due less than
`batchedFailedAllocWindowSize` after the batch's first one, and opens a new batch otherwise.
`Batches` is what the walk keeps: the evaluations so far, in increasing `WaitUntil`, each with a
fresh ID, and every allocation seen mapped to the evaluation whose window holds its time.
-/

namespace Nomad.Scheduler

open Go Structs Container allocReconciler

def InBatch (e : Evaluation) (t : Time) : Prop :=
  e.WaitUntil.ns ≤ t.ns ∧ t.ns < e.WaitUntil.ns + batchedFailedAllocWindowSize

/-- Past the start of the batch, the saturated `Sub` of the loop is the plain difference as far
as the window comparison goes. -/
theorem sub_lt_window_iff {t u : Time} (hle : t.ns ≤ u.ns) :
    u.Sub t < batchedFailedAllocWindowSize ↔ u.ns - t.ns < batchedFailedAllocWindowSize := by
  -- `omega` reads the literals only at `Int`, not through the `Duration` abbreviation
  show max (-2 ^ 63 : Int) (min (2 ^ 63 - 1) (u.ns - t.ns)) < (5000000000 : Int) ↔
    u.ns - t.ns < (5000000000 : Int)
  omega

/-- What `followupLoop` keeps over the allocations `done` it has walked: `evals` ends with the
current batch's `eval`, which starts at `t`; their `WaitUntil`s increase and their IDs are the
`uuids` taken from `k0` on; every allocation walked is mapped to an evaluation whose window holds
its time. -/
structure Batches (uuids : Nat → String) (k0 : Nat) (a : allocReconciler) (evals : List Evaluation)
    (eval : Evaluation) (t : Time) (ids : Map String String) (done : List delayedRescheduleInfo) :
    Prop where
  uuids_eq : a.uuids = uuids
  taken : a.uuidsTaken = k0 + evals.length
  fresh : evals.map (·.ID) = (List.range evals.length).map fun i => uuids (k0 + i)
  last : evals.getLast? = some eval
  start : eval.WaitUntil = t
  le_start : ∀ e ∈ evals, e.WaitUntil.ns ≤ t.ns
  increasing : (evals.map (·.WaitUntil.ns)).Pairwise (· < ·)
  assigned : ∀ x ∈ done, ∃ e ∈ evals, ids.lookup x.allocID = some e.ID ∧ InBatch e x.rescheduleTime

namespace Batches

variable {uuids : Nat → String} {k0 : Nat} {a : allocReconciler} {evals : List Evaluation}
  {eval : Evaluation} {t : Time} {ids : Map String String} {done : List delayedRescheduleInfo}

theorem eval_mem (h : Batches uuids k0 a evals eval t ids done) : eval ∈ evals :=
  List.mem_of_getLast? h.last

theorem assigned_insert {E : List Evaluation} (hE : ∀ e ∈ evals, e ∈ E)
    (h : Batches uuids k0 a evals eval t ids done) (x : delayedRescheduleInfo) {e : Evaluation}
    (he : e ∈ E) (hin : InBatch e x.rescheduleTime)
    (htime : ∀ y ∈ done, y.allocID = x.allocID → y.rescheduleTime = x.rescheduleTime) :
    ∀ y ∈ done ++ [x], ∃ e' ∈ E, (ids.insert x.allocID e.ID).lookup y.allocID = some e'.ID ∧
      InBatch e' y.rescheduleTime := by
  intro y hy
  by_cases hid : y.allocID = x.allocID
  · -- `y` shares `x`'s ID and so its time: it moves to `e` with `x`
    have hyt : y.rescheduleTime = x.rescheduleTime := by
      rcases List.mem_append.mp hy with hy | hy
      · exact htime y hy hid
      · rw [List.mem_singleton.mp hy]
    refine ⟨e, he, ?_, hyt ▸ hin⟩
    rw [hid, AList.lookup_insert]
  · have hy' : y ∈ done := by
      rcases List.mem_append.mp hy with hy | hy
      · exact hy
      · exact absurd (congrArg (·.allocID) (List.mem_singleton.mp hy)) hid
    obtain ⟨e', he', hl, hb⟩ := h.assigned y hy'
    exact ⟨e', hE e' he', by rw [AList.lookup_insert_ne hid, hl], hb⟩

theorem join (h : Batches uuids k0 a evals eval t ids done) (x : delayedRescheduleInfo)
    (hle : t.ns ≤ x.rescheduleTime.ns)
    (hsub : x.rescheduleTime.Sub t < batchedFailedAllocWindowSize)
    (htime : ∀ y ∈ done, y.allocID = x.allocID → y.rescheduleTime = x.rescheduleTime) :
    Batches uuids k0 a evals eval t (ids.insert x.allocID eval.ID) (done ++ [x]) := by
  have hin : InBatch eval x.rescheduleTime := by
    rw [sub_lt_window_iff hle] at hsub
    exact ⟨h.start ▸ hle, by rw [h.start]; omega⟩
  exact { h with assigned := h.assigned_insert (fun _ he => he) x h.eval_mem hin htime }

theorem «open» (h : Batches uuids k0 a evals eval t ids done) (job : Job)
    (x : delayedRescheduleInfo) (hle : t.ns ≤ x.rescheduleTime.ns)
    (hsub : ¬ x.rescheduleTime.Sub t < batchedFailedAllocWindowSize)
    (htime : ∀ y ∈ done, y.allocID = x.allocID → y.rescheduleTime = x.rescheduleTime) :
    let e := followupEval job a.generateUUID.2 x.rescheduleTime ""
    Batches uuids k0 a.generateUUID.1 (evals ++ [e]) e x.rescheduleTime
      (ids.insert x.allocID a.generateUUID.2) (done ++ [x]) := by
  intro e
  have hlt : t.ns < x.rescheduleTime.ns := by
    rw [sub_lt_window_iff hle] at hsub
    simp only [batchedFailedAllocWindowSize] at hsub
    omega
  have hwait : e.WaitUntil = x.rescheduleTime := rfl
  have hin : InBatch e x.rescheduleTime := by
    refine ⟨by rw [hwait], ?_⟩
    rw [hwait]
    show x.rescheduleTime.ns < x.rescheduleTime.ns + (5000000000 : Int)
    omega
  have hmem : ∀ e' ∈ evals, e' ∈ evals ++ [e] := fun _ he' => List.mem_append_left _ he'
  refine ⟨h.uuids_eq, ?_, ?_, by simp, rfl, ?_, ?_, ?_⟩
  · simp [generateUUID, h.taken]
    omega
  · rw [List.map_append, h.fresh, List.length_append, List.length_singleton, List.range_succ,
      List.map_append]
    simp [e, followupEval, generateUUID, h.taken, h.uuids_eq]
  · intro e' he'
    rcases List.mem_append.mp he' with he' | he'
    · exact le_of_lt (lt_of_le_of_lt (h.le_start e' he') hlt)
    · rw [List.mem_singleton.mp he', hwait]
  · rw [List.map_append, List.pairwise_append]
    refine ⟨h.increasing, List.pairwise_singleton _ _, ?_⟩
    intro u hu v hv
    obtain ⟨e', he', rfl⟩ := List.mem_map.mp hu
    rw [List.map_singleton, List.mem_singleton] at hv
    rw [hv, hwait]
    exact lt_of_le_of_lt (h.le_start e' he') hlt
  · have he : e ∈ evals ++ [e] := List.mem_append_right _ (List.mem_singleton_self _)
    exact h.assigned_insert hmem x he hin htime

end Batches

/-- The whole walk over infos due no earlier than the current batch, in time order, keeps
`Batches`. -/
theorem followupLoop_batches (job : Job) (uuids : Nat → String) (k0 : Nat) :
    ∀ (l : List delayedRescheduleInfo) (a : allocReconciler) (evals : List Evaluation)
      (eval : Evaluation) (t : Time) (ids : Map String String) (done : List delayedRescheduleInfo),
      Batches uuids k0 a evals eval t ids done →
      l.Pairwise (fun x y => x.rescheduleTime.ns ≤ y.rescheduleTime.ns) →
      (∀ x ∈ l, t.ns ≤ x.rescheduleTime.ns) →
      (∀ x ∈ done ++ l, ∀ y ∈ done ++ l, x.allocID = y.allocID →
        x.rescheduleTime = y.rescheduleTime) →
      let r := followupLoop job l a evals eval t ids
      ∃ eval' t', Batches uuids k0 r.1 r.2.1 eval' t' r.2.2 (done ++ l)
  | [], a, evals, eval, t, ids, done, h, _, _, _ => ⟨eval, t, by simpa [followupLoop] using h⟩
  | x :: l, a, evals, eval, t, ids, done, h, hsort, hge, htime => by
    obtain ⟨hx, hsort⟩ := List.pairwise_cons.mp hsort
    have hxt : t.ns ≤ x.rescheduleTime.ns := hge x (List.mem_cons_self ..)
    -- later infos are due no earlier than `x`, and so no earlier than either next batch start
    have hl : ∀ y ∈ l, t.ns ≤ y.rescheduleTime.ns :=
      fun y hy => hge y (List.mem_cons_of_mem _ hy)
    have hdone : ∀ y ∈ done, y.allocID = x.allocID → y.rescheduleTime = x.rescheduleTime :=
      fun y hy hid => htime y (List.mem_append_left _ hy) x (by simp) hid
    have htime' : ∀ u ∈ (done ++ [x]) ++ l, ∀ v ∈ (done ++ [x]) ++ l, u.allocID = v.allocID →
        u.rescheduleTime = v.rescheduleTime := by
      simpa only [List.append_assoc, List.singleton_append] using htime
    simp only [followupLoop]
    split_ifs with hsub
    · have := followupLoop_batches job uuids k0 l a evals eval t _ _ (h.join x hxt hsub hdone)
        hsort hl htime'
      simpa only [List.append_assoc, List.singleton_append] using this
    · have := followupLoop_batches job uuids k0 l _ _ _ _ _ _ (h.open job x hxt hsub hdone)
        hsort hx htime'
      simpa only [List.append_assoc, List.singleton_append] using this

namespace allocReconciler

variable (a : allocReconciler)

def setFollowupEvalID (all : allocSet) (m : Map String Allocation)
    (p : Σ _ : String, String) : Map String Allocation :=
  match all.find? (·.ID == p.1) with
  | some existing => m.insert existing.ID { existing with FollowupEvalID := p.2 }
  | none => m

theorem foldl_followupUpdates (all : allocSet) (F : allocReconciler → (Σ _ : String, String) →
    allocReconciler)
    (hF : ∀ a p, (F a p).result =
      { a.result with attributeUpdates := setFollowupEvalID all a.result.attributeUpdates p })
    (l : List (Σ _ : String, String)) :
    (l.foldl F a).result =
      { a.result with attributeUpdates := l.foldl (setFollowupEvalID all) a.result.attributeUpdates } := by
  induction l generalizing a with
  | nil => rfl
  | cons p l ih => rw [List.foldl_cons, List.foldl_cons, ih, hF]

theorem followupStep_local (all : allocSet) :
    Map.LocalStep
      (fun (p : Σ _ : String, String) old =>
        match all.find? (·.ID == p.1) with
        | some existing => some { existing with FollowupEvalID := p.2 }
        | none => old)
      (setFollowupEvalID all) := by
  intro m p k
  unfold setFollowupEvalID
  cases hf : all.find? (·.ID == p.1) with
  | none => simp only [hf, ite_self]
  | some existing =>
    have hid : existing.ID = p.1 := by simpa using List.find?_some hf
    simp only [hf]
    by_cases hk : k = existing.ID
    · rw [hk, AList.lookup_insert, if_pos hid]
    · rw [AList.lookup_insert_ne hk, if_neg (by rwa [← hid])]

end allocReconciler

open allocReconciler in
theorem handleDelayedReschedules_partitions (a : allocReconciler) (job : Job)
    (rescheduleLater : List delayedRescheduleInfo) (all : allocSet) (tgName : String)
    (hne : rescheduleLater ≠ []) (huuids : Function.Injective a.uuids)
    (htime : ∀ x ∈ rescheduleLater, ∀ y ∈ rescheduleLater, x.allocID = y.allocID →
      x.rescheduleTime = y.rescheduleTime) :
    let r := (a.handleDelayedReschedules job rescheduleLater all tgName).result
    ∃ evals, r.desiredFollowupEvals.lookup tgName = some evals ∧ (evals.map (·.ID)).Nodup ∧
      (evals.map (·.WaitUntil.ns)).Pairwise (· < ·) ∧
      ∀ x ∈ rescheduleLater, ∃ e ∈ evals, InBatch e x.rescheduleTime ∧
        ∀ y, all.find? (·.ID == x.allocID) = some y →
          r.attributeUpdates.lookup x.allocID = some { y with FollowupEvalID := e.ID } := by
  intro r
  -- the walk sees the allocations sorted by time
  let le := fun x y : delayedRescheduleInfo => ¬ y.rescheduleTime.Before x.rescheduleTime = true
  have : Std.Total le := ⟨fun x y => by simp only [le, Time.Before, decide_eq_true_eq]; omega⟩
  have : IsTrans delayedRescheduleInfo le :=
    ⟨fun x y z => by simp only [le, Time.Before, decide_eq_true_eq]; omega⟩
  have hperm := List.perm_insertionSort le rescheduleLater
  have hsorted : (rescheduleLater.insertionSort le).Pairwise
      (fun x y => x.rescheduleTime.ns ≤ y.rescheduleTime.ns) :=
    (List.pairwise_insertionSort le rescheduleLater).imp fun h => by
      simpa [le, Time.Before] using h
  obtain ⟨first, rest, hsplit⟩ : ∃ first rest, rescheduleLater.insertionSort le = first :: rest := by
    cases h : rescheduleLater.insertionSort le with
    | nil => exact absurd (h ▸ hperm).symm.eq_nil hne
    | cons first rest => exact ⟨first, rest, rfl⟩
  have hmem : ∀ x, x ∈ first :: rest ↔ x ∈ rescheduleLater := fun x => hsplit ▸ hperm.mem_iff
  rw [hsplit] at hsorted
  -- the first batch, opened before the walk, holds the first allocation's time
  let eval0 := followupEval job a.generateUUID.2 first.rescheduleTime reschedulingFollowupEvalDesc
  have h0 : Batches a.uuids a.uuidsTaken a.generateUUID.1 [eval0] eval0 first.rescheduleTime ∅ [] :=
    { uuids_eq := rfl
      taken := rfl
      fresh := rfl
      last := rfl
      start := rfl
      le_start := fun e he => by rw [List.mem_singleton.mp he]; exact le_rfl
      increasing := List.pairwise_singleton _ _
      assigned := fun _ hx => absurd hx List.not_mem_nil }
  have hge : ∀ x ∈ first :: rest, first.rescheduleTime.ns ≤ x.rescheduleTime.ns := by
    intro x hx
    rcases List.mem_cons.mp hx with rfl | hx
    · exact le_rfl
    · exact List.rel_of_pairwise_cons hsorted hx
  have htime' : ∀ x ∈ [] ++ first :: rest, ∀ y ∈ [] ++ first :: rest, x.allocID = y.allocID →
      x.rescheduleTime = y.rescheduleTime := fun x hx y hy =>
    htime x ((hmem x).mp (by simpa using hx)) y ((hmem y).mp (by simpa using hy))
  obtain ⟨eval', t', hB⟩ := followupLoop_batches job a.uuids a.uuidsTaken (first :: rest)
    a.generateUUID.1 [eval0] eval0 first.rescheduleTime ∅ [] h0 hsorted hge htime'
  simp only [r, handleDelayedReschedules]
  rw [hsplit]
  dsimp only
  generalize followupLoop job (first :: rest) a.generateUUID.1 [eval0] eval0
    first.rescheduleTime ∅ = res at hB
  rw [foldl_followupUpdates _ all _ ?turn]
  refine ⟨res.2.1, by simp [withResult], ?_, ?_, fun x hx => ?_⟩
  · rw [hB.fresh]
    exact List.nodup_range.map fun i j hij => by simpa using huuids hij
  · exact hB.increasing
  · obtain ⟨e, he, hl, hin⟩ := hB.assigned x (by simpa using (hmem x).mpr hx)
    refine ⟨e, he, hin, fun y hy => ?_⟩
    dsimp only
    rw [Map.lookup_foldl_entries (followupStep_local all), hl]
    simp [hy]
  case turn =>
    intro b p
    unfold setFollowupEvalID
    cases all.find? (·.ID == p.1) with
    | none => rfl
    | some existing => rfl


def countedUUIDs (n : Nat) : String := String.ofList (List.replicate n 'u')

theorem countedUUIDs_injective : Function.Injective countedUUIDs := by
  intro m n h
  have := congrArg String.length h
  simpa [countedUUIDs] using this

def webBatchJob : Job :=
  { ID := "web", Namespace := "default", «Type» := "service", Priority := 50, Stop := false,
    Version := 0, CreateIndex := 10, ModifyIndex := 10, JobModifyIndex := 10,
    TaskGroups := [{ Name := "web", Count := 3, Update := none, ReschedulePolicy := none }] }

def failedWebAlloc (id : String) : Allocation :=
  { ID := id, Name := 0, JobID := "web", Job := webBatchJob, TaskGroup := "web", NodeID := "n1",
    DesiredStatus := .run, DesiredTransition := ⟨none, none, none⟩, ClientStatus := .failed,
    DeploymentID := "", DeploymentStatus := none, TaskStates := [], RescheduleTracker := none,
    NextAllocation := "", FollowupEvalID := "", ModifyTime := 0 }

def webDelayed : List delayedRescheduleInfo :=
  [⟨"a0", failedWebAlloc "a0", ⟨0⟩⟩, ⟨"a1", failedWebAlloc "a1", ⟨3000000000⟩⟩,
    ⟨"a2", failedWebAlloc "a2", ⟨10000000000⟩⟩]

def webBatchReconciler : allocReconciler :=
  NewAllocReconciler (fun x _ _ => (true, false, x)) false "web" (some webBatchJob) none
    (webDelayed.map (·.alloc)) ∅ "eval1" ⟨0⟩ countedUUIDs

theorem handleDelayedReschedules_partitions_web :
    ∃ evals, (webBatchReconciler.handleDelayedReschedules webBatchJob webDelayed
        (webDelayed.map (·.alloc)) "web").result.desiredFollowupEvals.lookup "web" = some evals ∧
      (evals.map (·.WaitUntil.ns)).Pairwise (· < ·) := by
  obtain ⟨evals, h, -, hinc, -⟩ := handleDelayedReschedules_partitions webBatchReconciler webBatchJob
    webDelayed (webDelayed.map (·.alloc)) "web" (by simp [webDelayed]) countedUUIDs_injective
    (by decide)
  exact ⟨evals, h, hinc⟩

/-- `a1` joins the batch of `a0`; `a2`, ten seconds on, opens the second. -/
example : ((webBatchReconciler.handleDelayedReschedules webBatchJob webDelayed
    (webDelayed.map (·.alloc)) "web").result.desiredFollowupEvals.lookup "web").map
      (·.map (·.WaitUntil.ns)) = some [0, 10000000000] := by
  decide

end Nomad.Scheduler
