import Nomad.Server.BlockedEvals

/-!
# The three indexes of `systemEvals`

`systemEvals` keeps a blocked system evaluation three times: by ID in `evals`, in the set of its
node in `byNode`, and as the one evaluation of its job on its node in `byJob`. `Consistent` says
that the three describe the same evaluations. `Add` writes `byNode` and `evals` first and then
removes the evaluation it displaces, found through `byJob`; when the displaced ID is the one
being added, that removal deletes the new entry again, and `byJob` is left naming an ID that
`evals` no longer holds (`add_same_id_breaks_index`).

With IDs that are added once and removals of the evaluations the index holds, which is how the
tracker uses it, every run keeps the indexes consistent and `Add` never reaches the `nil`
dereference (`run_consistent`).
-/

namespace Nomad.Server

open Nomad.Structs Container Go

namespace systemEvals

def newSystemEvals : systemEvals := {}

inductive Op where
  | Add (eval : Evaluation) (token : String)
  | Remove (eval : Evaluation)
  deriving DecidableEq, Repr

def step (s : systemEvals) : Op → Outcome systemEvals
  | .Add eval token => s.Add eval token
  | .Remove eval => .ok (s.Remove eval)

def run (s : systemEvals) : List Op → Outcome systemEvals
  | [] => .ok s
  | op :: ops => (s.step op).bind fun s => run s ops

/-- The three indexes agree: what `byJob` names is stored under its job and node, `byNode`
holds an ID exactly when it is stored on that node, and every stored evaluation is the one
`byJob` names for its job and node, under its own ID. -/
structure Consistent (s : systemEvals) : Prop where
  byJob_evals : ∀ j n id, (s.jobNodes j).lookup n = some id →
    ∃ w, s.evals.lookup id = some w ∧ w.eval.namespacedID = j ∧ w.eval.NodeID = n
  byNode_iff : ∀ n id, id ∈ s.nodeEvalIDs n ↔ ∃ w, s.evals.lookup id = some w ∧ w.eval.NodeID = n
  evals_byJob : ∀ id w, s.evals.lookup id = some w →
    (s.jobNodes w.eval.namespacedID).lookup w.eval.NodeID = some id
  evals_id : ∀ id w, s.evals.lookup id = some w → w.eval.ID = id

theorem consistent_newSystemEvals : Consistent newSystemEvals where
  byJob_evals _ _ _ h := by simp [newSystemEvals, jobNodes] at h
  byNode_iff _ _ := by simp [newSystemEvals, nodeEvalIDs]
  evals_byJob _ _ h := by simp [newSystemEvals] at h
  evals_id _ _ h := by simp [newSystemEvals] at h

-- ---------------------------------------------------------------------------
-- What each write does to the three views
-- ---------------------------------------------------------------------------

section views

variable (s : systemEvals)

def insertEval (eval : Evaluation) (token : String) : systemEvals :=
  { s with
    byNode := s.byNode.insert eval.NodeID ((s.nodeEvalIDs eval.NodeID).insert eval.ID true)
    evals := s.evals.insert eval.ID ⟨eval, token⟩ }

def setJob (eval : Evaluation) : systemEvals :=
  { s with
    byJob := s.byJob.insert eval.namespacedID
      ((s.jobNodes eval.namespacedID).insert eval.NodeID eval.ID) }

/-- `Add` in three parts: insert, remove the displaced evaluation, set the job's entry. The
empty job map `Add` creates reads as the missing one. -/
theorem add_eq (eval : Evaluation) (token : String) :
    s.Add eval token =
      Outcome.map (setJob · eval)
        (match (s.jobNodes eval.namespacedID).lookup eval.NodeID with
        | none => .ok (s.insertEval eval token)
        | some prevID =>
          match (s.insertEval eval token).Get prevID with
          | some prev => .ok ((s.insertEval eval token).Remove prev.eval)
          | none => .panic) := by
  cases hj : s.byJob.lookup eval.namespacedID with
  | none =>
    -- the job had no map: `Add` inserts an empty one, which `setJob` overwrites
    simp only [Add, hj, Option.isNone_none, if_true, jobNodes, AList.lookup_insert,
      Option.getD_some]
    simp [Outcome.map, setJob, insertEval, jobNodes, hj, AList.insert_insert]
  | some nodes =>
    simp only [Add, hj, Option.isNone_some, Bool.false_eq_true, if_false]
    rfl

@[simp] theorem evals_insertEval (eval : Evaluation) (token : String) :
    (s.insertEval eval token).evals = s.evals.insert eval.ID ⟨eval, token⟩ := rfl

@[simp] theorem jobNodes_insertEval (eval : Evaluation) (token : String) :
    (s.insertEval eval token).jobNodes = s.jobNodes := rfl

theorem mem_nodeEvalIDs_insertEval (eval : Evaluation) (token : String) (n id : String) :
    id ∈ (s.insertEval eval token).nodeEvalIDs n ↔
      id ∈ s.nodeEvalIDs n ∨ (n = eval.NodeID ∧ id = eval.ID) := by
  by_cases hn : n = eval.NodeID
  · subst hn
    simp [insertEval, nodeEvalIDs, AList.mem_insert, or_comm]
  · simp [insertEval, nodeEvalIDs, AList.lookup_insert_ne hn, hn]

@[simp] theorem evals_setJob (eval : Evaluation) : (s.setJob eval).evals = s.evals := rfl

@[simp] theorem nodeEvalIDs_setJob (eval : Evaluation) :
    (s.setJob eval).nodeEvalIDs = s.nodeEvalIDs := rfl

theorem lookup_jobNodes_setJob (eval : Evaluation) (j : NamespacedID) (n : String) :
    ((s.setJob eval).jobNodes j).lookup n =
      if j = eval.namespacedID ∧ n = eval.NodeID then some eval.ID
      else (s.jobNodes j).lookup n := by
  by_cases hj : j = eval.namespacedID
  · subst hj
    by_cases hn : n = eval.NodeID
    · subst hn
      simp [setJob, jobNodes]
    · simp [setJob, jobNodes, AList.lookup_insert_ne hn, hn]
  · simp [setJob, jobNodes, AList.lookup_insert_ne hj, hj]

@[simp] theorem evals_remove (eval : Evaluation) : (s.Remove eval).evals = s.evals.erase eval.ID := rfl

theorem nodeEvalIDs_remove (eval : Evaluation) (n : String) :
    (s.Remove eval).nodeEvalIDs n =
      if n = eval.NodeID then (s.nodeEvalIDs eval.NodeID).erase eval.ID else s.nodeEvalIDs n := by
  have hb : (s.Remove eval).byNode =
      if ((s.nodeEvalIDs eval.NodeID).erase eval.ID).entries.length = 0 then
        s.byNode.erase eval.NodeID
      else s.byNode.insert eval.NodeID ((s.nodeEvalIDs eval.NodeID).erase eval.ID) := rfl
  by_cases hn : n = eval.NodeID
  · subst hn
    rw [if_pos rfl]
    by_cases hempty : ((s.nodeEvalIDs eval.NodeID).erase eval.ID).entries.length = 0
    · rw [nodeEvalIDs, hb, if_pos hempty, AList.lookup_erase, Option.getD_none]
      exact AList.ext (List.length_eq_zero_iff.mp hempty).symm
    · rw [nodeEvalIDs, hb, if_neg hempty, AList.lookup_insert, Option.getD_some]
  · rw [if_neg hn, nodeEvalIDs, nodeEvalIDs, hb]
    split_ifs <;> simp [AList.lookup_erase_ne hn, AList.lookup_insert_ne hn]

theorem mem_nodeEvalIDs_remove (eval : Evaluation) (n id : String) :
    id ∈ (s.Remove eval).nodeEvalIDs n ↔ id ∈ s.nodeEvalIDs n ∧ ¬ (n = eval.NodeID ∧ id = eval.ID) := by
  rw [nodeEvalIDs_remove]
  split_ifs with hn
  · subst hn
    simp [AList.mem_erase, and_comm]
  · simp [hn]

theorem lookup_jobNodes_remove (eval : Evaluation) (j : NamespacedID) (n : String) :
    ((s.Remove eval).jobNodes j).lookup n =
      if j = eval.namespacedID ∧ n = eval.NodeID ∧ (s.jobNodes j).lookup n = some eval.ID then none
      else (s.jobNodes j).lookup n := by
  by_cases hc : (s.jobNodes eval.namespacedID).lookup eval.NodeID = some eval.ID
  · -- the job index named this evaluation: its node is erased from the job's map
    have hb : (s.Remove eval).byJob =
        s.byJob.insert eval.namespacedID ((s.jobNodes eval.namespacedID).erase eval.NodeID) :=
      if_pos hc
    by_cases hj : j = eval.namespacedID
    · subst hj
      by_cases hn : n = eval.NodeID
      · subst hn
        rw [if_pos ⟨rfl, rfl, hc⟩]
        simp [jobNodes, hb]
      · simp [jobNodes, hb, AList.lookup_erase_ne hn, hn]
    · simp [jobNodes, hb, AList.lookup_insert_ne hj, hj]
  · have hb : (s.Remove eval).byJob = s.byJob := if_neg hc
    rw [if_neg (by rintro ⟨rfl, rfl, h⟩; exact hc h)]
    simp only [jobNodes, hb]

end views

-- ---------------------------------------------------------------------------
-- The invariant under `Remove` and `Add`
-- ---------------------------------------------------------------------------

section invariant

variable {s : systemEvals}

structure SameViews (s t : systemEvals) : Prop where
  evals : ∀ id, s.evals.lookup id = t.evals.lookup id
  byNode : ∀ n id, id ∈ s.nodeEvalIDs n ↔ id ∈ t.nodeEvalIDs n
  byJob : ∀ j n, (s.jobNodes j).lookup n = (t.jobNodes j).lookup n

theorem Consistent.of_sameViews {t : systemEvals} (hc : Consistent s) (h : SameViews s t) :
    Consistent t where
  byJob_evals j n id hj := by
    rw [← h.byJob] at hj
    simpa only [h.evals] using hc.byJob_evals j n id hj
  byNode_iff n id := by
    rw [← h.byNode, hc.byNode_iff, h.evals]
  evals_byJob id w hw := by
    rw [← h.evals] at hw
    rw [← h.byJob]
    exact hc.evals_byJob id w hw
  evals_id id w hw := hc.evals_id id w (by rwa [h.evals])

theorem SameViews.setJob {t : systemEvals} (h : SameViews s t) (eval : Evaluation) :
    SameViews (s.setJob eval) (t.setJob eval) where
  evals := h.evals
  byNode := h.byNode
  byJob j n := by rw [lookup_jobNodes_setJob, lookup_jobNodes_setJob, h.byJob]

theorem sameViews_remove_insertEval {eval eval' : Evaluation} (token : String)
    (hne : eval'.ID ≠ eval.ID) :
    SameViews ((s.Remove eval').insertEval eval token) ((s.insertEval eval token).Remove eval') where
  evals id := by
    by_cases h' : id = eval'.ID
    · subst h'
      simp [AList.lookup_erase, AList.lookup_insert_ne hne]
    · by_cases h : id = eval.ID
      · subst h
        simp [AList.lookup_erase_ne h', AList.lookup_insert]
      · simp [AList.lookup_erase_ne h', AList.lookup_insert_ne h]
  byNode n id := by
    rw [mem_nodeEvalIDs_insertEval, mem_nodeEvalIDs_remove, mem_nodeEvalIDs_remove,
      mem_nodeEvalIDs_insertEval]
    by_cases h : id = eval.ID
    · subst h
      simp [Ne.symm hne]
    · simp [h]
  byJob j n := by
    rw [jobNodes_insertEval, lookup_jobNodes_remove, lookup_jobNodes_remove, jobNodes_insertEval]

theorem Consistent.remove (hc : Consistent s) {eval : Evaluation}
    (hstored : ∀ w, s.evals.lookup eval.ID = some w → w.eval = eval) :
    Consistent (s.Remove eval) where
  byJob_evals j n id h := by
    rw [lookup_jobNodes_remove] at h
    split_ifs at h with hdel
    obtain ⟨w, hw, hj, hn⟩ := hc.byJob_evals j n id h
    -- the removed evaluation is listed under its own job and node, so this is another one
    have hne : id ≠ eval.ID := by
      rintro rfl
      obtain rfl := hstored w hw
      exact hdel ⟨hj.symm, hn.symm, h⟩
    exact ⟨w, by rw [evals_remove, AList.lookup_erase_ne hne]; exact hw, hj, hn⟩
  byNode_iff n id := by
    rw [mem_nodeEvalIDs_remove, hc.byNode_iff, evals_remove]
    by_cases hid : id = eval.ID
    · subst hid
      simp only [AList.lookup_erase, reduceCtorEq, false_and, exists_false, iff_false, and_true,
        not_and, not_not]
      rintro ⟨w, hw, rfl⟩
      rw [hstored w hw]
    · simp [AList.lookup_erase_ne hid, hid]
  evals_byJob id w h := by
    rw [evals_remove] at h
    have hid : id ≠ eval.ID := by
      rintro rfl
      simp at h
    rw [AList.lookup_erase_ne hid] at h
    have hold := hc.evals_byJob id w h
    rw [lookup_jobNodes_remove, if_neg]
    · exact hold
    · rintro ⟨-, -, hdel⟩
      exact hid (Option.some_injective _ (hold.symm.trans hdel))
  evals_id id w h := by
    rw [evals_remove] at h
    have hid : id ≠ eval.ID := by
      rintro rfl
      simp at h
    exact hc.evals_id id w (by rwa [AList.lookup_erase_ne hid] at h)

theorem Consistent.setJob_insertEval (hc : Consistent s) {eval : Evaluation} (token : String)
    (hfresh : eval.ID ∉ s.evals)
    (hfree : (s.jobNodes eval.namespacedID).lookup eval.NodeID = none) :
    Consistent ((s.insertEval eval token).setJob eval) where
  byJob_evals j n id h := by
    rw [lookup_jobNodes_setJob, jobNodes_insertEval] at h
    split_ifs at h with hjn
    · obtain ⟨rfl, rfl⟩ := hjn
      cases h
      exact ⟨⟨eval, token⟩, by simp [AList.lookup_insert], rfl, rfl⟩
    · obtain ⟨w, hw, hj, hn⟩ := hc.byJob_evals j n id h
      have hne : id ≠ eval.ID := by
        rintro rfl
        exact hfresh (AList.lookup_isSome.mp (by simp [hw]))
      exact ⟨w, by simp [AList.lookup_insert_ne hne, hw], hj, hn⟩
  byNode_iff n id := by
    rw [nodeEvalIDs_setJob, mem_nodeEvalIDs_insertEval, hc.byNode_iff, evals_setJob,
      evals_insertEval]
    by_cases hid : id = eval.ID
    · subst hid
      have hnone : s.evals.lookup eval.ID = none := AList.lookup_eq_none.mpr hfresh
      simp [hnone, AList.lookup_insert, eq_comm]
    · simp [AList.lookup_insert_ne hid, hid]
  evals_byJob id w h := by
    rw [evals_setJob, evals_insertEval] at h
    rw [lookup_jobNodes_setJob, jobNodes_insertEval]
    by_cases hid : id = eval.ID
    · subst hid
      rw [AList.lookup_insert, Option.some_inj] at h
      subst h
      simp
    · rw [AList.lookup_insert_ne hid] at h
      have hold := hc.evals_byJob id w h
      -- the job and node of an old evaluation are listed, so they are not the free ones
      rw [if_neg]
      · exact hold
      · rintro ⟨hj, hn⟩
        rw [hj, hn, hfree] at hold
        cases hold
  evals_id id w h := by
    rw [evals_setJob, evals_insertEval] at h
    by_cases hid : id = eval.ID
    · subst hid
      rw [AList.lookup_insert, Option.some_inj] at h
      subst h
      rfl
    · exact hc.evals_id id w (by rwa [AList.lookup_insert_ne hid] at h)

/-- `Add` of a new ID onto consistent indexes returns, keeps them consistent, and displaces
exactly the evaluation the job had on the node. -/
theorem Consistent.add (hc : Consistent s) {eval : Evaluation} (token : String)
    (hfresh : eval.ID ∉ s.evals) :
    ∃ s', s.Add eval token = .ok s' ∧ Consistent s' ∧
      ∀ id, s'.evals.lookup id =
        if id = eval.ID then some ⟨eval, token⟩
        else if (s.jobNodes eval.namespacedID).lookup eval.NodeID = some id then none
        else s.evals.lookup id := by
  rw [add_eq]
  cases hprev : (s.jobNodes eval.namespacedID).lookup eval.NodeID with
  | none =>
    refine ⟨_, rfl, hc.setJob_insertEval token hfresh hprev, fun id => ?_⟩
    by_cases hid : id = eval.ID
    · subst hid
      simp [AList.lookup_insert]
    · simp [AList.lookup_insert_ne hid, hid]
  | some prevID =>
    -- the displaced evaluation is stored under the job and node, with another ID
    obtain ⟨w, hw, hj, hn⟩ := hc.byJob_evals _ _ prevID hprev
    have hne : prevID ≠ eval.ID := by
      rintro rfl
      exact hfresh (AList.lookup_isSome.mp (by simp [hw]))
    have hid : w.eval.ID = prevID := hc.evals_id prevID w hw
    have hget : (s.insertEval eval token).Get prevID = some w := by
      simp [Get, AList.lookup_insert_ne hne, hw]
    simp only [hget]
    refine ⟨_, rfl, ?_, fun id => ?_⟩
    · -- removed first, it leaves the job's node free for the new one
      have hrem : Consistent (s.Remove w.eval) :=
        hc.remove fun w' hw' => by
          rw [hid, hw, Option.some_inj] at hw'
          rw [hw']
      have hfree : ((s.Remove w.eval).jobNodes eval.namespacedID).lookup eval.NodeID = none := by
        rw [lookup_jobNodes_remove, if_pos ⟨hj.symm, hn.symm, by rw [hprev, hid]⟩]
      have hfresh' : eval.ID ∉ (s.Remove w.eval).evals := by
        rw [evals_remove]
        exact fun h => hfresh (AList.mem_erase.mp h).2
      exact (hrem.setJob_insertEval token hfresh' hfree).of_sameViews
        ((sameViews_remove_insertEval token (hid ▸ hne)).setJob eval)
    · show ((s.evals.insert eval.ID ⟨eval, token⟩).erase w.eval.ID).lookup id = _
      rw [hid]
      by_cases hp : id = prevID
      · subst hp
        simp [AList.lookup_erase, hne]
      · by_cases he : id = eval.ID
        · subst he
          simp [AList.lookup_erase_ne hp, AList.lookup_insert]
        · simp [AList.lookup_erase_ne hp, AList.lookup_insert_ne he, he, Ne.symm hp]

end invariant

-- ---------------------------------------------------------------------------
-- Runs
-- ---------------------------------------------------------------------------

def addedEvals (ops : List Op) : List Evaluation :=
  ops.filterMap fun
    | .Add eval _ => some eval
    | .Remove _ => none

def removedEvals (ops : List Op) : List Evaluation :=
  ops.filterMap fun
    | .Remove eval => some eval
    | .Add _ _ => none

@[simp] theorem addedEvals_add (eval : Evaluation) (token : String) (ops : List Op) :
    addedEvals (.Add eval token :: ops) = eval :: addedEvals ops := rfl

@[simp] theorem addedEvals_remove (eval : Evaluation) (ops : List Op) :
    addedEvals (.Remove eval :: ops) = addedEvals ops := rfl

@[simp] theorem removedEvals_add (eval : Evaluation) (token : String) (ops : List Op) :
    removedEvals (.Add eval token :: ops) = removedEvals ops := rfl

@[simp] theorem removedEvals_remove (eval : Evaluation) (ops : List Op) :
    removedEvals (.Remove eval :: ops) = eval :: removedEvals ops := rfl

/-- How the tracker calls the index: each ID is added once, and an evaluation removed under an
ID that the run adds is the one added under it. -/
def FreshRun (ops : List Op) : Prop :=
  ((addedEvals ops).map (·.ID)).Nodup ∧
    ∀ e ∈ removedEvals ops, ∀ e' ∈ addedEvals ops, e'.ID = e.ID → e' = e

instance (ops : List Op) : Decidable (FreshRun ops) :=
  inferInstanceAs (Decidable (_ ∧ _))

theorem FreshRun.tail {op : Op} {ops : List Op} (h : FreshRun (op :: ops)) : FreshRun ops := by
  obtain ⟨hnd, hrm⟩ := h
  cases op with
  | Add eval token =>
    rw [addedEvals_add, List.map_cons, List.nodup_cons] at hnd
    rw [removedEvals_add, addedEvals_add] at hrm
    exact ⟨hnd.2, fun e he e' he' => hrm e he e' (List.mem_cons_of_mem _ he')⟩
  | Remove eval =>
    rw [addedEvals_remove] at hnd
    rw [removedEvals_remove, addedEvals_remove] at hrm
    exact ⟨hnd, fun e he e' he' => hrm e (List.mem_cons_of_mem _ he) e' he'⟩

/-- The run invariant: consistent indexes, no ID the rest of the run adds is stored, and what it
removes is stored as it is removed. -/
theorem run_consistent_of (ops : List Op) : ∀ s : systemEvals, Consistent s →
    (∀ e ∈ addedEvals ops, e.ID ∉ s.evals) →
    (∀ e ∈ removedEvals ops, ∀ w, s.evals.lookup e.ID = some w → w.eval = e) →
    FreshRun ops → ∃ s', s.run ops = .ok s' ∧ Consistent s' := by
  induction ops with
  | nil => exact fun s hc _ _ _ => ⟨s, rfl, hc⟩
  | cons op ops ih =>
    intro s hc hadd hrem hfr
    cases op with
    | Add eval token =>
      have hnd : eval.ID ∉ (addedEvals ops).map (·.ID) := by
        have := hfr.1
        rw [addedEvals_add, List.map_cons, List.nodup_cons] at this
        exact this.1
      obtain ⟨s', hs', hc', hev⟩ := hc.add token (hadd eval (List.mem_cons_self ..))
      refine (ih s' hc' ?_ ?_ hfr.tail).imp fun r hr => ⟨by simp [run, step, hs', hr.1], hr.2⟩
      · -- a later added ID is neither this one nor an old one
        intro e he hmem
        have hne : e.ID ≠ eval.ID := fun h => hnd (List.mem_map.mpr ⟨e, he, h⟩)
        have hold : e.ID ∉ s.evals := hadd e (List.mem_cons_of_mem _ he)
        have := AList.lookup_isSome.mpr hmem
        rw [hev, if_neg hne, AList.lookup_eq_none.mpr hold] at this
        split_ifs at this <;> simp at this
      · -- what a later removal meets under this ID is the evaluation just added
        intro e he w hw
        rw [hev] at hw
        split_ifs at hw with h₁ h₂
        · cases hw
          exact hfr.2 e he eval (List.mem_cons_self ..) h₁.symm
        · exact hrem e he w hw
    | Remove eval =>
      have hstored := hrem eval (List.mem_cons_self ..)
      refine (ih _ (hc.remove hstored) ?_ ?_ hfr.tail).imp fun r hr =>
        ⟨by simp [run, step, Outcome.bind, hr.1], hr.2⟩
      · intro e he hmem
        exact hadd e he (AList.mem_erase.mp hmem).2
      · intro e he w hw
        rw [evals_remove] at hw
        have hne : e.ID ≠ eval.ID := by
          rintro h
          rw [h, AList.lookup_erase] at hw
          cases hw
        rw [AList.lookup_erase_ne hne] at hw
        exact hrem e (List.mem_cons_of_mem _ he) w hw

/-- Every run of `Add` and `Remove` from the empty index, with each ID added once and removals
of what the index holds, returns and leaves the three indexes consistent. -/
theorem run_consistent (ops : List Op) (hops : FreshRun ops) :
    ∃ s, newSystemEvals.run ops = .ok s ∧ Consistent s :=
  run_consistent_of ops newSystemEvals consistent_newSystemEvals (by simp [newSystemEvals])
    (by simp [newSystemEvals]) hops

/-- A second evaluation of the job on the same node displaces the first, and is then removed. -/
theorem run_consistent_displace :
    FreshRun [.Add agentEval "", .Add { agentEval with ID := "e2" } "",
      .Remove { agentEval with ID := "e2" }] ∧
    ∃ s, newSystemEvals.run [.Add agentEval "", .Add { agentEval with ID := "e2" } "",
      .Remove { agentEval with ID := "e2" }] = .ok s ∧ Consistent s :=
  ⟨by decide, run_consistent _ (by decide)⟩

/-- Adding an evaluation again under its own ID: `Add` finds its ID in the job index, removes the
evaluation it has just stored, and sets the job index to the ID again, which `evals` no longer
holds. -/
theorem add_same_id_breaks_index :
    ∃ s, newSystemEvals.run [.Add agentEval "", .Add agentEval ""] = .ok s ∧
      (s.jobNodes agentEval.namespacedID).lookup agentEval.NodeID = some agentEval.ID ∧
      s.Get agentEval.ID = none ∧ ¬ Consistent s := by
  obtain ⟨s, hs, hjob, hget⟩ : ∃ s, newSystemEvals.run [.Add agentEval "", .Add agentEval ""] = .ok s ∧
      (s.jobNodes agentEval.namespacedID).lookup agentEval.NodeID = some agentEval.ID ∧
      s.Get agentEval.ID = none :=
    ⟨_, rfl, by decide, by decide⟩
  refine ⟨s, hs, hjob, hget, fun hc => ?_⟩
  obtain ⟨w, hw, -⟩ := hc.byJob_evals _ _ _ hjob
  rw [show s.evals.lookup agentEval.ID = s.Get agentEval.ID from rfl, hget] at hw
  cases hw

end systemEvals

end Nomad.Server
