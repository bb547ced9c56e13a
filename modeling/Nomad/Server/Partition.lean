import Nomad.Container.Map
import Nomad.Structs.Alloc

/-!
# Splitting a Raft write into bounded requests

`partitionAllocDrain` (`drainer/drainer_util.go`) and `partitionEvalReap` (`core_sched.go`) run
one loop: each request has room for `maxIds` IDs, the first list (the allocations) fills it
first, and the evaluations take what is left; a request that the allocations fill skips the
evaluations with `continue`. `partitionLoop` is that loop over the two submitted counters; the
two functions apply it to their own lists and bound and build their own request type.

`Partitions` is what a list of requests must be: each holds between one and `maxIds` IDs, the
allocation parts concatenate to the allocations and the evaluation parts to the evaluations, in
order, and a request with evaluations is followed only by requests without allocations.
`partitionLoop_spec` proves it for every `maxIds ≥ 1`, and that the loop ends within one round
per ID; with `maxIds = 0` a request takes nothing and the loop never ends
(`partitionLoop_zero`).
-/

namespace Nomad.Server

open Nomad.Structs Container

section loop

variable {α β : Type}

/-- The evaluation half of a request with `available` room left: the evaluations it takes and
the new count of submitted ones. -/
def takeEvals (evals : List β) (submittedEvals available : Nat) : List β × Nat :=
  let remaining := evals.length - submittedEvals
  if 0 < remaining then
    if remaining ≤ available then (evals.drop submittedEvals, submittedEvals + remaining)
    else ((evals.drop submittedEvals).take available, submittedEvals + available)
  else ([], submittedEvals)

/-- The loop of both partitions, with the requests as the slices they take; `fuel` bounds its
rounds. -/
def partitionLoop (maxIds : Nat) (allocs : List α) (evals : List β) :
    Nat → Nat → Nat → Option (List (List α × List β))
  | 0, _, _ => none
  | fuel + 1, submittedEvals, submittedAllocs =>
    if submittedEvals ≠ evals.length ∨ submittedAllocs ≠ allocs.length then
      let available := maxIds
      -- Add the allocs first
      let remaining := allocs.length - submittedAllocs
      if 0 < remaining then
        if remaining ≤ available then
          let (reqEvals, submittedEvals) := takeEvals evals submittedEvals (available - remaining)
          (partitionLoop maxIds allocs evals fuel submittedEvals (submittedAllocs + remaining)).map
            ((allocs.drop submittedAllocs, reqEvals) :: ·)
        else
          -- Exhausted space so skip adding evals
          (partitionLoop maxIds allocs evals fuel submittedEvals (submittedAllocs + available)).map
            (((allocs.drop submittedAllocs).take available, []) :: ·)
      else
        let (reqEvals, submittedEvals) := takeEvals evals submittedEvals available
        (partitionLoop maxIds allocs evals fuel submittedEvals submittedAllocs).map
          (([], reqEvals) :: ·)
    else some []

/-- A list of requests that splits `allocs` and then `evals`, at most `maxIds` IDs a request. -/
structure Partitions (maxIds : Nat) (reqs : List (List α × List β)) (allocs : List α)
    (evals : List β) : Prop where
  bounded : ∀ r ∈ reqs, 0 < r.1.length + r.2.length ∧ r.1.length + r.2.length ≤ maxIds
  allocs_eq : (reqs.map (·.1)).flatten = allocs
  evals_eq : (reqs.map (·.2)).flatten = evals
  allocsFirst : reqs.Pairwise fun r r' => r.2 ≠ [] → r'.1 = []

theorem partitions_nil (maxIds : Nat) : Partitions maxIds ([] : List (List α × List β)) [] [] :=
  ⟨fun _ h => absurd h List.not_mem_nil, rfl, rfl, List.Pairwise.nil⟩

theorem Partitions.cons {maxIds : Nat} {reqs : List (List α × List β)} {allocs : List α}
    {evals : List β} (h : Partitions maxIds reqs allocs evals) {a : List α} {b : List β}
    (hpos : 0 < a.length + b.length) (hle : a.length + b.length ≤ maxIds)
    (hfirst : b ≠ [] → allocs = []) {allocs' : List α} {evals' : List β}
    (ha : allocs' = a ++ allocs) (hb : evals' = b ++ evals) :
    Partitions maxIds ((a, b) :: reqs) allocs' evals' where
  bounded r hr := by
    rcases List.mem_cons.mp hr with rfl | hr
    · exact ⟨hpos, hle⟩
    · exact h.bounded r hr
  allocs_eq := by rw [List.map_cons, List.flatten_cons, h.allocs_eq, ha]
  evals_eq := by rw [List.map_cons, List.flatten_cons, h.evals_eq, hb]
  allocsFirst := by
    refine List.Pairwise.cons (fun r hr hb => ?_) h.allocsFirst
    -- the later requests' allocations concatenate to the allocations left, which are none
    have hnil := hfirst hb
    rw [← h.allocs_eq, List.flatten_eq_nil_iff] at hnil
    exact hnil r.1 (List.mem_map_of_mem hr)

theorem takeEvals_eq (evals : List β) (submittedEvals available : Nat) :
    takeEvals evals submittedEvals available =
      ((evals.drop submittedEvals).take (min (evals.length - submittedEvals) available),
        submittedEvals + min (evals.length - submittedEvals) available) := by
  unfold takeEvals
  dsimp only
  split_ifs with hpos hle
  · rw [Nat.min_eq_left hle, List.take_of_length_le (by simp)]
  · rw [Nat.min_eq_right (by omega)]
  · have h0 : evals.length - submittedEvals = 0 := by omega
    rw [h0, Nat.zero_min, List.take_zero, Nat.add_zero]

/-- The loop from counters `submittedEvals` and `submittedAllocs`: with `maxIds ≥ 1` and a round
of fuel per ID left and one to stop, it returns a partition of what is left. -/
theorem partitionLoop_spec {maxIds : Nat} (hmax : 0 < maxIds) (allocs : List α) (evals : List β)
    (fuel : Nat) :
    ∀ submittedEvals submittedAllocs, submittedEvals ≤ evals.length →
      submittedAllocs ≤ allocs.length →
      (allocs.length - submittedAllocs) + (evals.length - submittedEvals) < fuel →
      ∃ reqs, partitionLoop maxIds allocs evals fuel submittedEvals submittedAllocs = some reqs ∧
        Partitions maxIds reqs (allocs.drop submittedAllocs) (evals.drop submittedEvals) := by
  induction fuel with
  | zero => intro _ _ _ _ h; omega
  | succ fuel ih =>
    intro sE sA hE hA hfuel
    -- the evaluations a request takes, and what is left of them after it
    have hsplit : ∀ k, evals.drop sE = (evals.drop sE).take k ++ evals.drop (sE + k) := fun k => by
      rw [← List.drop_drop, List.take_append_drop]
    unfold partitionLoop
    dsimp only
    split_ifs with hgo hrem hfit
    · -- the allocations left fit, and the evaluations take the room after them
      rw [takeEvals_eq]
      dsimp only
      have hk : min (evals.length - sE) (maxIds - (allocs.length - sA)) ≤ evals.length - sE :=
        Nat.min_le_left _ _
      have hk' : min (evals.length - sE) (maxIds - (allocs.length - sA)) ≤
          maxIds - (allocs.length - sA) := Nat.min_le_right _ _
      obtain ⟨reqs, hreqs, hp⟩ :=
        ih (sE + min (evals.length - sE) (maxIds - (allocs.length - sA))) (sA + (allocs.length - sA))
          (by omega) (by omega) (by omega)
      rw [hreqs]
      have hall : allocs.drop (sA + (allocs.length - sA)) = [] := List.drop_of_length_le (by omega)
      rw [hall] at hp
      refine ⟨_, rfl, hp.cons ?_ ?_ (fun _ => rfl) (List.append_nil _).symm (hsplit _)⟩
      · simp only [List.length_drop, List.length_take]
        omega
      · simp only [List.length_drop, List.length_take]
        omega
    · -- the allocations fill the request
      have hfill : sA + maxIds ≤ allocs.length := by omega
      have hfuel' : allocs.length - (sA + maxIds) + (evals.length - sE) < fuel := by omega
      obtain ⟨reqs, hreqs, hp⟩ := ih sE (sA + maxIds) hE hfill hfuel'
      rw [hreqs]
      refine ⟨_, rfl, hp.cons ?_ ?_ (fun h => absurd rfl h) ?_ (List.nil_append _).symm⟩
      · simp only [List.length_take, List.length_drop, List.length_nil]
        omega
      · simp only [List.length_take, List.length_drop, List.length_nil]
        omega
      · rw [← List.drop_drop, List.take_append_drop]
    · -- no allocations left: evaluations only
      rw [takeEvals_eq]
      dsimp only
      have hk : min (evals.length - sE) maxIds ≤ evals.length - sE := Nat.min_le_left _ _
      have hk' : min (evals.length - sE) maxIds ≤ maxIds := Nat.min_le_right _ _
      obtain ⟨reqs, hreqs, hp⟩ :=
        ih (sE + min (evals.length - sE) maxIds) sA (by omega) hA (by omega)
      rw [hreqs]
      have hall : allocs.drop sA = [] := List.drop_of_length_le (by omega)
      rw [hall] at hp
      refine ⟨_, rfl, hp.cons ?_ ?_ (fun _ => rfl) (by rw [hall]; rfl) (hsplit _)⟩
      · simp only [List.length_nil, List.length_take, List.length_drop]
        omega
      · simp only [List.length_nil, List.length_take, List.length_drop]
        omega
    · -- both lists are submitted
      have hall : allocs.drop sA = [] := List.drop_of_length_le (by omega)
      have hev : evals.drop sE = [] := List.drop_of_length_le (by omega)
      exact ⟨[], rfl, by rw [hall, hev]; exact partitions_nil maxIds⟩

theorem partitionLoop_zero (allocs : List α) (evals : List β) (fuel : Nat) :
    ∀ submittedEvals submittedAllocs,
      (submittedEvals ≠ evals.length ∨ submittedAllocs ≠ allocs.length) →
      partitionLoop 0 allocs evals fuel submittedEvals submittedAllocs = none := by
  induction fuel with
  | zero => intro _ _ _; rfl
  | succ fuel ih =>
    intro sE sA hgo
    unfold partitionLoop
    rw [if_pos hgo]
    dsimp only
    split_ifs with hrem hfit
    · omega
    · rw [ih sE (sA + 0) (by simpa using hgo)]
      rfl
    · rw [takeEvals_eq, Nat.min_zero, Nat.add_zero, ih sE sA hgo]
      rfl

end loop

-- ---------------------------------------------------------------------------
-- `partitionAllocDrain`
-- ---------------------------------------------------------------------------

structure transitionTuple where
  Transitions : Map String DesiredTransition
  Evals : List Evaluation

/-- `req.Transitions[id] = transitions[id]` over a slice of the transitions' keys. -/
def transitionsOf (transitions : Map String DesiredTransition) (ids : List String) :
    Map String DesiredTransition :=
  ids.foldl (fun m id =>
    match transitions.lookup id with
    | some t => m.insert id t
    | none => m) ∅

/-- `partitionAllocDrain(maxIds, transitions, evals)`, the allocations in the order the map
ranges over them; `none` when the loop does not end within `fuel` rounds. -/
def partitionAllocDrain (fuel maxIds : Nat) (transitions : Map String DesiredTransition)
    (evals : List Evaluation) : Option (List transitionTuple) :=
  -- Determine a stable ordering of the transitioning allocs
  let allocs := transitions.keys
  (partitionLoop maxIds allocs evals fuel 0 0).map fun reqs =>
    reqs.map fun r => { Transitions := transitionsOf transitions r.1, Evals := r.2 }

theorem lookup_foldl_transitions (transitions : Map String DesiredTransition) (ids : List String)
    (hids : ∀ id ∈ ids, id ∈ transitions) (m : Map String DesiredTransition) (id : String) :
    (ids.foldl (fun m id =>
        match transitions.lookup id with
        | some t => m.insert id t
        | none => m) m).lookup id =
      if id ∈ ids then transitions.lookup id else m.lookup id := by
  induction ids generalizing m with
  | nil => simp
  | cons x ids ih =>
    obtain ⟨t, ht⟩ := Map.exists_lookup_of_mem (hids x List.mem_cons_self)
    rw [List.foldl_cons, ht, ih (fun id h => hids id (List.mem_cons_of_mem _ h))]
    by_cases hx : id = x
    · subst hx
      simp [ht]
    · simp [hx, AList.lookup_insert_ne hx]

theorem lookup_transitionsOf (transitions : Map String DesiredTransition) (ids : List String)
    (hids : ∀ id ∈ ids, id ∈ transitions) (id : String) :
    (transitionsOf transitions ids).lookup id = if id ∈ ids then transitions.lookup id else none := by
  rw [transitionsOf, lookup_foldl_transitions transitions ids hids]
  rfl

theorem keys_transitionsOf_length (transitions : Map String DesiredTransition) (ids : List String)
    (hids : ∀ id ∈ ids, id ∈ transitions) (hnd : ids.Nodup) :
    (transitionsOf transitions ids).keys.length = ids.length := by
  have hmem : ∀ id, id ∈ (transitionsOf transitions ids).keys ↔ id ∈ ids := fun id => by
    rw [← AList.mem_keys, ← AList.lookup_isSome, lookup_transitionsOf transitions ids hids]
    by_cases h : id ∈ ids
    · simp [h, AList.lookup_isSome.mpr (hids id h)]
    · simp [h]
  exact ((List.perm_ext_iff_of_nodup (AList.keys_nodup _) hnd).mpr hmem).length_eq

/-- What the drain requests must be: between one and `maxIds` IDs each, transition maps that are
pairwise disjoint and together the transitions, the evaluations in order, and no evaluation
before a transition. -/
structure DrainRequests (maxIds : Nat) (transitions : Map String DesiredTransition)
    (evals : List Evaluation) (reqs : List transitionTuple) : Prop where
  bounded : ∀ r ∈ reqs, 0 < r.Transitions.keys.length + r.Evals.length ∧
    r.Transitions.keys.length + r.Evals.length ≤ maxIds
  disjoint : reqs.Pairwise fun r r' => ∀ id, id ∈ r.Transitions → id ∉ r'.Transitions
  covers : ∀ id t, transitions.lookup id = some t ↔ ∃ r ∈ reqs, r.Transitions.lookup id = some t
  evals_eq : (reqs.map (·.Evals)).flatten = evals
  allocsFirst : reqs.Pairwise fun r r' => r.Evals ≠ [] → r'.Transitions = ∅

theorem partitionAllocDrain_spec {maxIds : Nat} (hmax : 0 < maxIds)
    (transitions : Map String DesiredTransition) (evals : List Evaluation) (fuel : Nat)
    (hfuel : transitions.keys.length + evals.length < fuel) :
    ∃ reqs, partitionAllocDrain fuel maxIds transitions evals = some reqs ∧
      DrainRequests maxIds transitions evals reqs := by
  obtain ⟨rs, hrs, hp⟩ := partitionLoop_spec hmax transitions.keys evals fuel 0 0 (Nat.zero_le _)
    (Nat.zero_le _) (by omega)
  rw [List.drop_zero, List.drop_zero] at hp
  -- the key slices are disjoint pieces of the keys
  have hflat := hp.allocs_eq
  have hnd : ((rs.map (·.1)).flatten).Nodup := hflat ▸ AList.keys_nodup transitions
  obtain ⟨hnds, hdisj⟩ := List.nodup_flatten.mp hnd
  have hsub : ∀ r ∈ rs, ∀ id ∈ r.1, id ∈ transitions := fun r hr id hid => by
    rw [AList.mem_keys, ← hflat]
    exact List.mem_flatten.mpr ⟨r.1, List.mem_map_of_mem hr, hid⟩
  have hlen : ∀ r ∈ rs, (transitionsOf transitions r.1).keys.length = r.1.length := fun r hr =>
    keys_transitionsOf_length transitions r.1 (hsub r hr) (hnds r.1 (List.mem_map_of_mem hr))
  have hmemT : ∀ r ∈ rs, ∀ id, id ∈ transitionsOf transitions r.1 ↔ id ∈ r.1 := fun r hr id => by
    rw [← AList.lookup_isSome, lookup_transitionsOf transitions r.1 (hsub r hr)]
    by_cases h : id ∈ r.1
    · simp [h, AList.lookup_isSome.mpr (hsub r hr id h)]
    · simp [h]
  refine ⟨rs.map fun r => { Transitions := transitionsOf transitions r.1, Evals := r.2 },
    by simp only [partitionAllocDrain, hrs, Option.map_some], ⟨?_, ?_, ?_, ?_, ?_⟩⟩
  · simp only [List.mem_map]
    rintro _ ⟨r, hr, rfl⟩
    rw [hlen r hr]
    exact hp.bounded r hr
  · rw [List.pairwise_map]
    refine (List.pairwise_map.mp hdisj).imp_of_mem fun {r r'} hr hr' hd id hid hid' => ?_
    exact hd (((hmemT r hr) id).mp hid) (((hmemT r' hr') id).mp hid')
  · intro id t
    constructor
    · intro ht
      have hk : id ∈ (rs.map (·.1)).flatten := hflat ▸ AList.mem_keys.mp (AList.lookup_isSome.mp
        (by rw [ht]; rfl))
      obtain ⟨_, hl, hid⟩ := List.mem_flatten.mp hk
      obtain ⟨r, hr, rfl⟩ := List.mem_map.mp hl
      exact ⟨_, List.mem_map_of_mem hr, by rw [lookup_transitionsOf _ _ (hsub r hr), if_pos hid, ht]⟩
    · rintro ⟨_, hmem, ht⟩
      obtain ⟨r, hr, rfl⟩ := List.mem_map.mp hmem
      rw [lookup_transitionsOf _ _ (hsub r hr)] at ht
      split_ifs at ht
      exact ht
  · rw [List.map_map]
    exact hp.evals_eq
  · rw [List.pairwise_map]
    refine hp.allocsFirst.imp fun {r r'} h hev => ?_
    rw [h hev]
    rfl

-- ---------------------------------------------------------------------------
-- `partitionEvalReap`
-- ---------------------------------------------------------------------------

/-- The evaluations and allocations of one reap request; the region it also carries is the
server's. -/
structure EvalDeleteRequest where
  Evals : List String
  Allocs : List String

def maxIdsPerReap : Nat := (1024 * 256) / 36

def partitionEvalReap (fuel : Nat) (evals allocs : List String) :
    Option (List EvalDeleteRequest) :=
  (partitionLoop maxIdsPerReap allocs evals fuel 0 0).map fun reqs =>
    reqs.map fun r => { Evals := r.2, Allocs := r.1 }

/-- What the reap requests must be: between one and `maxIdsPerReap` IDs each, the allocations
and the evaluations each in order, and no evaluation before an allocation. -/
structure ReapRequests (evals allocs : List String) (reqs : List EvalDeleteRequest) : Prop where
  bounded : ∀ r ∈ reqs, 0 < r.Allocs.length + r.Evals.length ∧
    r.Allocs.length + r.Evals.length ≤ maxIdsPerReap
  allocs_eq : (reqs.map (·.Allocs)).flatten = allocs
  evals_eq : (reqs.map (·.Evals)).flatten = evals
  allocsFirst : reqs.Pairwise fun r r' => r.Evals ≠ [] → r'.Allocs = []

theorem partitionEvalReap_spec (evals allocs : List String) (fuel : Nat)
    (hfuel : allocs.length + evals.length < fuel) :
    ∃ reqs, partitionEvalReap fuel evals allocs = some reqs ∧ ReapRequests evals allocs reqs := by
  obtain ⟨rs, hrs, hp⟩ := partitionLoop_spec (show 0 < maxIdsPerReap by decide) allocs evals
    fuel 0 0 (Nat.zero_le _) (Nat.zero_le _) (by omega)
  rw [List.drop_zero, List.drop_zero] at hp
  refine ⟨rs.map fun r => { Evals := r.2, Allocs := r.1 },
    by simp only [partitionEvalReap, hrs, Option.map_some], ⟨?_, ?_, ?_, ?_⟩⟩
  · simp only [List.mem_map]
    rintro _ ⟨r, hr, rfl⟩
    exact hp.bounded r hr
  · rw [List.map_map]
    exact hp.allocs_eq
  · rw [List.map_map]
    exact hp.evals_eq
  · rw [List.pairwise_map]
    exact hp.allocsFirst

/-- Both partitions end, with enough rounds for one per ID, and split their lists exactly into
bounded requests that put the allocations first. -/
theorem partitions_exact_bounded_allocs_first :
    (∀ maxIds, 0 < maxIds → ∀ (transitions : Map String DesiredTransition)
      (evals : List Evaluation) (fuel : Nat), transitions.keys.length + evals.length < fuel →
      ∃ reqs, partitionAllocDrain fuel maxIds transitions evals = some reqs ∧
        DrainRequests maxIds transitions evals reqs) ∧
    ∀ (evals allocs : List String) (fuel : Nat), allocs.length + evals.length < fuel →
      ∃ reqs, partitionEvalReap fuel evals allocs = some reqs ∧ ReapRequests evals allocs reqs :=
  ⟨fun _ hmax => partitionAllocDrain_spec hmax, partitionEvalReap_spec⟩

/-- Two transitions and no evaluation in requests of one ID; one allocation and one evaluation
in one reap request. -/
theorem partitions_exact_bounded_allocs_first_small :
    0 < 1 ∧ (((∅ : Map String DesiredTransition).insert "a1" ⟨some true, none, none⟩).insert "a2"
        ⟨some true, none, none⟩).keys.length + ([] : List Evaluation).length < 3 ∧
      (∃ reqs, partitionAllocDrain 3 1 (((∅ : Map String DesiredTransition).insert "a1"
          ⟨some true, none, none⟩).insert "a2" ⟨some true, none, none⟩) [] = some reqs ∧
        DrainRequests 1 (((∅ : Map String DesiredTransition).insert "a1"
          ⟨some true, none, none⟩).insert "a2" ⟨some true, none, none⟩) [] reqs) ∧
      ["a1"].length + ["e1"].length < 3 ∧
      ∃ reqs, partitionEvalReap 3 ["e1"] ["a1"] = some reqs ∧ ReapRequests ["e1"] ["a1"] reqs :=
  ⟨by decide, by decide,
    partitions_exact_bounded_allocs_first.1 1 (by decide) _ [] 3 (by decide), by decide,
    partitions_exact_bounded_allocs_first.2 ["e1"] ["a1"] 3 (by decide)⟩

end Nomad.Server
