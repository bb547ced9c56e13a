import Mathlib
import Nomad.Server.EvalBroker

/-!
# The eval broker holds each evaluation once

`held` is the multiset of the evaluations in the broker's five containers: the ready queues,
the blocked queues, the unacked map, the wait timers and the delay heap. `Inv` says that their
IDs are exactly the keys of `evals`, that every evaluation in a ready queue or outstanding is
the one `jobEvals` records for its job, and that each container is keyed the way the code reads
it. `Inv b out` is the same for a state inside an operation that took the evaluations with IDs
`out` out of their containers and has not put them back yet; `Inv b []` is the invariant.

Each function of the broker has one lemma saying what it keeps; `inv_step` assembles them per
action and `inv_run` carries the invariant over every run from `NewEvalBroker`.
-/

namespace Nomad.Server

open Go Structs Container Lib

namespace EvalBroker

/-- Every evaluation the broker holds, with its multiplicity. -/
def held (b : EvalBroker) : Multiset Evaluation :=
  (Map.flat b.ready : Multiset Evaluation) + Map.flat b.blocked +
    ((Map.vals b.unack).map (·.Eval) : List Evaluation) + Map.vals b.timeWait +
    (b.delayHeap.heap.map (·.Node) : List Evaluation)

/-- The evaluations a scheduler may work on: in a ready queue or outstanding. -/
def active (b : EvalBroker) : List Evaluation :=
  Map.flat b.ready ++ (Map.vals b.unack).map (·.Eval)

/-- The broker's invariant, up to the evaluations with IDs `out` that an operation has in hand. -/
structure Inv (b : EvalBroker) (out : List String) : Prop where
  enabled : b.enabled = true
  ids : (held b).map (·.ID) + out = b.evals.keys
  noEmpty : "" ∉ b.evals
  jobs : ∀ e ∈ active b, b.jobEvals.lookup e.namespacedID = some e.ID
  blocked : ∀ J l, b.blocked.lookup J = some l → ∀ e ∈ l, e.namespacedID = J
  unack : ∀ k u, b.unack.lookup k = some u → u.Eval.ID = k
  timeWait : ∀ k e, b.timeWait.lookup k = some e → e.ID = k
  delayHeap : DelayHeap.WellIndexed evalKey b.delayHeap
  requeue : ∀ t e, b.requeue.lookup t = some e → e.ID ≠ ""

-- ---------------------------------------------------------------------------
-- Where an evaluation can be held
-- ---------------------------------------------------------------------------

section Held

variable {b : EvalBroker} {e : Evaluation}

theorem mem_held_of_active (he : e ∈ active b) : e ∈ held b := by
  simp only [active, List.mem_append] at he
  simp only [held, Multiset.mem_add, Multiset.mem_coe]
  tauto

theorem mem_held_of_unack {k : String} {u : unackEval} (hk : b.unack.lookup k = some u) :
    u.Eval ∈ held b :=
  mem_held_of_active (List.mem_append_right _ (List.mem_map_of_mem (Map.mem_vals.mpr ⟨k, hk⟩)))

theorem mem_held_of_timeWait {k : String} (hk : b.timeWait.lookup k = some e) : e ∈ held b := by
  have : e ∈ Map.vals b.timeWait := Map.mem_vals.mpr ⟨k, hk⟩
  simp only [held, Multiset.mem_add, Multiset.mem_coe]
  tauto

theorem mem_held_of_delayHeap {n : delayHeapNode Evaluation} (hn : n ∈ b.delayHeap.heap) :
    n.Node ∈ held b := by
  have : n.Node ∈ b.delayHeap.heap.map (·.Node) := List.mem_map_of_mem hn
  simp only [held, Multiset.mem_add, Multiset.mem_coe]
  tauto

end Held

-- ---------------------------------------------------------------------------
-- What the invariant gives
-- ---------------------------------------------------------------------------

section Consequences

variable {b : EvalBroker} {out : List String}

theorem Inv.nodup (h : Inv b out) : ((held b).map (·.ID) + out).Nodup := by
  rw [h.ids]
  exact Multiset.coe_nodup.mpr b.evals.keys_nodup

theorem Inv.mem_evals (h : Inv b out) {e : Evaluation} (he : e ∈ held b) : e.ID ∈ b.evals := by
  have hm : e.ID ∈ (b.evals.keys : Multiset String) := by
    rw [← h.ids]
    exact Multiset.mem_add.mpr (.inl (Multiset.mem_map_of_mem _ he))
  exact AList.mem_keys.mp (Multiset.mem_coe.mp hm)

theorem Inv.id_ne (h : Inv b out) {e : Evaluation} (he : e ∈ held b) : e.ID ≠ "" :=
  fun hid => h.noEmpty (hid ▸ h.mem_evals he)

theorem Inv.out_mem_evals (h : Inv b out) {i : String} (hi : i ∈ out) : i ∈ b.evals := by
  have hm : i ∈ (b.evals.keys : Multiset String) := by
    rw [← h.ids]
    exact Multiset.mem_add.mpr (.inr (Multiset.mem_coe.mpr hi))
  exact AList.mem_keys.mp (Multiset.mem_coe.mp hm)

theorem Inv.id_ne_out (h : Inv b (i :: out)) {e : Evaluation} (he : e ∈ held b) : e.ID ≠ i := by
  have hn := h.nodup
  rw [← Multiset.cons_coe, Multiset.add_cons, Multiset.nodup_cons] at hn
  rintro rfl
  exact hn.1 (Multiset.mem_add.mpr (.inl (Multiset.mem_map_of_mem _ he)))

theorem Inv.notMem_timeWait (h : Inv b (i :: out)) : i ∉ b.timeWait := by
  intro hi
  obtain ⟨e, he⟩ := Map.exists_lookup_of_mem hi
  exact h.id_ne_out (mem_held_of_timeWait he) (h.timeWait i e he)

theorem Inv.notMem_delayHeap (h : Inv b (e.ID :: out)) :
    evalKey e ∉ DelayHeap.keys evalKey b.delayHeap := by
  intro hk
  obtain ⟨n, hn, hne⟩ := List.mem_map.mp hk
  have hid : n.Node.ID = e.ID := congrArg NamespacedID.ID hne
  exact h.id_ne_out (mem_held_of_delayHeap hn) hid

end Consequences

-- ---------------------------------------------------------------------------
-- The pending heaps and the containers
-- ---------------------------------------------------------------------------

section Containers

variable {b : EvalBroker} {e : Evaluation}

theorem pendingHeap_push_perm (p : PendingEvaluations) (e : Evaluation) :
    (Heap.Push pendingHeap p e).Perm (e :: p) :=
  Heap.push_perm (Heap.sliceInterface_lawful _) p e

theorem pendingHeap_pop_perm {p rest : PendingEvaluations} {x : Evaluation}
    (hp : Heap.Pop pendingHeap p = (rest, some x)) : (x :: rest).Perm p := by
  have hx := Heap.pop_of_some (Heap.sliceInterface_lawful PendingEvaluations.Less) p (x := x)
    (by rw [show Heap.sliceInterface PendingEvaluations.Less = pendingHeap from rfl, hp])
  rwa [show Heap.sliceInterface PendingEvaluations.Less = pendingHeap from rfl, hp] at hx

theorem map_id_cons_add (H : Multiset Evaluation) (e : Evaluation) (out : List String) :
    (e ::ₘ H).map (·.ID) + (out : Multiset String) = H.map (·.ID) + ((e.ID :: out : List String) : Multiset String) := by
  rw [Multiset.map_cons, Multiset.cons_add, ← Multiset.cons_coe, Multiset.add_cons]

theorem coe_flat_pushReady (q : String) :
    (Map.flat (b.pushReady e q).ready : Multiset Evaluation) = e ::ₘ Map.flat b.ready := by
  have hp : (Heap.Push pendingHeap ((b.ready.lookup q).getD []) e).Perm
      ([e] ++ (b.ready.lookup q).getD []) := pendingHeap_push_perm _ e
  rw [show (b.pushReady e q).ready = b.ready.insert q _ from rfl, Map.coe_flat_insert hp,
    Multiset.coe_singleton, Multiset.singleton_add]

theorem held_pushReady (q : String) : held (b.pushReady e q) = e ::ₘ held b := by
  simp only [held, coe_flat_pushReady, Multiset.cons_add]
  rfl

theorem mem_active_pushReady {q : String} {e' : Evaluation} :
    e' ∈ active (b.pushReady e q) ↔ e' = e ∨ e' ∈ active b := by
  have hm : e' ∈ Map.flat (b.pushReady e q).ready ↔ e' = e ∨ e' ∈ Map.flat b.ready := by
    rw [← Multiset.mem_coe, coe_flat_pushReady, Multiset.mem_cons, Multiset.mem_coe]
  simp only [active, List.mem_append, hm]
  rw [show (b.pushReady e q).unack = b.unack from rfl]
  tauto

theorem coe_flat_pushBlocked :
    (Map.flat (b.pushBlocked e).blocked : Multiset Evaluation) = e ::ₘ Map.flat b.blocked := by
  have hp : (Heap.Push pendingHeap ((b.blocked.lookup e.namespacedID).getD []) e).Perm
      ([e] ++ (b.blocked.lookup e.namespacedID).getD []) := pendingHeap_push_perm _ e
  rw [show (b.pushBlocked e).blocked = b.blocked.insert e.namespacedID _ from rfl,
    Map.coe_flat_insert hp, Multiset.coe_singleton, Multiset.singleton_add]

theorem held_pushBlocked : held (b.pushBlocked e) = e ::ₘ held b := by
  simp only [held, coe_flat_pushBlocked, Multiset.cons_add, Multiset.add_cons]
  rfl

end Containers

-- ---------------------------------------------------------------------------
-- Each step of an operation, with the IDs it takes in hand or puts back
-- ---------------------------------------------------------------------------

section Steps

variable {b : EvalBroker} {out : List String} {e : Evaluation}

theorem Inv.eraseRequeue (h : Inv b out) (t : String) :
    Inv { b with requeue := b.requeue.erase t } out :=
  { h with requeue := fun t' e he => h.requeue t' e (Map.lookup_erase_eq_some he).2 }

theorem Inv.insertRequeue (h : Inv b out) (t : String) (he : e.ID ≠ "") :
    Inv { b with requeue := b.requeue.insert t e } out :=
  { h with
    requeue := fun t' e' he' => by
      rcases Map.lookup_insert_eq_some.mp he' with ⟨-, rfl⟩ | ⟨-, he'⟩
      · exact he
      · exact h.requeue t' e' he' }

theorem Inv.insertEval (h : Inv b out) {i : String} (hm : i ∉ b.evals) (hi : i ≠ "") (n : Int) :
    Inv { b with evals := b.evals.insert i n } (i :: out) :=
  { h with
    ids := by
      rw [show ({ b with evals := b.evals.insert i n } : EvalBroker).evals = b.evals.insert i n
        from rfl, Map.coe_keys_insert_of_notMem hm, ← h.ids, ← Multiset.cons_coe,
        Multiset.add_cons]
      rfl
    noEmpty := fun h' => (AList.mem_insert _).mp h' |>.elim (fun h'' => hi h''.symm) h.noEmpty }

theorem Inv.setJob (h : Inv b (e.ID :: out)) (hp : (b.jobEvals.lookup e.namespacedID).getD "" = "") :
    Inv { b with jobEvals := b.jobEvals.insert e.namespacedID e.ID } (e.ID :: out) :=
  { h with
    jobs := fun e' he' => by
      have hj := h.jobs e' he'
      by_cases hJ : e'.namespacedID = e.namespacedID
      · rw [hJ] at hj
        rw [hj, Option.getD_some] at hp
        exact absurd hp (h.id_ne (mem_held_of_active he'))
      · exact (AList.lookup_insert_ne hJ).trans hj }

theorem Inv.pushReady (h : Inv b (e.ID :: out))
    (hj : b.jobEvals.lookup e.namespacedID = some e.ID) (q : String) :
    Inv (b.pushReady e q) out :=
  { h with
    ids := by rw [held_pushReady, map_id_cons_add]; exact h.ids
    jobs := fun e' he' => by
      rcases mem_active_pushReady.mp he' with rfl | he'
      · exact hj
      · exact h.jobs e' he' }

theorem Inv.pushBlocked (h : Inv b (e.ID :: out)) : Inv (b.pushBlocked e) out :=
  { h with
    ids := by rw [held_pushBlocked, map_id_cons_add]; exact h.ids
    blocked := fun J l hl x hx => by
      rcases Map.lookup_insert_eq_some.mp hl with ⟨rfl, rfl⟩ | ⟨-, hl⟩
      · rcases List.mem_cons.mp ((pendingHeap_push_perm _ e).subset hx) with rfl | hx
        · rfl
        · cases hJ : b.blocked.lookup e.namespacedID with
          | none => simp [hJ] at hx
          | some l0 =>
            rw [hJ, Option.getD_some] at hx
            exact h.blocked _ l0 hJ x hx
      · exact h.blocked J l hl x hx }

theorem Inv.enqueueLocked (h : Inv b (e.ID :: out)) (q : String) :
    Inv (b.enqueueLocked e q) out := by
  unfold EvalBroker.enqueueLocked
  rw [if_neg (by simp [h.enabled])]
  dsimp only
  split_ifs with hp hne
  · exact (h.setJob hp).pushReady (AList.lookup_insert _) q
  · exact h.pushBlocked
  · -- the job's pending evaluation is this one, coming back
    have hj : b.jobEvals.lookup e.namespacedID = some e.ID := by
      cases hl : b.jobEvals.lookup e.namespacedID with
      | none => simp [hl] at hp
      | some v => simp_all
    exact h.pushReady hj q

theorem held_processWaitingEnqueue (hm : e.ID ∉ b.timeWait) :
    held (b.processWaitingEnqueue e) = e ::ₘ held b := by
  have hv := Map.coe_vals_insert hm e
  simp only [held, EvalBroker.processWaitingEnqueue, hv, Multiset.cons_add, Multiset.add_cons]

theorem Inv.processWaitingEnqueue (h : Inv b (e.ID :: out)) :
    Inv (b.processWaitingEnqueue e) out :=
  { h with
    ids := by
      rw [held_processWaitingEnqueue h.notMem_timeWait, map_id_cons_add]
      exact h.ids
    timeWait := fun k e' he' => by
      rcases Map.lookup_insert_eq_some.mp he' with ⟨rfl, rfl⟩ | ⟨-, he'⟩
      · rfl
      · exact h.timeWait k e' he' }

theorem Inv.delayPush (h : Inv b (e.ID :: out)) (t : Time) :
    ∃ d, b.delayHeap.Push evalKey e t = .ok d ∧ Inv { b with delayHeap := d } out ∧
      held { b with delayHeap := d } = e ::ₘ held b := by
  obtain ⟨d, hd, hw, hperm⟩ := DelayHeap.push_ok h.delayHeap h.notMem_delayHeap t
  have hn : ((d.heap.map (·.Node) : List Evaluation) : Multiset Evaluation) =
      e ::ₘ (b.delayHeap.heap.map (·.Node) : List Evaluation) :=
    Multiset.coe_eq_coe.mpr (hperm.map _)
  have hheld : held { b with delayHeap := d } = e ::ₘ held b := by
    simp only [held, hn, Multiset.add_cons]
  refine ⟨d, hd, { h with delayHeap := hw, ids := ?_ }, hheld⟩
  rw [hheld, map_id_cons_add]
  exact h.ids

theorem Inv.processEnqueue (h : Inv b out) (he : e.ID ≠ "") (token : String) :
    Inv (b.processEnqueue e token) out := by
  unfold EvalBroker.processEnqueue
  rw [if_neg (by simp [h.enabled])]
  by_cases hm : e.ID ∈ b.evals
  · -- already tracked: at most a requeue entry for the outstanding evaluation
    rw [if_pos hm]
    split_ifs
    · exact h
    · split
      · split_ifs
        · exact h.insertRequeue token he
        · exact h
      · exact h
  · rw [if_neg hm]
    have h1 := h.insertEval hm he 0
    dsimp only
    split_ifs
    · exact h1.processWaitingEnqueue
    · obtain ⟨d, hd, hinv, -⟩ := h1.delayPush e.WaitUntil
      rw [hd]
      exact hinv
    · exact h1.enqueueLocked e.«Type»

theorem enqueueLocked_evals (q : String) : (b.enqueueLocked e q).evals = b.evals := by
  unfold EvalBroker.enqueueLocked
  dsimp only
  split_ifs <;> rfl

theorem held_enqueueLocked (hen : b.enabled = true) (q : String) :
    held (b.enqueueLocked e q) = e ::ₘ held b := by
  unfold EvalBroker.enqueueLocked
  rw [if_neg (by simp [hen])]
  dsimp only
  split_ifs
  · exact held_pushReady q
  · exact held_pushBlocked
  · exact held_pushReady q

/-- `Enqueue` of an evaluation the broker does not track records its ID and holds it once more,
whether it waits, is delayed or is enqueued at once. -/
theorem Inv.enqueue_fresh (h : Inv b []) (hm : e.ID ∉ b.evals) (he : e.ID ≠ "") :
    (b.Enqueue e).evals = b.evals.insert e.ID 0 ∧ held (b.Enqueue e) = e ::ₘ held b := by
  have h1 := h.insertEval hm he 0
  unfold EvalBroker.Enqueue EvalBroker.processEnqueue
  rw [if_neg (by simp [h.enabled]), if_neg hm]
  dsimp only
  split_ifs
  · exact ⟨rfl, held_processWaitingEnqueue h1.notMem_timeWait⟩
  · obtain ⟨d, hd, -, hheld⟩ := h1.delayPush e.WaitUntil
    rw [hd]
    exact ⟨rfl, hheld⟩
  · exact ⟨enqueueLocked_evals e.«Type», held_enqueueLocked h1.enabled e.«Type»⟩

theorem Inv.eraseTimeWait (h : Inv b out) {k : String} (hk : b.timeWait.lookup k = some e) :
    Inv { b with timeWait := b.timeWait.erase k } (e.ID :: out) :=
  { h with
    ids := by
      have hh : e ::ₘ held { b with timeWait := b.timeWait.erase k } = held b := by
        simp only [held, ← Map.coe_vals_erase hk, Multiset.add_cons, Multiset.cons_add]
      rw [← map_id_cons_add, hh]
      exact h.ids
    timeWait := fun k' e' he' => h.timeWait k' e' (Map.lookup_erase_eq_some he').2 }

theorem Inv.enqueueWaiting (h : Inv b out) {k : String} (hk : b.timeWait.lookup k = some e) :
    Inv (b.enqueueWaiting e) out := by
  obtain rfl : e.ID = k := h.timeWait k e hk
  exact (h.eraseTimeWait hk).enqueueLocked e.«Type»

theorem Inv.takeReady (h : Inv b out) {q : String} {l0 rest : PendingEvaluations} {x : Evaluation}
    (hq : b.ready.lookup q = some l0) (hp : (x :: rest).Perm l0) :
    Inv { b with ready := b.ready.insert q rest } (x.ID :: out) := by
  have hp' : ([x] ++ rest).Perm l0 := hp
  have hf : ({x} : Multiset Evaluation) + Map.flat (b.ready.insert q rest) = Map.flat b.ready :=
    Map.coe_flat_insert_of_lookup hq hp'
  have hh : x ::ₘ held { b with ready := b.ready.insert q rest } = held b := by
    simp only [held, ← hf, Multiset.singleton_add, Multiset.cons_add]
  refine { h with ids := ?_, jobs := fun e' he' => h.jobs e' ?_ }
  · rw [← map_id_cons_add, hh]
    exact h.ids
  · simp only [active, List.mem_append] at he' ⊢
    refine he'.imp_left fun he' => ?_
    rw [← Multiset.mem_coe, ← hf]
    exact Multiset.mem_add.mpr (.inr (Multiset.mem_coe.mpr he'))

theorem Inv.notMem_unack (h : Inv b (i :: out)) : i ∉ b.unack := by
  intro hi
  obtain ⟨u, hu⟩ := Map.exists_lookup_of_mem hi
  exact h.id_ne_out (mem_held_of_unack hu) (h.unack i u hu)

theorem Inv.putUnack {x : Evaluation} (h : Inv b (x.ID :: out))
    (hj : b.jobEvals.lookup x.namespacedID = some x.ID) (token : String) (n : Int) :
    Inv { b with unack := b.unack.insert x.ID ⟨x, token⟩, evals := b.evals.insert x.ID n } out := by
  have hx : x.ID ∈ b.evals := h.out_mem_evals (List.mem_cons_self ..)
  have hv := Map.coe_vals_insert h.notMem_unack (⟨x, token⟩ : unackEval)
  have hh : held { b with unack := b.unack.insert x.ID ⟨x, token⟩, evals := b.evals.insert x.ID n } =
      x ::ₘ held b := by
    have hm : (((Map.vals (b.unack.insert x.ID ⟨x, token⟩)).map (·.Eval) : List Evaluation) :
        Multiset Evaluation) = x ::ₘ ((Map.vals b.unack).map (·.Eval) : List Evaluation) := by
      rw [← Multiset.map_coe, hv, Multiset.map_cons, Multiset.map_coe]
    simp only [held, hm, Multiset.cons_add, Multiset.add_cons]
  refine { h with ids := ?_, noEmpty := ?_, jobs := ?_, unack := ?_ }
  · rw [hh, map_id_cons_add]
    exact h.ids.trans (Map.coe_keys_insert_of_mem hx n).symm
  · intro h'
    rcases (AList.mem_insert _).mp h' with h' | h'
    · exact h.noEmpty (h' ▸ hx)
    · exact h.noEmpty h'
  · intro e' he'
    simp only [active, List.mem_append, List.mem_map] at he'
    rcases he' with he' | ⟨u, hu, rfl⟩
    · exact h.jobs e' (List.mem_append_left _ he')
    · obtain ⟨k, hk⟩ := Map.mem_vals.mp hu
      rcases Map.lookup_insert_eq_some.mp hk with ⟨-, rfl⟩ | ⟨-, hk⟩
      · exact hj
      · exact h.jobs u.Eval (List.mem_append_right _ (List.mem_map_of_mem (Map.mem_vals.mpr ⟨k, hk⟩)))
  · intro k u hk
    rcases Map.lookup_insert_eq_some.mp hk with ⟨rfl, rfl⟩ | ⟨-, hk⟩
    · rfl
    · exact h.unack k u hk

theorem Inv.dequeueForSched (h : Inv b out) (sched token : String) :
    Inv (b.dequeueForSched sched token).1 out := by
  unfold EvalBroker.dequeueForSched
  dsimp only
  rcases hp : Heap.Pop pendingHeap ((b.ready.lookup sched).getD []) with ⟨rest, _ | x⟩
  · exact h
  · have hperm := pendingHeap_pop_perm hp
    obtain ⟨l0, hq⟩ : ∃ l0, b.ready.lookup sched = some l0 := by
      cases hq : b.ready.lookup sched with
      | none =>
        rw [hq, Option.getD_none] at hperm
        exact absurd hperm.length_eq (by simp)
      | some l0 => exact ⟨l0, rfl⟩
    rw [hq, Option.getD_some] at hperm
    have hx : x ∈ active b :=
      List.mem_append_left _ (Map.mem_flat.mpr ⟨sched, l0, hq, hperm.subset (List.mem_cons_self ..)⟩)
    exact (h.takeReady hq hperm).putUnack (h.jobs x hx) token _

theorem Inv.scanForSchedulers (h : Inv b out) (schedulers : List String) (offset : Nat)
    (token : String) : Inv (b.scanForSchedulers schedulers offset token).1 out := by
  unfold EvalBroker.scanForSchedulers
  rw [if_neg (by simp [h.enabled])]
  dsimp only
  split
  · exact h
  · exact h.dequeueForSched _ token
  · exact h.dequeueForSched _ token

theorem Inv.takeBlocked (h : Inv b out) {J : NamespacedID} {l0 rest : PendingEvaluations}
    {y : Evaluation} (hl : b.blocked.lookup J = some l0) (hp : (y :: rest).Perm l0) :
    Inv { b with blocked := if 0 < rest.length then b.blocked.insert J rest else b.blocked.erase J }
      (y.ID :: out) := by
  generalize hm : (if 0 < rest.length then b.blocked.insert J rest else b.blocked.erase J) = m
  -- what is left of the job's heap stays, under the same key, or the key goes
  have hm' : ({y} : Multiset Evaluation) + Map.flat m = Map.flat b.blocked ∧
      ∀ J' l, m.lookup J' = some l → ∀ x ∈ l, x.namespacedID = J' := by
    by_cases hr : 0 < rest.length
    · rw [if_pos hr] at hm
      subst hm
      have hp' : ([y] ++ rest).Perm l0 := hp
      refine ⟨Map.coe_flat_insert_of_lookup hl hp', fun J' l hl' x hx => ?_⟩
      rcases Map.lookup_insert_eq_some.mp hl' with ⟨rfl, rfl⟩ | ⟨-, hl'⟩
      · exact h.blocked J' l0 hl x (hp.subset (List.mem_cons_of_mem _ hx))
      · exact h.blocked J' l hl' x hx
    · rw [if_neg hr] at hm
      subst hm
      obtain rfl : rest = [] := List.eq_nil_of_length_eq_zero (by omega)
      refine ⟨?_, fun J' l hl' => h.blocked J' l (Map.lookup_erase_eq_some hl').2⟩
      rw [← Map.coe_flat_erase hl, ← Multiset.coe_eq_coe.mpr hp]
      rfl
  have hh : y ::ₘ held { b with blocked := m } = held b := by
    simp only [held, ← hm'.1, Multiset.singleton_add, Multiset.cons_add, Multiset.add_cons]
  refine { h with ids := ?_, blocked := hm'.2 }
  rw [← map_id_cons_add, hh]
  exact h.ids

theorem Inv.unblock (h : Inv b out) (J : NamespacedID) : Inv (b.unblock J) out := by
  unfold EvalBroker.unblock
  cases hl : b.blocked.lookup J with
  | none => exact h
  | some bl =>
    dsimp only
    split_ifs
    · rcases hp : Heap.Pop pendingHeap bl with ⟨rest, _ | y⟩
      · exact h
      · exact (h.takeBlocked hl (pendingHeap_pop_perm hp)).enqueueLocked y.«Type»
    · exact h

theorem Inv.takeUnack (h : Inv b out) {k : String} {u : unackEval} (hu : b.unack.lookup k = some u) :
    Inv { b with unack := b.unack.erase k } (u.Eval.ID :: out) := by
  have hv : ((Map.vals b.unack).map (·.Eval) : Multiset Evaluation) =
      u.Eval ::ₘ ((Map.vals (b.unack.erase k)).map (·.Eval) : List Evaluation) := by
    rw [← Multiset.map_coe, ← Map.coe_vals_erase hu, Multiset.map_cons, Multiset.map_coe]
  have hh : u.Eval ::ₘ held { b with unack := b.unack.erase k } = held b := by
    simp only [held, hv, Multiset.add_cons, Multiset.cons_add]
  refine { h with
    ids := ?_
    jobs := fun e' he' => h.jobs e' ?_
    unack := fun k' u' hk => h.unack k' u' (Map.lookup_erase_eq_some hk).2 }
  · rw [← map_id_cons_add, hh]
    exact h.ids
  · simp only [active, List.mem_append] at he' ⊢
    refine he'.imp_right fun he' => ?_
    rw [← Multiset.mem_coe, hv]
    exact Multiset.mem_cons_of_mem (Multiset.mem_coe.mpr he')

theorem Inv.eraseEval (h : Inv b (i :: out)) : Inv { b with evals := b.evals.erase i } out :=
  { h with
    ids := by
      have hk := Map.coe_keys_erase (h.out_mem_evals (List.mem_cons_self ..))
      have h0 := h.ids
      rw [← hk, ← Multiset.cons_coe, Multiset.add_cons, Multiset.cons_inj_right] at h0
      exact h0
    noEmpty := fun h' => h.noEmpty (AList.mem_erase.mp h').2 }

theorem Inv.eraseJob (h : Inv b out) {J : NamespacedID} (hJ : ∀ e ∈ active b, e.namespacedID ≠ J) :
    Inv { b with jobEvals := b.jobEvals.erase J } out :=
  { h with jobs := fun e he => (AList.lookup_erase_ne (hJ e he)).trans (h.jobs e he) }

/-- The cleanup of a successful `Ack`: the outstanding evaluation leaves every container and its
job is free, since no other evaluation of the job was ready or outstanding. -/
theorem Inv.ackErase (h : Inv b []) {k : String} {u : unackEval} (hu : b.unack.lookup k = some u) :
    Inv { b with
      unack := b.unack.erase k
      evals := b.evals.erase k
      jobEvals := b.jobEvals.erase u.Eval.namespacedID } [] := by
  obtain rfl : u.Eval.ID = k := h.unack k u hu
  have h1 := h.takeUnack hu
  have hu' : u.Eval ∈ active b :=
    List.mem_append_right _ (List.mem_map_of_mem (Map.mem_vals.mpr ⟨_, hu⟩))
  refine h1.eraseEval.eraseJob fun e' he' hJ => ?_
  -- another evaluation of the job would be recorded under the same ID
  have he'b : e' ∈ active b := h1.jobs e' he' |> fun _ => by
    simp only [active, List.mem_append, List.mem_map] at he' ⊢
    rcases he' with he' | ⟨v, hv, rfl⟩
    · exact .inl he'
    · obtain ⟨k', hk'⟩ := Map.mem_vals.mp hv
      exact .inr ⟨v, Map.mem_vals.mpr ⟨k', (Map.lookup_erase_eq_some hk').2⟩, rfl⟩
  have hid : e'.ID = u.Eval.ID := by
    have h2 := h.jobs e' he'b
    rw [hJ, h.jobs u.Eval hu'] at h2
    exact (Option.some.inj h2).symm
  exact h1.id_ne_out (mem_held_of_active he') hid

theorem Inv.Ack (h : Inv b []) (evalID token : String) (stopped : Bool) :
    Inv (b.Ack evalID token stopped).1 [] := by
  unfold EvalBroker.Ack
  dsimp only
  cases hu : b.unack.lookup evalID with
  | none => exact h.eraseRequeue token
  | some u =>
    dsimp only
    split_ifs
    · exact h.eraseRequeue token
    · exact h.eraseRequeue token
    · have h2 := (h.ackErase hu).unblock u.Eval.namespacedID
      split
      · rename_i e hr
        exact (h2.processEnqueue (h2.requeue token e hr) "").eraseRequeue token
      · exact h2.eraseRequeue token

theorem Inv.Nack (h : Inv b []) (evalID token : String) : Inv (b.Nack evalID token).1 [] := by
  have h0 := h.eraseRequeue token
  unfold EvalBroker.Nack
  dsimp only
  cases hu : b.unack.lookup evalID with
  | none => exact h0
  | some u =>
    dsimp only
    have h1 := h0.takeUnack hu
    split_ifs
    · exact h0
    · exact h1.enqueueLocked failedQueue
    -- the evaluation goes back with its new `Wait`, under the same ID
    · apply Inv.processWaitingEnqueue
      exact h1
    · apply Inv.enqueueLocked
      exact h1

theorem Inv.takeDelayed (h : Inv b out) {d : DelayHeap Evaluation} {n : delayHeapNode Evaluation}
    (hw : DelayHeap.WellIndexed evalKey d) (hp : (n :: d.heap).Perm b.delayHeap.heap) :
    Inv { b with delayHeap := d } (n.Node.ID :: out) := by
  have hn : (b.delayHeap.heap.map (·.Node) : Multiset Evaluation) =
      n.Node ::ₘ (d.heap.map (·.Node) : List Evaluation) :=
    Multiset.coe_eq_coe.mpr (hp.map _).symm
  have hh : n.Node ::ₘ held { b with delayHeap := d } = held b := by
    simp only [held, hn, Multiset.add_cons]
  refine { h with ids := ?_, delayHeap := hw }
  rw [← map_id_cons_add, hh]
  exact h.ids

theorem Inv.releaseDelayed (h : Inv b []) (hm : e ∈ b.delayHeap.heap.map (·.Node)) :
    Inv (b.releaseDelayed e) [] := by
  have hk : evalKey e ∈ DelayHeap.keys evalKey b.delayHeap := by
    obtain ⟨n, hn, rfl⟩ := List.mem_map.mp hm
    exact List.mem_map_of_mem hn
  obtain ⟨d, n, hr, hw, hkey, hp⟩ := DelayHeap.remove_ok h.delayHeap hk
  have h1 := h.takeDelayed hw hp
  rw [show n.Node.ID = e.ID from congrArg NamespacedID.ID hkey] at h1
  unfold EvalBroker.releaseDelayed
  dsimp only
  rw [hr]
  exact h1.enqueueLocked e.«Type»

theorem Inv.EnqueueAll (h : Inv b out) (evals : List (Evaluation × String))
    (he : ∀ p ∈ evals, p.1.ID ≠ "") : Inv (b.EnqueueAll evals) out := by
  induction evals generalizing b with
  | nil => exact h
  | cons p rest ih =>
    exact ih (h.processEnqueue (he p (List.mem_cons_self ..)) p.2)
      (fun q hq => he q (List.mem_cons_of_mem _ hq))

end Steps

section Consequences

variable {b : EvalBroker}

theorem Inv.active_nodup (h : Inv b []) : ((active b).map (·.ID)).Nodup := by
  have hle : ((active b : List Evaluation) : Multiset Evaluation) ≤ held b := by
    have he : held b = ((Map.flat b.ready : Multiset Evaluation) +
        (((Map.vals b.unack).map (·.Eval) : List Evaluation) : Multiset Evaluation)) +
        ((Map.flat b.blocked : Multiset Evaluation) + (Map.vals b.timeWait : Multiset Evaluation) +
        ((b.delayHeap.heap.map (·.Node) : List Evaluation) : Multiset Evaluation)) := by
      simp only [held]
      ac_rfl
    rw [he, active, ← Multiset.coe_add]
    exact Multiset.le_add_right _ _
  have hn := Multiset.nodup_of_le (Multiset.le_add_right _ _) h.nodup
  rw [← Multiset.coe_nodup, ← Multiset.map_coe]
  exact Multiset.nodup_of_le (Multiset.map_le_map hle) hn

/-- At most one evaluation of a job is ready or outstanding: all of them carry the ID that
`jobEvals` records, and IDs are held once. -/
theorem Inv.active_job_le_one (h : Inv b []) (J : NamespacedID) :
    ((active b).filter (·.namespacedID = J)).length ≤ 1 := by
  set l := (active b).filter (·.namespacedID = J)
  have hall : ∀ x ∈ l, b.jobEvals.lookup J = some x.ID := by
    intro x hx
    obtain ⟨hx, hJ⟩ := List.mem_filter.mp hx
    rw [← of_decide_eq_true hJ]
    exact h.jobs x hx
  have hn : (l.map (·.ID)).Nodup := h.active_nodup.sublist (List.filter_sublist.map _)
  by_cases hl : l = []
  · rw [hl, List.length_nil]
    exact Nat.zero_le 1
  obtain ⟨x0, hx0⟩ := List.exists_mem_of_ne_nil l hl
  have hrep : l.map (·.ID) = List.replicate l.length x0.ID := by
    refine List.eq_replicate_iff.mpr ⟨List.length_map _, fun i hi => ?_⟩
    obtain ⟨x, hx, rfl⟩ := List.mem_map.mp hi
    exact Option.some.inj ((hall x hx).symm.trans (hall x0 hx0))
  rw [hrep] at hn
  exact List.nodup_replicate.mp hn

end Consequences

theorem inv_new (deliveryLimit : Int) (initialNackDelay subsequentNackDelay : Duration) :
    Inv (NewEvalBroker deliveryLimit initialNackDelay subsequentNackDelay) [] where
  enabled := rfl
  ids := rfl
  noEmpty := by simp [NewEvalBroker]
  jobs := by simp [active, NewEvalBroker, Map.flat, Map.vals]
  blocked := by simp [NewEvalBroker]
  unack := by simp [NewEvalBroker]
  timeWait := by simp [NewEvalBroker]
  delayHeap := DelayHeap.wellIndexed_new evalKey
  requeue := by simp [NewEvalBroker]

end EvalBroker

-- ---------------------------------------------------------------------------
-- Every run
-- ---------------------------------------------------------------------------

def Action.evals : Action → List Evaluation
  | .Enqueue eval => [eval]
  | .EnqueueAll evals => evals.map (·.1)
  | _ => []

open EvalBroker in
theorem inv_step {b : EvalBroker} (h : Inv b []) (a : Action) (ha : ∀ e ∈ a.evals, e.ID ≠ "") :
    Inv (step b a) [] := by
  cases a with
  | Enqueue eval => exact h.processEnqueue (ha eval (List.mem_singleton_self _)) ""
  | EnqueueAll evals =>
    exact h.EnqueueAll evals fun p hp => ha p.1 (List.mem_map_of_mem hp)
  | Dequeue schedulers offset token => exact h.scanForSchedulers schedulers offset token
  | Ack evalID token stopped => exact h.Ack evalID token stopped
  | Nack evalID token => exact h.Nack evalID token
  | OutstandingReset _ _ _ => exact h
  | WaitExpired evalID =>
    simp only [step]
    cases hk : b.timeWait.lookup evalID with
    | none => exact h
    | some e => exact h.enqueueWaiting hk
  | DelayExpired eval =>
    simp only [step]
    split_ifs with hm
    · exact h.releaseDelayed hm
    · exact h

open EvalBroker in
theorem inv_run {b : EvalBroker} (h : Inv b []) (actions : List Action)
    (ha : ∀ a ∈ actions, ∀ e ∈ a.evals, e.ID ≠ "") : Inv (run b actions) [] := by
  induction actions generalizing b with
  | nil => exact h
  | cons a rest ih =>
    exact ih (inv_step h a (ha a (List.mem_cons_self ..))) fun a' ha' =>
      ha a' (List.mem_cons_of_mem _ ha')

open EvalBroker in
/-- From a freshly enabled broker, over every run whose evaluations carry IDs: each ID in
`evals` is held exactly once across the five containers, nothing else is held, and every
evaluation ready or outstanding is the only one of its job and the one `jobEvals` records. -/
theorem run_holds_each_eval_once (deliveryLimit : Int) (initialNackDelay subsequentNackDelay : Duration)
    (actions : List Action) (hids : ∀ a ∈ actions, ∀ e ∈ a.evals, e.ID ≠ "") :
    let b := run (NewEvalBroker deliveryLimit initialNackDelay subsequentNackDelay) actions
    (∀ id ∈ b.evals, ((held b).map (·.ID)).count id = 1) ∧
    (∀ e ∈ held b, e.ID ∈ b.evals) ∧
    (∀ e ∈ active b, b.jobEvals.lookup e.namespacedID = some e.ID) ∧
    (∀ J, ((active b).filter (·.namespacedID = J)).length ≤ 1) := by
  intro b
  have h : Inv b [] := inv_run (inv_new deliveryLimit initialNackDelay subsequentNackDelay) actions hids
  have hk : (held b).map (·.ID) = b.evals.keys := by simpa using h.ids
  refine ⟨fun id hid => ?_, fun e he => h.mem_evals he, h.jobs, h.active_job_le_one⟩
  rw [hk]
  exact Multiset.count_eq_one_of_mem (Multiset.coe_nodup.mpr b.evals.keys_nodup)
    (Multiset.mem_coe.mpr (AList.mem_keys.mpr hid))

def twoEvalsOneJob : List Action :=
  let e (id : String) (n : Nat) : Evaluation :=
    { ID := id
      Namespace := "default"
      Priority := 50
      «Type» := "service"
      JobID := "example"
      Wait := 0
      WaitUntil := ⟨0⟩
      CreateIndex := n }
  [.Enqueue (e "a" 1), .Enqueue (e "b" 2), .Dequeue ["service"] 0 "t", .Ack "a" "t" true]

theorem run_holds_each_eval_once_twoEvalsOneJob :
    (∀ a ∈ twoEvalsOneJob, ∀ e ∈ a.evals, e.ID ≠ "") ∧
    let b := run (NewEvalBroker 3 0 0) twoEvalsOneJob
    (∀ id ∈ b.evals, ((EvalBroker.held b).map (·.ID)).count id = 1) ∧
    (∀ e ∈ EvalBroker.held b, e.ID ∈ b.evals) ∧
    (∀ e ∈ EvalBroker.active b, b.jobEvals.lookup e.namespacedID = some e.ID) ∧
    (∀ J, ((EvalBroker.active b).filter (·.namespacedID = J)).length ≤ 1) :=
  ⟨by decide, run_holds_each_eval_once 3 0 0 twoEvalsOneJob (by decide)⟩

end Nomad.Server
