import Mathlib
import Nomad.Structs.Devices

/-!
# Assigning devices

`scheduler/device.go`. `AssignDevice` looks through the device groups of a node for one with
enough free instances that matches the request, keeps the one with the best affinity score
(a later group replaces an earlier one of the same score), and offers the first free instances
of that group.

The offer is valid and exclusive (`assignDevice_spec`): it names exactly the requested number of
distinct instances of one matching group of the node, each healthy and, by `Tracks`, named by no
use the accounter has recorded; reserving it raises each of its counters from zero to one.

What the checks read of the rest of the scheduler is kept abstract in `CheckContext`: the parser
of literal attributes and the context's constraint checker. Go ranges over the device groups and
over a group's instances in no fixed order, and which instances an offer names depends on it:
both orders are parameters, and the offer is valid for every pair. Scores are rationals in place
of `float64`.
-/

namespace Nomad.Scheduler

open Go Container Structs

/-- What the device checks use beyond the device: `psstructs.ParseAttribute` for a literal target
and `checkAttributeConstraint(ctx, operand, lVal, rVal, lFound, rFound)`, with a target that
did not resolve as `none`. -/
structure CheckContext where
  ParseAttribute : String → psstructs.Attribute
  checkAttributeConstraint : String → Option psstructs.Attribute → Option psstructs.Attribute → Bool

variable (ctx : CheckContext)

def resolveDeviceTarget (target : String) (d : NodeDeviceResource) : Option psstructs.Attribute :=
  -- If no prefix, this must be a literal value
  if !strings.HasPrefix target "$\x7b" then some (ctx.ParseAttribute target)
  else if target = "$\x7bdevice.model\x7d" then some (psstructs.NewStringAttribute d.Name)
  else if target = "$\x7bdevice.vendor\x7d" then some (psstructs.NewStringAttribute d.Vendor)
  else if target = "$\x7bdevice.type\x7d" then some (psstructs.NewStringAttribute d.«Type»)
  else if strings.HasPrefix target "$\x7bdevice.attr." then
    d.Attributes.lookup (strings.TrimSuffix (strings.TrimPrefix target "$\x7bdevice.attr.") "\x7d")
  else none

def nodeDeviceMatches (d : NodeDeviceResource) (req : RequestedDevice) : Bool :=
  if !d.ID.Matches req.ID then false
  else if req.Constraints.length = 0 then true
  else
    req.Constraints.all fun c =>
      ctx.checkAttributeConstraint c.Operand (resolveDeviceTarget ctx c.LTarget d)
        (resolveDeviceTarget ctx c.RTarget d)

/-- The score of a device group for the request's affinities, the matched weights over the total
absolute weight, with the sum of the matched weights. -/
def affinityScore (ask : RequestedDevice) (dev : NodeDeviceResource) : ℚ × ℚ :=
  if ask.Affinities.length = 0 then (0, 0)
  else
    let (totalWeight, choiceScore, sumMatchedWeights) :=
      ask.Affinities.foldl (fun (acc : ℚ × ℚ × ℚ) a =>
        let lVal := resolveDeviceTarget ctx a.LTarget dev
        let rVal := resolveDeviceTarget ctx a.RTarget dev
        let totalWeight := acc.1 + a.Weight.natAbs
        -- `checkAttributeAffinity` is `checkAttributeConstraint`
        if !ctx.checkAttributeConstraint a.Operand lVal rVal then (totalWeight, acc.2.1, acc.2.2)
        else (totalWeight, acc.2.1 + a.Weight, acc.2.2 + a.Weight)) (0, 0, 0)
    (choiceScore / totalWeight, sumMatchedWeights)

/-- The loop that fills an offer: the first `k` free instances in iteration order, where `k` is
what is still to assign; it breaks once nothing is. -/
def pickFree : Nat → List (Σ _ : String, Nat) → List String
  | 0, _ => []
  | _, [] => []
  | k + 1, e :: rest => if e.2 = 0 then e.1 :: pickFree k rest else pickFree (k + 1) rest

def offerOf (instances : Map.RangeOrder String Nat) (ask : RequestedDevice)
    (e : Σ _ : DeviceIdTuple, DeviceAccounterInstance) : AllocatedDeviceResource :=
  { Vendor := e.1.Vendor, «Type» := e.1.«Type», Name := e.1.Name
    DeviceIDs := pickFree ask.Count (instances.visit e.2.Instances) }

def assignStep (instances : Map.RangeOrder String Nat) (ask : RequestedDevice)
    (best : Option (AllocatedDeviceResource × ℚ × ℚ))
    (e : Σ _ : DeviceIdTuple, DeviceAccounterInstance) : Option (AllocatedDeviceResource × ℚ × ℚ) :=
  -- the loop counting `assignable` is `FreeCount`
  if e.2.FreeCount < ask.Count then best
  else if !nodeDeviceMatches ctx e.2.Device ask then best
  else
    let (choiceScore, sumMatchedWeights) := affinityScore ctx ask e.2.Device
    -- Only use the device if it is a higher score than we have already seen
    if best.any (choiceScore < ·.2.1) then best
    else some (offerOf instances ask e, choiceScore, sumMatchedWeights)

/-- `AssignDevice` of the allocator whose accounter is `d`, ranging over the groups in the order
`groups` and over the instances in the order `instances`: the offer and its matched affinity
weights, or the error the code returns. -/
def AssignDevice (groups : Map.RangeOrder DeviceIdTuple DeviceAccounterInstance)
    (instances : Map.RangeOrder String Nat) (d : DeviceAccounter) (ask : RequestedDevice) :
    Except String (AllocatedDeviceResource × ℚ) :=
  if d.Devices.entries.length = 0 then .error "no devices available"
  else if ask.Count = 0 then .error "invalid request of zero devices"
  else
    match (groups.visit d.Devices).foldl (assignStep ctx instances ask) none with
    | none => .error "no devices match request"
    | some (offer, _, matchedWeights) => .ok (offer, matchedWeights)

/-- The accounter `BinPackIterator` hands `AssignDevice`: the node's, with the proposed
allocations added and then each offer made so far reserved. -/
def accountedDevices (n : Node) (allocs : List Allocation) (reserved : List AllocatedDeviceResource) :
    DeviceAccounter :=
  reserved.foldl (fun d r => (d.AddReserved r).1) ((NewDeviceAccounter n).AddAllocs allocs).1

-- ---------------------------------------------------------------------------
-- Filling the offer
-- ---------------------------------------------------------------------------

theorem pickFree_length (k : Nat) (l : List (Σ _ : String, Nat)) (hk : k ≤ l.countP (·.2 == 0)) :
    (pickFree k l).length = k := by
  induction l generalizing k with
  | nil =>
    have hk0 : k = 0 := by simpa using hk
    subst hk0
    rfl
  | cons e rest ih =>
    cases k with
    | zero => rfl
    | succ k =>
      by_cases he : e.2 = 0
      · rw [List.countP_cons_of_pos (by simpa using he)] at hk
        simp [pickFree, he, ih k (by omega)]
      · rw [List.countP_cons_of_neg (by simpa using he)] at hk
        simp [pickFree, he, ih (k + 1) hk]

theorem pickFree_sublist (k : Nat) (l : List (Σ _ : String, Nat)) :
    (pickFree k l).Sublist ((l.filter (·.2 == 0)).map (·.1)) := by
  induction l generalizing k with
  | nil => cases k <;> simp [pickFree]
  | cons e rest ih =>
    cases k with
    | zero => simp [pickFree]
    | succ k =>
      by_cases he : e.2 = 0
      · simpa [pickFree, he] using (ih k).cons_cons e.1
      · simpa [pickFree, he] using ih (k + 1)

theorem pickFree_nodup (k : Nat) (o : Map.RangeOrder String Nat) (m : Map String Nat) :
    (pickFree k (o.visit m)).Nodup := by
  have hkeys : ((o.visit m).map (·.1)).Nodup := o.nodupKeys_visit m
  exact hkeys.sublist ((pickFree_sublist k (o.visit m)).trans (List.filter_sublist.map _))

theorem lookup_of_mem_pickFree {k : Nat} {o : Map.RangeOrder String Nat} {m : Map String Nat}
    {i : String} (hi : i ∈ pickFree k (o.visit m)) : m.lookup i = some 0 := by
  obtain ⟨e, he, rfl⟩ := List.mem_map.1 ((pickFree_sublist k (o.visit m)).subset hi)
  obtain ⟨he, h0⟩ := List.mem_filter.1 he
  have h0 : e.2 = 0 := by simpa using h0
  rw [← h0]
  exact AList.mem_lookup_iff.2 ((o.mem_visit m).1 he)

-- ---------------------------------------------------------------------------
-- Choosing the group
-- ---------------------------------------------------------------------------

variable {instances : Map.RangeOrder String Nat}

theorem assignStep_eq_some {ask : RequestedDevice} {best : Option (AllocatedDeviceResource × ℚ × ℚ)}
    {e : Σ _ : DeviceIdTuple, DeviceAccounterInstance} {r : AllocatedDeviceResource × ℚ × ℚ}
    (h : assignStep ctx instances ask best e = some r) :
    best = some r ∨ (ask.Count ≤ e.2.FreeCount ∧ nodeDeviceMatches ctx e.2.Device ask = true ∧
      r.1 = offerOf instances ask e) := by
  unfold assignStep at h
  by_cases hfree : e.2.FreeCount < ask.Count
  · exact .inl (by simpa [hfree] using h)
  by_cases hmatch : nodeDeviceMatches ctx e.2.Device ask = true
  · simp only [hfree, hmatch, if_false, Bool.not_true, Bool.false_eq_true] at h
    split at h
    · exact .inl h
    · cases h
      exact .inr ⟨by omega, hmatch, rfl⟩
  · exact .inl (by simpa [hfree, hmatch] using h)

theorem foldl_assignStep_eq_some {ask : RequestedDevice} (l : List (Σ _ : DeviceIdTuple, DeviceAccounterInstance))
    {best : Option (AllocatedDeviceResource × ℚ × ℚ)} {r : AllocatedDeviceResource × ℚ × ℚ}
    (h : l.foldl (assignStep ctx instances ask) best = some r) :
    best = some r ∨ ∃ e ∈ l, ask.Count ≤ e.2.FreeCount ∧
      nodeDeviceMatches ctx e.2.Device ask = true ∧ r.1 = offerOf instances ask e := by
  induction l generalizing best with
  | nil => exact .inl h
  | cons e rest ih =>
    rcases ih h with h | ⟨e', he', hrest⟩
    · rcases assignStep_eq_some ctx h with h | hnew
      · exact .inl h
      · exact .inr ⟨e, List.mem_cons_self, hnew⟩
    · exact .inr ⟨e', List.mem_cons_of_mem _ he', hrest⟩

theorem assignDevice_ok {groups : Map.RangeOrder DeviceIdTuple DeviceAccounterInstance}
    {d : DeviceAccounter} {ask : RequestedDevice} {offer : AllocatedDeviceResource} {score : ℚ}
    (h : AssignDevice ctx groups instances d ask = .ok (offer, score)) :
    ∃ e ∈ d.Devices.entries, ask.Count ≤ e.2.FreeCount ∧
      nodeDeviceMatches ctx e.2.Device ask = true ∧ offer = offerOf instances ask e := by
  unfold AssignDevice at h
  split_ifs at h
  split at h
  · cases h
  · next offer' s m hfold =>
    cases h
    rcases foldl_assignStep_eq_some ctx _ hfold with h | ⟨e, he, hrest⟩
    · cases h
    · exact ⟨e, (groups.mem_visit d.Devices).1 he, hrest⟩

-- ---------------------------------------------------------------------------
-- The offer is valid and exclusive
-- ---------------------------------------------------------------------------

section Spec

variable {ctx} {groups : Map.RangeOrder DeviceIdTuple DeviceAccounterInstance} {d : DeviceAccounter}
  {n : Node} {used : DeviceIdTuple → List String} {ask : RequestedDevice}
  {offer : AllocatedDeviceResource} {score : ℚ}

/-- An offer names `ask.Count` distinct instances of one matching group of the node, each healthy,
free in the accounter, and named by none of the uses it records. -/
theorem assignDevice_spec (hd : d.Tracks n used)
    (h : AssignDevice ctx groups instances d ask = .ok (offer, score)) :
    offer.DeviceIDs.length = ask.Count ∧ offer.DeviceIDs.Nodup ∧
      ∃ dev ∈ n.devices, dev.ID = offer.ID ∧ d.device offer.ID = some dev ∧
        nodeDeviceMatches ctx dev ask = true ∧ ∀ i ∈ offer.DeviceIDs, d.usage offer.ID i = some 0 ∧
          (∃ x ∈ dev.Instances, x.ID = i ∧ x.Healthy = true) ∧ i ∉ used offer.ID := by
  obtain ⟨e, he, hfree, hmatch, rfl⟩ := assignDevice_ok ctx h
  have hlook : d.Devices.lookup e.1 = some e.2 := AList.mem_lookup_iff.2 he
  have hid : (offerOf instances ask e).ID = e.1 := rfl
  have hdev : d.device e.1 = some e.2.Device := by simp [DeviceAccounter.device, hlook]
  obtain ⟨hmem, hdevID⟩ := hd.group e.1 e.2.Device hdev
  -- the instance loop visits the group's instances in some order, with as many free ones
  have hfree' : ask.Count ≤ (instances.visit e.2.Instances).countP (·.2 == 0) := by
    rw [instances.countP_visit]
    exact hfree
  refine ⟨pickFree_length _ _ hfree', pickFree_nodup _ _ _, e.2.Device, hmem,
    hdevID.trans hid.symm, hid ▸ hdev, hmatch, fun i hi => ?_⟩
  rw [hid]
  -- each picked instance has counter zero, so it is a healthy one that no recorded use names
  have husage : d.usage e.1 i = some 0 := by
    simp [DeviceAccounter.usage, hlook, lookup_of_mem_pickFree hi]
  obtain ⟨dev, hdev', hhealthy⟩ := hd.healthy e.1 i 0 husage
  rw [hdev, Option.some.injEq] at hdev'
  subst hdev'
  exact ⟨husage, hhealthy, List.count_eq_zero.1 (hd.count e.1 i 0 husage).symm⟩

theorem usage_addReserved_of_free {res : AllocatedDeviceResource} (hnodup : res.DeviceIDs.Nodup)
    (hfree : ∀ i ∈ res.DeviceIDs, d.usage res.ID i = some 0) (id : DeviceIdTuple) (i : String)
    {c' : Nat} (hc' : (d.AddReserved res).1.usage id i = some c') :
    c' ≤ 1 ∨ ∃ c, d.usage id i = some c ∧ 1 < c := by
  rw [(DeviceAccounter.addReserved_addsUses res).2] at hc'
  by_cases hres : id = res.ID ∧ i ∈ res.DeviceIDs
  · obtain ⟨rfl, hi⟩ := hres
    simp [hfree i hi, List.count_eq_one_of_mem hnodup hi] at hc'
    omega
  · obtain ⟨c, hc, rfl⟩ := Option.map_eq_some_iff.1 hc'
    have hzero : (if id = res.ID then res.DeviceIDs else []).count i = 0 := by
      by_cases hid : id = res.ID
      · rw [if_pos hid]
        exact List.count_eq_zero.2 fun hi => hres ⟨hid, hi⟩
      · simp [hid]
    rw [hzero, Nat.add_zero]
    by_cases hle : c ≤ 1
    · exact .inl hle
    · exact .inr ⟨c, hc, by omega⟩

end Spec

theorem tracks_accountedDevices (n : Node) (allocs : List Allocation)
    (reserved : List AllocatedDeviceResource) :
    (accountedDevices n allocs reserved).Tracks n fun id =>
      allocs.flatMap (·.DeviceIDsOf id) ++ reserved.flatMap fun r => if id = r.ID then r.DeviceIDs else [] := by
  have hallocs := (DeviceAccounter.tracks_newDeviceAccounter n).addsUses
    (DeviceAccounter.addAllocs_addsUses allocs)
  have hres := hallocs.addsUses (DeviceAccounter.AddsUses.foldl id
    (fun d r => DeviceAccounter.addReserved_addsUses (d := d) r) reserved _)
  unfold accountedDevices
  simpa using hres

/-- `AssignDevice` on the accounter of a node with allocations and reservations added, in any
order of the groups and of the instances: an offer names exactly `ask.Count` distinct instances of
one device group of the node that matches the request, each healthy, used by no live allocation
and no reservation, and reserving it uses no instance more than once that was not already. -/
theorem assignDevice_offers_free_instances (ctx : CheckContext)
    (groups : Map.RangeOrder DeviceIdTuple DeviceAccounterInstance) (instances : Map.RangeOrder String Nat)
    (n : Node) (allocs : List Allocation) (reserved : List AllocatedDeviceResource)
    (ask : RequestedDevice) (offer : AllocatedDeviceResource) (score : ℚ)
    (h : AssignDevice ctx groups instances (accountedDevices n allocs reserved) ask =
      .ok (offer, score)) :
    offer.DeviceIDs.length = ask.Count ∧ offer.DeviceIDs.Nodup ∧
      (∃ dev ∈ n.devices, dev.ID = offer.ID ∧ nodeDeviceMatches ctx dev ask = true ∧
        ∀ i ∈ offer.DeviceIDs, ∃ x ∈ dev.Instances, x.ID = i ∧ x.Healthy = true) ∧
      (∀ i ∈ offer.DeviceIDs, (∀ a ∈ allocs, i ∉ a.DeviceIDsOf offer.ID) ∧
        ∀ r ∈ reserved, r.ID = offer.ID → i ∉ r.DeviceIDs) ∧
      ∀ id i c', ((accountedDevices n allocs reserved).AddReserved offer).1.usage id i = some c' →
        c' ≤ 1 ∨ ∃ c, (accountedDevices n allocs reserved).usage id i = some c ∧ 1 < c := by
  obtain ⟨hlen, hnodup, dev, hmem, hdevID, -, hmatch, hinst⟩ :=
    assignDevice_spec (tracks_accountedDevices n allocs reserved) h
  refine ⟨hlen, hnodup, ⟨dev, hmem, hdevID, hmatch, fun i hi => (hinst i hi).2.1⟩, fun i hi => ?_,
    fun id i c' hc' => usage_addReserved_of_free hnodup (fun i hi => (hinst i hi).1) id i hc'⟩
  -- the recorded uses are the allocations' and the reservations' instance IDs
  have hunused := (hinst i hi).2.2
  simp only [List.mem_append, List.mem_flatMap, not_or, not_exists, not_and] at hunused
  refine ⟨fun a ha => hunused.1 a ha, fun r hr hrid => ?_⟩
  simpa [hrid] using hunused.2 r hr

def gpuGroup : NodeDeviceResource :=
  { Vendor := "nvidia", «Type» := "gpu", Name := "1080ti",
    Instances := [⟨"g0", true⟩, ⟨"g1", true⟩, ⟨"g2", false⟩] }

def gpuNode : Node := { Status := .ready, ID := "n1", NodeResources := some { Devices := [gpuGroup] } }

def gpuJob : Job :=
  { ID := "train", Namespace := "default", «Type» := JobTypeBatch, Priority := 50, Stop := false,
    Version := 0, CreateIndex := 1, ModifyIndex := 1, JobModifyIndex := 1, TaskGroups := [] }

def gpuTask : AllocatedTaskResources :=
  { Devices := [{ Vendor := "nvidia", «Type» := "gpu", Name := "1080ti", DeviceIDs := ["g0"] }] }

def gpuAlloc : Allocation :=
  { ID := "a1", Name := 0, JobID := "train", Job := gpuJob, TaskGroup := "train", NodeID := "n1",
    DesiredStatus := .run, DesiredTransition := ⟨none, none, none⟩, ClientStatus := .running,
    DeploymentID := "", DeploymentStatus := none, TaskStates := [], RescheduleTracker := none,
    NextAllocation := "", FollowupEvalID := "", ModifyTime := 0,
    AllocatedResources := some { Tasks := (∅ : Map String AllocatedTaskResources).insert "train" gpuTask } }

def passingChecks : CheckContext :=
  { ParseAttribute := fun s => { String := some s }, checkAttributeConstraint := fun _ _ _ => true }

def gpuAsk : RequestedDevice := { Name := "nvidia/gpu", Count := 1 }

def gpuOffer : AllocatedDeviceResource :=
  { Vendor := "nvidia", «Type» := "gpu", Name := "1080ti", DeviceIDs := ["g1"] }

/-- With `g0` held by the allocation and `g2` unhealthy, the one GPU asked for is `g1`. -/
theorem assignDevice_offers_free_instances_gpu :
    AssignDevice passingChecks .stored .stored (accountedDevices gpuNode [gpuAlloc] []) gpuAsk =
      .ok (gpuOffer, 0) ∧
    gpuOffer.DeviceIDs.length = gpuAsk.Count ∧ gpuOffer.DeviceIDs.Nodup ∧
      (∃ dev ∈ gpuNode.devices, dev.ID = gpuOffer.ID ∧ nodeDeviceMatches passingChecks dev gpuAsk = true ∧
        ∀ i ∈ gpuOffer.DeviceIDs, ∃ x ∈ dev.Instances, x.ID = i ∧ x.Healthy = true) ∧
      (∀ i ∈ gpuOffer.DeviceIDs, (∀ a ∈ [gpuAlloc], i ∉ a.DeviceIDsOf gpuOffer.ID) ∧
        ∀ r ∈ ([] : List AllocatedDeviceResource), r.ID = gpuOffer.ID → i ∉ r.DeviceIDs) ∧
      ∀ id i c', ((accountedDevices gpuNode [gpuAlloc] []).AddReserved gpuOffer).1.usage id i = some c' →
        c' ≤ 1 ∨ ∃ c, (accountedDevices gpuNode [gpuAlloc] []).usage id i = some c ∧ 1 < c :=
  have h : AssignDevice passingChecks .stored .stored (accountedDevices gpuNode [gpuAlloc] []) gpuAsk =
      .ok (gpuOffer, 0) := by decide +kernel
  ⟨h, assignDevice_offers_free_instances passingChecks .stored .stored gpuNode [gpuAlloc] [] gpuAsk
    gpuOffer 0 h⟩

/-- The instances in the reverse of the stored order. -/
def reversedInstances : Map.RangeOrder String Nat := ⟨fun m => m.entries.reverse, fun _ => List.reverse_perm _⟩

-- With no allocation both healthy GPUs are free, and the order of the instance loop picks one.
example :
    AssignDevice passingChecks .stored .stored (accountedDevices gpuNode [] []) gpuAsk =
        .ok ({ gpuOffer with DeviceIDs := ["g1"] }, 0) ∧
      AssignDevice passingChecks .stored reversedInstances (accountedDevices gpuNode [] []) gpuAsk =
        .ok ({ gpuOffer with DeviceIDs := ["g0"] }, 0) := by
  decide +kernel

end Nomad.Scheduler
