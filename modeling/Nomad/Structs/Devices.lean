import Nomad.Structs.Alloc
import Nomad.Go.Strings

/-!
# Device accounting

`nomad/structs/devices.go`. A `DeviceAccounter` keeps, for each device group of a node, a
counter per healthy instance, raised once for each time an allocation or a reservation names the
instance; only a counter of zero means the instance is free.

The counters are an exact abstraction of the uses recorded so far. `AddsUses d d' extra` says that
`d'` is `d` with the instance IDs `extra` recorded on top, and `Tracks d n used` that the groups of
`d` are those of the node `n`, that it tracks only healthy instances, and that each counter is the
number of times `used` names its instance. The accounter of a fresh node tracks no use, and
`AddAllocs` and `AddReserved` record exactly the instance IDs their arguments name.
-/

namespace Nomad.Structs

open Go Container

structure Affinity where
  LTarget : String
  RTarget : String
  Operand : String
  Weight : Int
  deriving DecidableEq, Repr

structure RequestedDevice where
  Name : String
  Count : Nat
  Constraints : List Constraint := []
  Affinities : List Affinity := []
  deriving DecidableEq, Repr

/-- `ID()`: the name read as `vendor/type/name`, `vendor/type` or `type`. -/
def RequestedDevice.ID (r : RequestedDevice) : Option DeviceIdTuple :=
  if r.Name = "" then none
  else
    match strings.SplitN r.Name '/' 3 with
    | [t] => some { Vendor := "", «Type» := t, Name := "" }
    | [v, t] => some { Vendor := v, «Type» := t, Name := "" }
    | v :: t :: n :: _ => some { Vendor := v, «Type» := t, Name := n }
    -- `SplitN` of a non-empty name has a part
    | [] => none

example : ({ Name := "nvidia/gpu", Count := 1 } : RequestedDevice).ID =
    some { Vendor := "nvidia", «Type» := "gpu", Name := "" } := by decide

structure DeviceAccounterInstance where
  Device : NodeDeviceResource
  /-- The usage of each healthy instance, by instance ID. -/
  Instances : Map String Nat
  deriving DecidableEq, Repr

structure DeviceAccounter where
  Devices : Map DeviceIdTuple DeviceAccounterInstance
  deriving DecidableEq, Repr

def DeviceAccounterInstance.FreeCount (i : DeviceAccounterInstance) : Nat :=
  i.Instances.entries.countP (·.2 == 0)

def Node.devices (n : Node) : List NodeDeviceResource :=
  match n.NodeResources with
  | some r => r.Devices
  | none => []

def newAccounterInstance (dev : NodeDeviceResource) : DeviceAccounterInstance :=
  { Device := dev
    Instances := dev.Instances.foldl (fun m x =>
      -- unhealthy instances are not allocatable
      if !x.Healthy then m else m.insert x.ID 0) ∅ }

def NewDeviceAccounter (n : Node) : DeviceAccounter :=
  { Devices := n.devices.foldl (fun m dev => m.insert dev.ID (newAccounterInstance dev)) ∅ }

/-- The instance IDs of the group `id` that a live allocation's tasks name, in the order
`AddAllocs` visits them: what the allocation uses of that group. -/
def Allocation.DeviceIDsOf (a : Allocation) (id : DeviceIdTuple) : List String :=
  if a.TerminalStatus then []
  else
    match a.AllocatedResources with
    | none => []
    | some res => res.Tasks.vals.flatMap fun tr =>
      tr.Devices.flatMap fun dev => if id = dev.ID then dev.DeviceIDs else []

namespace DeviceAccounter

/-- One instance named by an allocation or a reservation, with the collision flag so far: its
counter is raised if the accounter tracks it, and a counter that was not zero is a collision. -/
def markUsed (devID : DeviceIdTuple) (acc : DeviceAccounter × Bool) (instanceID : String) :
    DeviceAccounter × Bool :=
  match acc.1.Devices.lookup devID with
  | none => acc
  | some devInst =>
    match devInst.Instances.lookup instanceID with
    | none => acc
    | some i =>
      ({ Devices := acc.1.Devices.insert devID
          { devInst with Instances := devInst.Instances.insert instanceID (i + 1) } },
        acc.2 || i != 0)

def markDevice (acc : DeviceAccounter × Bool) (device : AllocatedDeviceResource) :
    DeviceAccounter × Bool :=
  device.DeviceIDs.foldl (markUsed device.ID) acc

def addAlloc (acc : DeviceAccounter × Bool) (a : Allocation) : DeviceAccounter × Bool :=
  if a.TerminalStatus then acc
  else
    match a.AllocatedResources with
    -- an allocation without the new style resources can't have devices
    | none => acc
    | some res => res.Tasks.vals.foldl (fun acc tr => tr.Devices.foldl markDevice acc) acc

variable (d : DeviceAccounter)

/-- `AddAllocs`: the accounter with the devices of the live allocations marked, and whether
an instance was used twice. -/
def AddAllocs (allocs : List Allocation) : DeviceAccounter × Bool :=
  allocs.foldl addAlloc (d, false)

def AddReserved (res : AllocatedDeviceResource) : DeviceAccounter × Bool :=
  match d.Devices.lookup res.ID with
  | none => (d, false)
  | some _ => markDevice (d, false) res

-- ---------------------------------------------------------------------------
-- What the accounter records
-- ---------------------------------------------------------------------------

def device (id : DeviceIdTuple) : Option NodeDeviceResource :=
  (d.Devices.lookup id).map (·.Device)

def usage (id : DeviceIdTuple) (i : String) : Option Nat :=
  (d.Devices.lookup id).bind (·.Instances.lookup i)

/-- `d'` is `d` with the uses `extra` recorded: the same groups and tracked instances, each
counter raised by the number of times `extra` names its instance in its group. -/
def AddsUses (d d' : DeviceAccounter) (extra : DeviceIdTuple → List String) : Prop :=
  (∀ id, d'.device id = d.device id) ∧
    ∀ id i, d'.usage id i = (d.usage id i).map (· + (extra id).count i)

/-- The accounter is exact for the node `n` and the uses `used`. -/
structure Tracks (n : Node) (used : DeviceIdTuple → List String) : Prop where
  group : ∀ id dev, d.device id = some dev → dev ∈ n.devices ∧ dev.ID = id
  healthy : ∀ id i c, d.usage id i = some c →
    ∃ dev, d.device id = some dev ∧ ∃ x ∈ dev.Instances, x.ID = i ∧ x.Healthy = true
  count : ∀ id i c, d.usage id i = some c → c = (used id).count i

variable {d}

theorem AddsUses.refl : AddsUses d d fun _ => [] := by
  refine ⟨fun _ => rfl, fun id i => ?_⟩
  cases d.usage id i <;> rfl

theorem AddsUses.trans {d' d'' : DeviceAccounter} {e e' : DeviceIdTuple → List String}
    (h : AddsUses d d' e) (h' : AddsUses d' d'' e') : AddsUses d d'' fun id => e id ++ e' id := by
  refine ⟨fun id => (h'.1 id).trans (h.1 id), fun id i => ?_⟩
  rw [h'.2, h.2, Option.map_map, List.count_append]
  cases d.usage id i <;> simp

/-- A loop whose every round records the uses `g x` records their concatenation; `get` reads the
accounter out of the loop's state. -/
theorem AddsUses.foldl {σ α : Type} (get : σ → DeviceAccounter) {f : σ → α → σ}
    {g : α → DeviceIdTuple → List String} (hf : ∀ s x, AddsUses (get s) (get (f s x)) (g x))
    (xs : List α) (s : σ) :
    AddsUses (get s) (get (xs.foldl f s)) fun id => xs.flatMap (g · id) := by
  induction xs generalizing s with
  | nil => exact AddsUses.refl
  | cons x xs ih => simpa using (hf s x).trans (ih (f s x))

theorem Tracks.addsUses {d' : DeviceAccounter} {n : Node} {used extra : DeviceIdTuple → List String}
    (ht : d.Tracks n used) (h : AddsUses d d' extra) : d'.Tracks n fun id => used id ++ extra id := by
  -- a counter of `d'` is one of `d` raised, so it exists in `d` with the same group
  have back : ∀ id i c, d'.usage id i = some c → ∃ c₀, d.usage id i = some c₀ ∧
      c = c₀ + (extra id).count i := by
    intro id i c hc
    rw [h.2] at hc
    obtain ⟨c₀, hc₀, rfl⟩ := Option.map_eq_some_iff.1 hc
    exact ⟨c₀, hc₀, rfl⟩
  refine ⟨fun id dev hdev => ht.group id dev ((h.1 id).symm.trans hdev), ?_, ?_⟩
  · intro id i c hc
    obtain ⟨c₀, hc₀, -⟩ := back id i c hc
    rw [h.1 id]
    exact ht.healthy id i c₀ hc₀
  · intro id i c hc
    obtain ⟨c₀, hc₀, rfl⟩ := back id i c hc
    rw [ht.count id i c₀ hc₀, List.count_append]

-- ---------------------------------------------------------------------------
-- The uses each operation records
-- ---------------------------------------------------------------------------

theorem AddsUses.congr {d' : DeviceAccounter} {e e' : DeviceIdTuple → List String}
    (h : AddsUses d d' e) (he : ∀ id, e id = e' id) : AddsUses d d' e' := by
  rwa [← funext he]

@[simp] theorem device_markUsed (devID : DeviceIdTuple) (acc : DeviceAccounter × Bool) (i : String)
    (id : DeviceIdTuple) : (markUsed devID acc i).1.device id = acc.1.device id := by
  unfold markUsed
  split
  next => rfl
  next devInst hdev =>
    split
    next => rfl
    next c _ =>
      by_cases hid : id = devID
      · subst hid
        simp [device, hdev]
      · simp [device, AList.lookup_insert_ne hid]

theorem usage_markUsed (devID : DeviceIdTuple) (acc : DeviceAccounter × Bool) (i : String)
    (id : DeviceIdTuple) (i' : String) :
    (markUsed devID acc i).1.usage id i' =
      (acc.1.usage id i').map (· + if id = devID ∧ i' = i then 1 else 0) := by
  unfold markUsed
  -- only the counter of `i` in `devID` changes, and only when the accounter tracks it
  split
  next hdev =>
    by_cases hhit : id = devID ∧ i' = i
    · obtain ⟨rfl, rfl⟩ := hhit
      simp [usage, hdev]
    · simp [hhit]
  next devInst hdev =>
    split
    next hi =>
      by_cases hhit : id = devID ∧ i' = i
      · obtain ⟨rfl, rfl⟩ := hhit
        simp [usage, hdev, hi]
      · simp [hhit]
    next c hi =>
      by_cases hid : id = devID
      · subst hid
        by_cases hi' : i' = i
        · subst hi'
          simp [usage, hdev, hi]
        · simp [usage, hdev, hi', AList.lookup_insert_ne hi']
      · simp [usage, hid, AList.lookup_insert_ne hid]

theorem markUsed_addsUses (devID : DeviceIdTuple) (acc : DeviceAccounter × Bool) (i : String) :
    AddsUses acc.1 (markUsed devID acc i).1 fun id => if id = devID then [i] else [] := by
  refine ⟨device_markUsed devID acc i, fun id i' => ?_⟩
  rw [usage_markUsed]
  by_cases hid : id = devID <;> by_cases hi : i' = i <;> simp [hid, hi, Ne.symm]

theorem markDevice_addsUses (acc : DeviceAccounter × Bool) (device : AllocatedDeviceResource) :
    AddsUses acc.1 (markDevice acc device).1
      fun id => if id = device.ID then device.DeviceIDs else [] := by
  refine (AddsUses.foldl Prod.fst (markUsed_addsUses device.ID) device.DeviceIDs acc).congr fun id => ?_
  by_cases hid : id = device.ID <;> simp [hid]

theorem addAlloc_addsUses (acc : DeviceAccounter × Bool) (a : Allocation) :
    AddsUses acc.1 (addAlloc acc a).1 a.DeviceIDsOf := by
  unfold addAlloc Allocation.DeviceIDsOf
  by_cases hterm : a.TerminalStatus
  · simpa [hterm] using AddsUses.refl
  · simp only [hterm, Bool.false_eq_true, if_false]
    cases a.AllocatedResources with
    | none => exact AddsUses.refl
    | some res =>
      exact AddsUses.foldl Prod.fst
        (fun acc tr => AddsUses.foldl Prod.fst markDevice_addsUses tr.Devices acc) res.Tasks.vals acc

theorem addAllocs_addsUses (allocs : List Allocation) :
    AddsUses d (d.AddAllocs allocs).1 fun id => allocs.flatMap (·.DeviceIDsOf id) :=
  AddsUses.foldl Prod.fst addAlloc_addsUses allocs (d, false)

theorem addReserved_addsUses (res : AllocatedDeviceResource) :
    AddsUses d (d.AddReserved res).1 fun id => if id = res.ID then res.DeviceIDs else [] := by
  unfold AddReserved
  cases hdev : d.Devices.lookup res.ID with
  | none =>
    -- the group is not tracked, so no counter of it exists to raise
    refine ⟨fun _ => rfl, fun id i => ?_⟩
    by_cases hid : id = res.ID
    · subst hid
      simp [usage, hdev]
    · simp [hid]
  | some _ => exact markDevice_addsUses (d, false) res

theorem lookup_newAccounterInstance {dev : NodeDeviceResource} {i : String} {c : Nat}
    (h : (newAccounterInstance dev).Instances.lookup i = some c) :
    c = 0 ∧ ∃ x ∈ dev.Instances, x.ID = i ∧ x.Healthy = true := by
  have hfold : dev.Instances.foldl (fun (m : Map String Nat) x =>
      if !x.Healthy then m else m.insert x.ID 0) ∅ =
      (dev.Instances.filter (·.Healthy)).foldl (fun m x => m.insert x.ID 0) ∅ := by
    rw [List.foldl_filter]
    congr
    funext m x
    cases x.Healthy <;> rfl
  rw [newAccounterInstance, hfold] at h
  rcases Map.lookup_foldl_insert _ _ _ _ h with h | ⟨x, hx, rfl, rfl⟩
  · simp at h
  · exact ⟨rfl, x, (List.mem_filter.1 hx).1, rfl, (List.mem_filter.1 hx).2⟩

theorem lookup_newDeviceAccounter {n : Node} {id : DeviceIdTuple} {inst : DeviceAccounterInstance}
    (h : (NewDeviceAccounter n).Devices.lookup id = some inst) :
    ∃ dev ∈ n.devices, dev.ID = id ∧ inst = newAccounterInstance dev := by
  rcases Map.lookup_foldl_insert _ _ _ _ h with h | ⟨dev, hdev, rfl, rfl⟩
  · simp at h
  · exact ⟨dev, hdev, rfl, rfl⟩

/-- The accounter of a node tracks its healthy instances and no use of them. -/
theorem tracks_newDeviceAccounter (n : Node) : (NewDeviceAccounter n).Tracks n fun _ => [] := by
  refine ⟨fun id dev hdev => ?_, fun id i c hc => ?_, fun id i c hc => ?_⟩
  · obtain ⟨inst, hinst, rfl⟩ := Option.map_eq_some_iff.1 hdev
    obtain ⟨dev, hmem, rfl, rfl⟩ := lookup_newDeviceAccounter hinst
    exact ⟨hmem, rfl⟩
  · obtain ⟨inst, hinst, hi⟩ := Option.bind_eq_some_iff.1 hc
    obtain ⟨dev, -, -, rfl⟩ := lookup_newDeviceAccounter hinst
    exact ⟨dev, by simp [device, hinst, newAccounterInstance], (lookup_newAccounterInstance hi).2⟩
  · obtain ⟨inst, hinst, hi⟩ := Option.bind_eq_some_iff.1 hc
    obtain ⟨dev, -, -, rfl⟩ := lookup_newDeviceAccounter hinst
    simpa using (lookup_newAccounterInstance hi).1

end DeviceAccounter

end Nomad.Structs
