import Nomad.Container.Heap
import Nomad.Go.Time
import Nomad.Structs.Alloc
import Nomad.Structs.Bitmap
import Nomad.Structs.PortRanges

/-!
# The network index

`NetworkIndex` keeps, per node, the networks it offers with their bandwidth, and per address the
ports in use as a bitmap of `maxValidPort` bits. `AssignNetwork` walks the addresses of every
available network and returns the first offer that fits the ask: bandwidth below the device's,
the reserved ports free, and dynamic ports picked first by up to twenty random probes per port,
then by a partial shuffle of every free port of the range.

The random source is a list of draws, `rand.Intn(n)` taking the next one modulo `n`, so every
outcome of the random choices is some list. The addresses of a CIDR block are the parameter
`cidrIPs`, in the order `yieldIP` counts them, and the order in which `AddReservedPortRange` ranges
over the map of bitmaps is one too; nothing below depends on which they are.
-/

namespace Nomad.Structs

open Go Container

def MinDynamicPort : Int := 20000

def MaxDynamicPort : Int := 32000

def maxRandPortAttempts : Nat := 20

def maxValidPort : Nat := 65536

structure NetworkIndex where
  AvailNetworks : List NetworkResource := []
  AvailBandwidth : Map String Int := ∅
  UsedPorts : Map String Bitmap := ∅
  UsedBandwidth : Map String Int := ∅
  deriving DecidableEq, Repr

/-- A Go map read at a missing key gives zero. -/
def lookupD (m : Map String Int) (k : String) : Int := (m.lookup k).getD 0

/-- The bitmap `AddReserved` and `AddReservedPortRange` make for an address: from the pool, or
`NewBitmap(maxValidPort)`; every pooled bitmap was made so and is cleared. -/
def newPortBitmap : Bitmap :=
  match NewBitmap maxValidPort with
  | .ok b => b
  | .error _ => ⟨[]⟩

def Intn (n : Nat) (rands : List Nat) : Nat × List Nat := (rands.headD 0 % n, rands.tail)

/-- Whether a port is in use on an address with the given bitmap; a missing one is `nil`. -/
def portUsed (used : Option Bitmap) (p : Int) : Bool :=
  match used with
  | some b => b.Check p.toNat
  | none => false

-- ---------------------------------------------------------------------------
-- Building the index
-- ---------------------------------------------------------------------------

/-- The loop that marks ports in a bitmap, shared by `AddReserved` and `AddReservedPortRange`:
the bitmap after it, the collision flag, and whether it returned at an invalid port. -/
def reserveValues : Bitmap → Bool → List Int → Bitmap × Bool × Bool
  | used, collide, [] => (used, collide, false)
  | used, collide, port :: ports =>
    if port < 0 ∨ (maxValidPort : Int) ≤ port then (used, true, true)
    else if used.Check port.toNat then reserveValues used true ports
    else reserveValues (used.Set port.toNat) collide ports

namespace NetworkIndex

variable (idx : NetworkIndex)

/-- `AddReserved(n)`: the ports of `n` marked on its address and its bandwidth added. The bitmap
is updated in place, so an invalid port leaves the ports before it marked. -/
def AddReserved (n : NetworkResource) : NetworkIndex × Bool :=
  let used := (idx.UsedPorts.lookup n.IP).getD newPortBitmap
  let (used, collide, returned) :=
    reserveValues used false ((n.ReservedPorts ++ n.DynamicPorts).map (·.Value))
  let idx := { idx with UsedPorts := idx.UsedPorts.insert n.IP used }
  if returned then (idx, true)
  else
    ({ idx with
      UsedBandwidth := idx.UsedBandwidth.insert n.Device
        (wrap64 (lookupD idx.UsedBandwidth n.Device + n.MBits)) }, collide)

/-- The loop over the bitmaps of `AddReservedPortRange`, in the order the range visits them. -/
def reserveEverywhere (resPorts : List Int) :
    List (Σ _ : String, Bitmap) → Map String Bitmap → Map String Bitmap × Bool
  | [], usedPorts => (usedPorts, false)
  | ⟨ip, used⟩ :: rest, usedPorts =>
    let (used, collide, returned) := reserveValues used false resPorts
    let usedPorts := usedPorts.insert ip used
    if returned then (usedPorts, true)
    else
      let (usedPorts, collide') := reserveEverywhere resPorts rest usedPorts
      (usedPorts, collide || collide')

/-- `AddReservedPortRange(ports)`: the ports of the spec marked on every address, visited in the
order `order`; `none` when `ParsePortRanges` does not return. A spec that does not parse reserves
nothing. An invalid port returns at the first address, so which bitmaps hold the ports before it
depends on the order. -/
def AddReservedPortRange (order : Map.RangeOrder String Bitmap) (fuel : Nat) (ports : String) :
    Option (NetworkIndex × Bool) :=
  match ParsePortRanges fuel ports with
  | none => none
  | some (.error _) => some (idx, false)
  | some (.ok resPorts) =>
    -- a bitmap for each available network
    let usedPorts := idx.AvailNetworks.foldl (fun usedPorts n =>
      if n.IP ∈ usedPorts then usedPorts else usedPorts.insert n.IP newPortBitmap) idx.UsedPorts
    let (usedPorts, collide) :=
      reserveEverywhere (resPorts.map Int.ofNat) (order.visit usedPorts) usedPorts
    some ({ idx with UsedPorts := usedPorts }, collide)

def nodeNetworks (node : Node) : List NetworkResource :=
  match node.NodeResources with
  | some r => if r.Networks ≠ [] then r.Networks else (node.Resources.map (·.Networks)).getD []
  | none => (node.Resources.map (·.Networks)).getD []

def addReservedAll (nets : List NetworkResource) : NetworkIndex × Bool :=
  nets.foldl (fun (acc : NetworkIndex × Bool) n =>
    let (idx, collide) := acc.1.AddReserved n
    (idx, acc.2 || collide)) (idx, false)

/-- `SetNode(node)`: the node's networks with a device become available, then the node's
reserved ports are marked, from the host port spec if there is one. -/
def SetNode (order : Map.RangeOrder String Bitmap) (fuel : Nat) (node : Node) :
    Option (NetworkIndex × Bool) :=
  let idx := (nodeNetworks node).foldl (fun (idx : NetworkIndex) n =>
    if n.Device ≠ "" then
      { idx with
        AvailNetworks := idx.AvailNetworks ++ [n]
        AvailBandwidth := idx.AvailBandwidth.insert n.Device n.MBits }
    else idx) idx
  match node.ReservedResources with
  | some rr =>
    if rr.Networks.ReservedHostPorts ≠ "" then
      idx.AddReservedPortRange order fuel rr.Networks.ReservedHostPorts
    else some ((node.Reserved.map fun r => idx.addReservedAll r.Networks).getD (idx, false))
  | none => some ((node.Reserved.map fun r => idx.addReservedAll r.Networks).getD (idx, false))

/-- The networks `AddAllocs` reserves for one allocation: the shared ones and the first of each
task, or the first of each legacy task resource. -/
def allocNetworks (alloc : Allocation) : List NetworkResource :=
  match alloc.AllocatedResources with
  | some res => res.Shared.Networks ++ res.Tasks.vals.filterMap (·.Networks.head?)
  | none => alloc.TaskResources.vals.filterMap (·.Networks.head?)

def AddAllocs (allocs : List Allocation) : NetworkIndex × Bool :=
  allocs.foldl (fun (acc : NetworkIndex × Bool) alloc =>
    if alloc.TerminalStatus then acc
    else
      let (idx, collide) := acc.1.addReservedAll (allocNetworks alloc)
      (idx, acc.2 || collide)) (idx, false)

end NetworkIndex

def NewNetworkIndex : NetworkIndex := {}

-- ---------------------------------------------------------------------------
-- Picking dynamic ports
-- ---------------------------------------------------------------------------

def isPortReserved (haystack : List Int) (needle : Int) : Bool := haystack.any (· == needle)

/-- `PICK` with `attempts` probes left: a random port of the range that is free on the address
and in neither list. -/
def stochasticPick (nodeUsed : Option Bitmap) (reserved dynamic : List Int) :
    Nat → List Nat → Option Int × List Nat
  | 0, rands => (none, rands)
  | attempts + 1, rands =>
    let (r, rands) := Intn (MaxDynamicPort - MinDynamicPort).toNat rands
    let randPort := MinDynamicPort + r
    if portUsed nodeUsed randPort then stochasticPick nodeUsed reserved dynamic attempts rands
    else if isPortReserved reserved randPort || isPortReserved dynamic randPort then
      stochasticPick nodeUsed reserved dynamic attempts rands
    else (some randPort, rands)

def stochasticLoop (nodeUsed : Option Bitmap) (reserved : List Int) :
    List Port → List Int → List Nat → Except String (List Int) × List Nat
  | [], dynamic, rands => (.ok dynamic, rands)
  | _ :: ports, dynamic, rands =>
    match stochasticPick nodeUsed reserved dynamic maxRandPortAttempts rands with
    | (none, rands) => (.error "stochastic dynamic port selection failed", rands)
    | (some randPort, rands) => stochasticLoop nodeUsed reserved ports (dynamic ++ [randPort]) rands

def getDynamicPortsStochastic (nodeUsed : Option Bitmap) (ask : NetworkResource)
    (rands : List Nat) : Except String (List Int) × List Nat :=
  stochasticLoop nodeUsed (ask.ReservedPorts.map (·.Value)) ask.DynamicPorts [] rands

/-- The first `numDyn` steps of a Fisher-Yates shuffle, each swapping position `i` with a random
one of the whole list. -/
def partialShuffle (numAvailable numDyn : Nat) (ports : List Nat) (rands : List Nat) :
    List Nat × List Nat :=
  (List.range numDyn).foldl (fun (acc : List Nat × List Nat) i =>
    let (j, rands) := Intn numAvailable acc.2
    (Heap.exchange acc.1 i j, rands)) (ports, rands)

def getDynamicPortsPrecise (nodeUsed : Option Bitmap) (ask : NetworkResource)
    (rands : List Nat) : Except String (List Int) × List Nat :=
  -- a copy of the used ports with the ask's reserved ports set
  let usedSet := nodeUsed.getD newPortBitmap
  let usedSet := ask.ReservedPorts.foldl (fun b port => b.Set port.Value.toNat) usedSet
  let availablePorts := usedSet.IndexesInRange false MinDynamicPort.toNat MaxDynamicPort.toNat
  let numDyn := ask.DynamicPorts.length
  if availablePorts.length < numDyn then (.error "dynamic port selection failed", rands)
  else
    let (availablePorts, rands) :=
      partialShuffle availablePorts.length numDyn availablePorts rands
    (.ok ((availablePorts.take numDyn).map Int.ofNat), rands)

/-- The stochastic pick, and the precise one when it fails (`goto BUILD_OFFER`). -/
def getDynamicPorts (nodeUsed : Option Bitmap) (ask : NetworkResource) (rands : List Nat) :
    Except String (List Int) × List Nat :=
  match getDynamicPortsStochastic nodeUsed ask rands with
  | (.ok dynPorts, rands) => (.ok dynPorts, rands)
  | (.error _, rands) => getDynamicPortsPrecise nodeUsed ask rands

-- ---------------------------------------------------------------------------
-- Assigning a network
-- ---------------------------------------------------------------------------

/-- `BUILD_OFFER`: the picked values in the ask's dynamic ports, a `To` of `-1` mapped to the
same port. -/
def buildDynamic (ports : List Port) (dynPorts : List Int) : List Port :=
  List.zipWith (fun port v => { port with Value := v, To := if port.To = -1 then v else port.To })
    ports dynPorts

def checkReserved (used : Option Bitmap) : List Port → Option String
  | [] => none
  | port :: ports =>
    if port.Value < 0 ∨ (maxValidPort : Int) ≤ port.Value then
      some ("invalid port " ++ toString port.Value ++ " (out of range)")
    else if portUsed used port.Value then some "reserved port collision"
    else checkReserved used ports

def offerAt (idx : NetworkIndex) (ask n : NetworkResource) (ipStr : String) (rands : List Nat) :
    Except String NetworkResource × List Nat :=
  let availBandwidth := lookupD idx.AvailBandwidth n.Device
  let usedBandwidth := lookupD idx.UsedBandwidth n.Device
  -- `usedBandwidth+ask.MBits` is an `int` sum
  if wrap64 (usedBandwidth + ask.MBits) > availBandwidth then (.error "bandwidth exceeded", rands)
  else
    let used := idx.UsedPorts.lookup ipStr
    match checkReserved used ask.ReservedPorts with
    | some err => (.error err, rands)
    | none =>
      let (dynPorts, rands) := getDynamicPorts used ask rands
      match dynPorts with
      | .error dynErr => (.error dynErr, rands)
      | .ok dynPorts =>
        let offer : NetworkResource :=
          { Mode := ask.Mode
            Device := n.Device
            IP := ipStr
            MBits := ask.MBits
            ReservedPorts := ask.ReservedPorts
            DynamicPorts := buildDynamic ask.DynamicPorts dynPorts }
        (.ok offer, rands)

def yieldIP (cidrIPs : String → List String) (nets : List NetworkResource) :
    List (NetworkResource × String) :=
  nets.flatMap fun n => (cidrIPs n.CIDR).map (n, ·)

def assignLoop (idx : NetworkIndex) (ask : NetworkResource) :
    List (NetworkResource × String) → String → List Nat → Except String NetworkResource
  | [], err, _ => .error err
  | (n, ipStr) :: rest, _, rands =>
    match offerAt idx ask n ipStr rands with
    | (.ok offer, _) => .ok offer
    | (.error err, rands) => assignLoop idx ask rest err rands

def NetworkIndex.AssignNetwork (idx : NetworkIndex) (cidrIPs : String → List String)
    (ask : NetworkResource) (rands : List Nat) : Except String NetworkResource :=
  assignLoop idx ask (yieldIP cidrIPs idx.AvailNetworks) "no networks available" rands

-- ---------------------------------------------------------------------------
-- What an offer holds
-- ---------------------------------------------------------------------------

/-- A port an offer may take as dynamic on an address: in the dynamic range, free there and not
one of the ask's reserved ports. -/
def FreeDynamic (used : Option Bitmap) (reserved : List Int) (p : Int) : Prop :=
  MinDynamicPort ≤ p ∧ p ≤ MaxDynamicPort ∧ portUsed used p = false ∧ p ∉ reserved

theorem Intn_lt (rands : List Nat) {n : Nat} (hn : 0 < n) : (Intn n rands).1 < n :=
  Nat.mod_lt _ hn

theorem isPortReserved_eq_false {haystack : List Int} {needle : Int} :
    isPortReserved haystack needle = false ↔ needle ∉ haystack := by
  simp only [isPortReserved, List.any_eq_false, beq_iff_eq]
  exact ⟨fun h hm => h _ hm rfl, fun h x hx hxe => h (hxe ▸ hx)⟩

theorem stochasticPick_spec {used : Option Bitmap} {reserved dynamic : List Int} :
    ∀ attempts rands p rands', stochasticPick used reserved dynamic attempts rands = (some p, rands') →
      FreeDynamic used reserved p ∧ p ∉ dynamic
  | 0, _, _, _, h => by simp [stochasticPick] at h
  | attempts + 1, rands, p, rands', h => by
    have hr := Intn_lt rands (show 0 < (MaxDynamicPort - MinDynamicPort).toNat by decide)
    unfold stochasticPick at h
    rw [show (MaxDynamicPort - MinDynamicPort).toNat = 12000 by decide] at hr h
    rcases hdraw : Intn 12000 rands with ⟨r, rands₁⟩
    rw [hdraw] at h hr
    simp only at h hr
    split_ifs at h with hused hres
    · exact stochasticPick_spec attempts _ p rands' h
    · exact stochasticPick_spec attempts _ p rands' h
    · -- the draw is free: it is the port returned
      obtain ⟨hp, -⟩ := Prod.mk.inj h
      obtain rfl := Option.some.inj hp
      simp only [Bool.or_eq_true, not_or, Bool.not_eq_true] at hres
      refine ⟨⟨by simp only [MinDynamicPort]; omega, by simp only [MinDynamicPort, MaxDynamicPort]; omega,
        by simpa using hused, isPortReserved_eq_false.mp hres.1⟩, isPortReserved_eq_false.mp hres.2⟩

/-- The stochastic loop picks one new port per dynamic port of the ask, each free and distinct from
the ones before it. -/
theorem stochasticLoop_spec {used : Option Bitmap} {reserved : List Int} :
    ∀ (ports : List Port) (dynamic : List Int) rands out rands',
      stochasticLoop used reserved ports dynamic rands = (.ok out, rands') →
      dynamic.Nodup → (∀ p ∈ dynamic, FreeDynamic used reserved p) →
      out.length = dynamic.length + ports.length ∧ out.Nodup ∧
        ∀ p ∈ out, FreeDynamic used reserved p
  | [], dynamic, rands, out, rands', h, hnd, hfree => by
    simp only [stochasticLoop, Prod.mk.injEq, Except.ok.injEq] at h
    obtain ⟨rfl, -⟩ := h
    exact ⟨by simp, hnd, hfree⟩
  | _ :: ports, dynamic, rands, out, rands', h, hnd, hfree => by
    simp only [stochasticLoop] at h
    rcases hpick : stochasticPick used reserved dynamic maxRandPortAttempts rands with
      ⟨_ | randPort, rands₁⟩
    · rw [hpick] at h
      simp at h
    · rw [hpick] at h
      obtain ⟨hnew, hnotin⟩ := stochasticPick_spec _ _ _ _ hpick
      have hnd' : (dynamic ++ [randPort]).Nodup := by
        rw [List.nodup_append]
        refine ⟨hnd, List.nodup_singleton _, fun a ha b hb => ?_⟩
        rw [List.mem_singleton] at hb
        subst hb
        exact fun hab => hnotin (hab ▸ ha)
      have hfree' : ∀ p ∈ dynamic ++ [randPort], FreeDynamic used reserved p := by
        intro p hp
        rcases List.mem_append.mp hp with hp | hp
        · exact hfree p hp
        · rw [List.mem_singleton.mp hp]
          exact hnew
      obtain ⟨hlen, hout⟩ := stochasticLoop_spec ports _ _ _ _ h hnd' hfree'
      refine ⟨?_, hout⟩
      rw [hlen, List.length_append, List.length_singleton, List.length_cons]
      omega

theorem partialShuffle_perm (numAvailable : Nat) :
    ∀ (is : List Nat) (acc : List Nat × List Nat),
      (is.foldl (fun (acc : List Nat × List Nat) i =>
        let (j, rands) := Intn numAvailable acc.2
        (Heap.exchange acc.1 i j, rands)) acc).1.Perm acc.1
  | [], _ => List.Perm.refl _
  | i :: is, acc => by
    rw [List.foldl_cons]
    exact (partialShuffle_perm numAvailable is _).trans (Heap.exchange_perm _ _ _)

/-- The precise pick takes distinct ports from the free ones of the range, one per dynamic port of
the ask. -/
theorem getDynamicPortsPrecise_spec {used : Option Bitmap} {ask : NetworkResource}
    {rands : List Nat} {out : List Int} {rands' : List Nat}
    (h : getDynamicPortsPrecise used ask rands = (.ok out, rands')) :
    out.length = ask.DynamicPorts.length ∧ out.Nodup ∧
      ∀ p ∈ out, FreeDynamic used (ask.ReservedPorts.map (·.Value)) p := by
  simp only [getDynamicPortsPrecise] at h
  -- the copy of the node's bitmap with the ask's reserved ports marked
  set base := used.getD newPortBitmap with hbase
  have hmarks : ask.ReservedPorts.foldl (fun b port => b.Set port.Value.toNat) base =
      (ask.ReservedPorts.map (·.Value.toNat)).foldl (fun b i => b.Set i) base := by
    rw [List.foldl_map]
  rw [hmarks] at h
  set usedSet := (ask.ReservedPorts.map (·.Value.toNat)).foldl (fun b i => b.Set i) base
    with husedSet
  set avail := usedSet.IndexesInRange false MinDynamicPort.toNat MaxDynamicPort.toNat
    with havail_def
  have havail : ∀ i ∈ avail, FreeDynamic used (ask.ReservedPorts.map (·.Value)) (i : Int) := by
    intro i hi
    obtain ⟨hhi, hsize, hlo, hfree⟩ := (Bitmap.mem_indexesInRange _).mp hi
    have hsize' : i < base.Size := by simpa [usedSet] using hsize
    rw [husedSet, Bitmap.check_foldl_set_of_lt base _ hsize', Bool.or_eq_false_iff] at hfree
    refine ⟨by simp [MinDynamicPort] at hlo ⊢; omega, by simp [MaxDynamicPort] at hhi ⊢; omega,
      ?_, fun hres => ?_⟩
    · -- free in the node's bitmap
      cases hu : used with
      | none => rfl
      | some b =>
        simp only [hbase, hu, Option.getD_some] at hfree
        simpa [portUsed] using hfree.2
    · -- a reserved port was marked in the copy
      obtain ⟨port, hport, hv⟩ := List.mem_map.mp hres
      have hmem : i ∈ ask.ReservedPorts.map (·.Value.toNat) :=
        List.mem_map.mpr ⟨port, hport, by simp [hv]⟩
      simp [hmem] at hfree
  split_ifs at h with hfew
  · simp at h
  · obtain ⟨hout, -⟩ := Prod.mk.inj h
    obtain rfl := (Except.ok.inj hout).symm
    have hperm : (partialShuffle avail.length ask.DynamicPorts.length avail rands).1.Perm avail :=
      partialShuffle_perm avail.length (List.range ask.DynamicPorts.length) (avail, rands)
    generalize (partialShuffle avail.length ask.DynamicPorts.length avail rands).1 = shuffled
      at hperm ⊢
    refine ⟨?_, ?_, fun p hp => ?_⟩
    · rw [List.length_map, List.length_take, hperm.length_eq]
      omega
    · exact ((hperm.nodup_iff.mpr (Bitmap.nodup_indexesInRange _ _ _ _)).sublist
        (List.take_sublist _ _)).map fun _ _ h => Int.ofNat.inj h
    · obtain ⟨i, hi, rfl⟩ := List.mem_map.mp hp
      exact havail i (hperm.subset (List.mem_of_mem_take hi))

theorem getDynamicPortsStochastic_spec {used : Option Bitmap} {ask : NetworkResource}
    {rands : List Nat} {out : List Int} {rands' : List Nat}
    (h : getDynamicPortsStochastic used ask rands = (.ok out, rands')) :
    out.length = ask.DynamicPorts.length ∧ out.Nodup ∧
      ∀ p ∈ out, FreeDynamic used (ask.ReservedPorts.map (·.Value)) p := by
  obtain ⟨hlen, hout⟩ := stochasticLoop_spec _ _ _ _ _ h List.nodup_nil
    (fun _ hp => absurd hp List.not_mem_nil)
  exact ⟨by simpa using hlen, hout⟩

/-- Whichever path picks them, the dynamic ports are distinct and free, one per dynamic port. -/
theorem getDynamicPorts_spec {used : Option Bitmap} {ask : NetworkResource}
    {rands : List Nat} {out : List Int} {rands' : List Nat}
    (h : getDynamicPorts used ask rands = (.ok out, rands')) :
    out.length = ask.DynamicPorts.length ∧ out.Nodup ∧
      ∀ p ∈ out, FreeDynamic used (ask.ReservedPorts.map (·.Value)) p := by
  unfold getDynamicPorts at h
  rcases hs : getDynamicPortsStochastic used ask rands with ⟨_ | dyn, rands₁⟩
  · -- the probes failed: the precise pick answers
    rw [hs] at h
    exact getDynamicPortsPrecise_spec h
  · rw [hs] at h
    obtain ⟨hdyn, -⟩ := Prod.mk.inj h
    obtain rfl := Except.ok.inj hdyn
    exact getDynamicPortsStochastic_spec hs

theorem checkReserved_eq_none {used : Option Bitmap} :
    ∀ {ports : List Port}, checkReserved used ports = none →
      ∀ p ∈ ports, 0 ≤ p.Value ∧ p.Value < maxValidPort ∧ portUsed used p.Value = false
  | [], _ => by simp
  | port :: ports, h => by
    unfold checkReserved at h
    split_ifs at h with hrange hused
    intro p hp
    rcases List.mem_cons.mp hp with rfl | hp
    · exact ⟨by omega, by omega, by simpa using hused⟩
    · exact checkReserved_eq_none h p hp

theorem buildDynamic_length {ports : List Port} {dyn : List Int} (h : dyn.length = ports.length) :
    (buildDynamic ports dyn).length = ports.length := by
  simp [buildDynamic, h]

theorem buildDynamic_values :
    ∀ {ports : List Port} {dyn : List Int}, dyn.length = ports.length →
      (buildDynamic ports dyn).map (·.Value) = dyn
  | [], [], _ => rfl
  | _ :: ports, v :: dyn, h => by
    have ih := @buildDynamic_values ports dyn (by simpa using h)
    simp only [buildDynamic, List.zipWith_cons_cons, List.map_cons] at ih ⊢
    rw [ih]

theorem offerAt_ok {idx : NetworkIndex} {ask n : NetworkResource} {ipStr : String}
    {rands : List Nat} {o : NetworkResource} {rands' : List Nat}
    (h : offerAt idx ask n ipStr rands = (.ok o, rands')) :
    ¬ wrap64 (lookupD idx.UsedBandwidth n.Device + ask.MBits) > lookupD idx.AvailBandwidth n.Device ∧
    checkReserved (idx.UsedPorts.lookup ipStr) ask.ReservedPorts = none ∧
    ∃ dyn rands₁, getDynamicPorts (idx.UsedPorts.lookup ipStr) ask rands = (.ok dyn, rands₁) ∧
      o = { Mode := ask.Mode, Device := n.Device, IP := ipStr, MBits := ask.MBits,
            ReservedPorts := ask.ReservedPorts,
            DynamicPorts := buildDynamic ask.DynamicPorts dyn } := by
  simp only [offerAt] at h
  split_ifs at h with hbw
  · simp at h
  refine ⟨hbw, ?_⟩
  rcases hc : checkReserved (idx.UsedPorts.lookup ipStr) ask.ReservedPorts with _ | err
  · rw [hc] at h
    rcases hg : getDynamicPorts (idx.UsedPorts.lookup ipStr) ask rands with ⟨_ | dyn, rands₁⟩
    · rw [hg] at h
      simp at h
    · rw [hg] at h
      obtain ⟨ho, -⟩ := Prod.mk.inj h
      exact ⟨rfl, dyn, rands₁, rfl, (Except.ok.inj ho).symm⟩
  · rw [hc] at h
    simp at h

theorem assignLoop_ok {idx : NetworkIndex} {ask : NetworkResource} :
    ∀ {l : List (NetworkResource × String)} {err : String} {rands : List Nat} {o : NetworkResource},
      assignLoop idx ask l err rands = .ok o →
      ∃ n ipStr rands₁ rands₂, (n, ipStr) ∈ l ∧ offerAt idx ask n ipStr rands₁ = (.ok o, rands₂)
  | [], _, _, _, h => by simp [assignLoop] at h
  | (n, ipStr) :: rest, _, rands, o, h => by
    unfold assignLoop at h
    rcases hoff : offerAt idx ask n ipStr rands with ⟨_ | offer, rands₁⟩
    · -- this address gave an error: the walk goes on
      rw [hoff] at h
      obtain ⟨n', ip', r₁, r₂, hmem, hoff'⟩ := assignLoop_ok h
      exact ⟨n', ip', r₁, r₂, List.mem_cons_of_mem _ hmem, hoff'⟩
    · rw [hoff] at h
      obtain rfl := Except.ok.inj h
      exact ⟨n, ipStr, rands, rands₁, List.mem_cons_self, hoff⟩

theorem mem_yieldIP {cidrIPs : String → List String} {nets : List NetworkResource}
    {n : NetworkResource} {ipStr : String} :
    (n, ipStr) ∈ yieldIP cidrIPs nets ↔ n ∈ nets ∧ ipStr ∈ cidrIPs n.CIDR := by
  simp only [yieldIP, List.mem_flatMap, List.mem_map, Prod.mk.injEq]
  constructor
  · rintro ⟨m, hm, ip, hip, rfl, rfl⟩
    exact ⟨hm, hip⟩
  · rintro ⟨hn, hip⟩
    exact ⟨n, hn, ipStr, hip, rfl, rfl⟩

/-- What an offer of `AssignNetwork` holds: it is at an address of an available network; the
device's bandwidth covers the ask where the `int` sum does not wrap; the ask's reserved ports are
valid and free on the address; and its dynamic ports are distinct, one per dynamic port of the
ask, each in the dynamic range, free on the address and not a reserved port of the ask. -/
structure OfferValid (idx : NetworkIndex) (cidrIPs : String → List String)
    (ask o : NetworkResource) : Prop where
  network : ∃ n ∈ idx.AvailNetworks, o.Device = n.Device ∧ o.IP ∈ cidrIPs n.CIDR
  mbits : o.MBits = ask.MBits
  reservedPorts : o.ReservedPorts = ask.ReservedPorts
  bandwidth : -2 ^ 63 ≤ lookupD idx.UsedBandwidth o.Device + ask.MBits →
    lookupD idx.UsedBandwidth o.Device + ask.MBits < 2 ^ 63 →
    lookupD idx.UsedBandwidth o.Device + ask.MBits ≤ lookupD idx.AvailBandwidth o.Device
  reserved_free : ∀ p ∈ ask.ReservedPorts,
    0 ≤ p.Value ∧ p.Value < maxValidPort ∧ portUsed (idx.UsedPorts.lookup o.IP) p.Value = false
  dynamic_length : o.DynamicPorts.length = ask.DynamicPorts.length
  dynamic_nodup : (o.DynamicPorts.map (·.Value)).Nodup
  dynamic_free : ∀ p ∈ o.DynamicPorts,
    FreeDynamic (idx.UsedPorts.lookup o.IP) (ask.ReservedPorts.map (·.Value)) p.Value

/-- Every offer `AssignNetwork` returns is valid, for every index, every ask and every outcome of
the random choices. -/
theorem assignNetwork_offer_valid (idx : NetworkIndex) (cidrIPs : String → List String)
    (ask : NetworkResource) (rands : List Nat) (o : NetworkResource)
    (h : idx.AssignNetwork cidrIPs ask rands = .ok o) : OfferValid idx cidrIPs ask o := by
  obtain ⟨n, ipStr, rands₁, rands₂, hmem, hoff⟩ := assignLoop_ok h
  obtain ⟨hbw, hres, dyn, rands₃, hdyn, rfl⟩ := offerAt_ok hoff
  obtain ⟨hlen, hnd, hfree⟩ := getDynamicPorts_spec hdyn
  have hvalues := buildDynamic_values hlen
  refine ⟨⟨n, (mem_yieldIP.mp hmem).1, rfl, (mem_yieldIP.mp hmem).2⟩, rfl, rfl,
    fun h0 h1 => ?_, checkReserved_eq_none hres, buildDynamic_length hlen, ?_, fun p hp => ?_⟩
  · -- without a wrap the checked sum is the sum
    rw [wrap64_of_mem h0 h1] at hbw
    exact Int.not_lt.mp hbw
  · simpa only [hvalues] using hnd
  · exact hfree p.Value (hvalues ▸ List.mem_map_of_mem hp)

/-- One dynamic port on an address nothing uses: the first draw, `5`, gives port `20005`, mapped
to itself. -/
theorem assignNetwork_offer_valid_dynamic :
    let idx : NetworkIndex :=
      { AvailNetworks := [{ Device := "eth0", CIDR := "10.0.0.0/32", MBits := 1000 }]
        AvailBandwidth := (∅ : Map String Int).insert "eth0" 1000 }
    let ask : NetworkResource := { MBits := 10, DynamicPorts := [{ Label := "http", Value := 0, To := -1 }] }
    let o : NetworkResource :=
      { Device := "eth0", IP := "10.0.0.0", MBits := 10
        DynamicPorts := [{ Label := "http", Value := 20005, To := 20005 }] }
    idx.AssignNetwork (fun _ => ["10.0.0.0"]) ask [5] = .ok o ∧
      OfferValid idx (fun _ => ["10.0.0.0"]) ask o := by
  intro idx ask o
  have h : idx.AssignNetwork (fun _ => ["10.0.0.0"]) ask [5] = .ok o := by rfl
  exact ⟨h, assignNetwork_offer_valid idx _ ask [5] o h⟩

/-- The bandwidth check sums in `int`: on a device of 1000 MBits with one in use, an ask of
`2^63 - 1` MBits wraps the sum to `-2^63` and is offered the device. -/
theorem assignNetwork_overcommits_bandwidth :
    let node : Node :=
      { Status := .ready
        NodeResources := some { Networks := [{ Device := "eth0", CIDR := "10.0.0.0/32", MBits := 1000 }] } }
    let reserved : NetworkResource := { Device := "eth0", IP := "10.0.0.0", MBits := 1 }
    let ask : NetworkResource := { MBits := 2 ^ 63 - 1 }
    ∃ idx o, (NewNetworkIndex.SetNode .stored 0 node).map (fun r => (r.1.AddReserved reserved).1) =
        some idx ∧
      idx.AssignNetwork (fun _ => ["10.0.0.0"]) ask [] = .ok o ∧
      lookupD idx.AvailBandwidth o.Device < lookupD idx.UsedBandwidth o.Device + ask.MBits := by
  intro node reserved ask
  refine ⟨_, _, rfl, rfl, ?_⟩
  decide

end Nomad.Structs
