import Mathlib
import Nomad.Go.Uint
import Nomad.Structs.Alloc
import Nomad.Structs.Bitmap

/-!
# `scheduler/reconcile_util.go`

The reconciler's placement results, its `allocSet` operations and the name index.

An `allocSet` is a Go map from allocation ID to allocation. The model keeps its values as a
list whose IDs are distinct, and ranging over the map follows the list. Go ranges over a map
in an order it picks at random; a statement about every input list covers each order once,
which is every order the filters below can produce from it.

A filter that ranges over a set and sorts each allocation into one of several result sets is
written as a classifier of one allocation (`taintOf`, `rescheduleOf`) and one `List.filter`
per result set.
-/

namespace Nomad.Scheduler

open Go Structs Container

def rescheduleWindowSize : Duration := 1000000000

def batchedFailedAllocWindowSize : Duration := 5000000000

-- ---------------------------------------------------------------------------
-- Results
-- ---------------------------------------------------------------------------

/-- `allocStopResult`; the empty `clientStatus` is `none`. -/
structure allocStopResult where
  alloc : Allocation
  clientStatus : Option AllocClientStatus
  statusDescription : String
  deriving DecidableEq, Repr

structure allocPlaceResult where
  name : Nat
  canary : Bool
  taskGroup : TaskGroup
  previousAlloc : Option Allocation
  reschedule : Bool
  deriving DecidableEq, Repr

def allocPlaceResult.PreviousAllocation (p : allocPlaceResult) : Option Allocation :=
  p.previousAlloc

def allocPlaceResult.IsRescheduling (p : allocPlaceResult) : Bool := p.reschedule

structure allocDestructiveResult where
  placeName : Nat
  placeTaskGroup : TaskGroup
  stopAlloc : Allocation
  stopStatusDescription : String
  deriving DecidableEq, Repr

structure delayedRescheduleInfo where
  allocID : String
  alloc : Allocation
  rescheduleTime : Time
  deriving DecidableEq, Repr

-- ---------------------------------------------------------------------------
-- Allocation sets
-- ---------------------------------------------------------------------------

/-- `allocSet`, as the list of the map's values. -/
abbrev allocSet := List Allocation

namespace allocSet

variable (s : allocSet)

def contains (id : String) : Bool := s.any (·.ID == id)

def insert (x : Allocation) : allocSet :=
  if s.contains x.ID then s.map fun y => if y.ID = x.ID then x else y else s ++ [x]

def erase (id : String) : allocSet := s.filter (·.ID != id)

def nameSet : List Nat := s.map (·.Name)

/-- `nameOrder`: sorted by `Index`; Go's `sort.Slice` leaves ties in an order of its own. -/
def nameOrder : List Allocation := s.insertionSort fun x y => x.Index ≤ y.Index

def difference (others : List allocSet) : allocSet :=
  s.filter fun x => others.all fun o => !o.contains x.ID

/-- `union`: the later set wins on a shared ID. -/
def union (others : List allocSet) : allocSet :=
  (s :: others).foldl (fun u o => o.foldl allocSet.insert u) []

def fromKeys (keys : List (List String)) : allocSet :=
  s.filter fun x => keys.any fun ks => ks.contains x.ID

end allocSet

inductive taintClass where
  | untainted | migrate | lost
  deriving DecidableEq, Repr

def taintOf (nodes : Map String (Option Node)) (alloc : Allocation) : taintClass :=
  if alloc.TerminalStatus then .untainted
  else if alloc.DesiredTransition.ShouldMigrate then .migrate
  else
    match nodes.lookup alloc.NodeID with
    | none => .untainted
    | some none => .lost
    | some (some n) => if n.TerminalStatus then .lost else .untainted

def filterByTainted (s : allocSet) (nodes : Map String (Option Node)) :
    allocSet × allocSet × allocSet :=
  (s.filter (taintOf nodes · == .untainted), s.filter (taintOf nodes · == .migrate),
    s.filter (taintOf nodes · == .lost))

def shouldFilter (alloc : Allocation) (isBatch : Bool) : Bool × Bool :=
  if isBatch then
    match alloc.DesiredStatus with
    | .stop | .evict => if alloc.RanSuccessfully then (true, false) else (false, true)
    | .run =>
      match alloc.ClientStatus with
      | .failed => (false, false)
      | _ => (true, false)
  else
    match alloc.DesiredStatus with
    | .stop | .evict => (false, true)
    | .run =>
      match alloc.ClientStatus with
      | .complete | .lost => (false, true)
      | _ => (false, false)

def updateByReschedulable (alloc : Allocation) (now : Time) (evalID : String)
    (d : Option Deployment) : Bool × Bool × Time :=
  let blocked := match d with
    | some d => alloc.DeploymentID = d.ID && d.Active && !alloc.DesiredTransition.ShouldReschedule
    | none => false
  if blocked then (false, false, ⟨0⟩)
  else
    let rescheduleNow := alloc.DesiredTransition.ShouldForceReschedule
    let (rescheduleTime, eligible) := alloc.NextRescheduleTime
    if eligible && (alloc.FollowupEvalID == evalID ||
        decide (rescheduleTime.Sub now ≤ rescheduleWindowSize)) then (true, false, rescheduleTime)
    else (rescheduleNow, eligible && alloc.FollowupEvalID == "", rescheduleTime)

inductive rescheduleClass where
  | skip
  | untainted
  | later (rescheduleTime : Time)
  | now
  deriving DecidableEq, Repr

def rescheduleOf (isBatch : Bool) (now : Time) (evalID : String) (d : Option Deployment)
    (alloc : Allocation) : rescheduleClass :=
  if alloc.NextAllocation ≠ "" then .skip
  else
    let (isUntainted, ignore) := shouldFilter alloc isBatch
    if isUntainted then .untainted
    else if ignore then .skip
    else
      let (eligibleNow, eligibleLater, rescheduleTime) := updateByReschedulable alloc now evalID d
      if eligibleNow then .now
      else if eligibleLater then .later rescheduleTime
      else .untainted

def rescheduleClass.isUntainted : rescheduleClass → Bool
  | .untainted | .later _ => true
  | _ => false

def rescheduleClass.laterTime : rescheduleClass → Option Time
  | .later t => some t
  | _ => none

def filterByRescheduleable (s : allocSet) (isBatch : Bool) (now : Time) (evalID : String)
    (d : Option Deployment) : allocSet × allocSet × List delayedRescheduleInfo :=
  let cls := rescheduleOf isBatch now evalID d
  (s.filter fun a => (cls a).isUntainted, s.filter fun a => cls a == .now,
    s.filterMap fun a => (cls a).laterTime.map fun t => ⟨a.ID, a, t⟩)

def filterByTerminal (s : allocSet) : allocSet := s.filter fun a => !a.TerminalStatus

def filterByDeployment (s : allocSet) (id : String) : allocSet × allocSet :=
  (s.filter (·.DeploymentID == id), s.filter (·.DeploymentID != id))

-- ---------------------------------------------------------------------------
-- The name index
-- ---------------------------------------------------------------------------

/-- `bitmapFrom`: a bitmap of the set's indexes, at least `minSize` and `len(input)` long,
rounded up to whole bytes and one past a byte-aligned largest index. -/
def bitmapFrom (input : allocSet) (minSize : Nat) : Bitmap :=
  let max := input.foldl (fun m a => if m < a.Index then a.Index else m) 0
  let minSize := if minSize < input.length then input.length else minSize
  let max := if max < minSize then minSize else if max % 8 = 0 then max + 1 else max
  let max := if max = 0 then 8 else max
  let max := if max % 8 ≠ 0 then max + 8 - max % 8 else max
  match NewBitmap max with
  | .ok bitmap => input.foldl (fun b a => b.Set a.Index) bitmap
  | .error _ => ⟨[]⟩

/-- `bitmapFrom` as Go runs it, on `uint`: the additions of the size wrap at `2^64`, a size that
wraps to 0 fails `NewBitmap` and the code panics, and a `Set` past the bitmap panics. -/
def bitmapFromUint (input : allocSet) (minSize : Nat) : Outcome Bitmap :=
  let max := input.foldl (fun m a => if m < a.Index then a.Index else m) 0
  let minSize := if minSize < input.length then input.length else minSize
  let max := if max < minSize then minSize else if max % 8 = 0 then (max + 1) % 2 ^ 64 else max
  let max := if max = 0 then 8 else max
  let max := if max % 8 ≠ 0 then (max + 8 - max % 8) % 2 ^ 64 else max
  match NewBitmap max with
  | .ok bitmap => input.foldl (fun acc a => acc.bind (·.SetOrPanic a.Index)) (.ok bitmap)
  | .error _ => .panic

structure allocNameIndex where
  job : String
  taskGroup : String
  count : Int
  b : Bitmap
  deriving DecidableEq, Repr

def newAllocNameIndex (job taskGroup : String) (count : Int) (input : allocSet) : allocNameIndex :=
  ⟨job, taskGroup, count, bitmapFrom input (toUint count)⟩

namespace allocNameIndex

variable (a : allocNameIndex)

def highestLoop (n : Nat) : Nat → Bitmap → List Nat → Bitmap × List Nat
  | 0, b, h => (b, h)
  | i + 1, b, h =>
    if h.length < n then
      if b.Check i then highestLoop n i (b.Unset i) (h ++ [AllocName a.job a.taskGroup i])
      else highestLoop n i b h
    else (b, h)

def Highest (n : Nat) : allocNameIndex × List Nat :=
  let r := a.highestLoop n a.b.Size a.b []
  ({ a with b := r.1 }, r.2)

def Set (s : allocSet) : allocNameIndex := { a with b := s.foldl (fun b x => b.Set x.Index) a.b }

def Unset (s : allocSet) : allocNameIndex :=
  { a with b := s.foldl (fun b x => b.Unset x.Index) a.b }

def UnsetIndex (idx : Nat) : allocNameIndex := { a with b := a.b.Unset idx }

/-- One of the loops of `Next` and `NextCanaries`: take the names of `idxs` not in `existing`,
setting their bits, and return (`.inl`) as soon as `n` names are taken. The `Nat` is the
`remainder` the loop leaves. -/
def pickLoop (n : Nat) (existing : List Nat) :
    List Nat → Bitmap → List Nat → Nat → (List Nat × Bitmap) ⊕ (Bitmap × List Nat × Nat)
  | [], b, next, remainder => .inr (b, next, remainder)
  | idx :: idxs, b, next, remainder =>
    let name := AllocName a.job a.taskGroup idx
    if name ∈ existing then pickLoop n existing idxs b next remainder
    else
      let next := next ++ [name]
      let b := b.Set idx
      let remainder := uintSub n next.length
      if remainder = 0 then .inl (next, b) else pickLoop n existing idxs b next remainder

/-- `NextCanaries`: names for `n` canaries, first those of destructive updates, then unused
ones, then from `count` up. -/
def NextCanaries (n : Nat) (existing destructive : allocSet) : allocNameIndex × List Nat :=
  let existingNames := existing.nameSet
  let hi := uintSub (toUint a.count) 1
  let dmap := bitmapFrom destructive (toUint a.count)
  match a.pickLoop n existingNames (dmap.IndexesInRange true 0 hi) a.b [] n with
  | .inl (next, b) => ({ a with b := b }, next)
  | .inr (b, next, remainder) =>
    match a.pickLoop n existingNames (b.IndexesInRange false 0 hi) b next remainder with
    | .inl (next, b) => ({ a with b := b }, next)
    | .inr (b, next, remainder) =>
      ({ a with b := b },
        next ++ (List.range remainder).map fun i => AllocName a.job a.taskGroup (toUint a.count + i))

/-- `Next`: names for `n` placements, the unused ones first, then overlapping from 0. -/
def Next (n : Nat) : allocNameIndex × List Nat :=
  let hi := uintSub (toUint a.count) 1
  match a.pickLoop n [] (a.b.IndexesInRange false 0 hi) a.b [] n with
  | .inl (next, b) => ({ a with b := b }, next)
  | .inr (b, next, remainder) =>
    ({ a with b := (List.range remainder).foldl (fun b i => b.Set i) b },
      next ++ (List.range remainder).map fun i => AllocName a.job a.taskGroup i)

end allocNameIndex

end Nomad.Scheduler
