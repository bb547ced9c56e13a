import Nomad.Structs.Alloc

/-!
# Plans

`nomad/structs/structs.go`: a scheduler's plan lists, per node, the allocations it stops
(`NodeUpdate`), those it places or updates (`NodeAllocation`) and those it preempts
(`NodePreemptions`). The `Append*` methods add to a node's list at its end; `PopUpdate` takes
back the last stop of a node when it is the given allocation's.
-/

namespace Nomad.Structs

open Container

structure Plan where
  NodeUpdate : Map String (List Allocation) := ∅
  NodeAllocation : Map String (List Allocation) := ∅
  NodePreemptions : Map String (List Allocation) := ∅
  deriving DecidableEq, Repr

namespace Plan

variable (p : Plan)

def appendTo (m : Map String (List Allocation)) (node : String) (alloc : Allocation) :
    Map String (List Allocation) :=
  m.insert node (((m.lookup node).getD []) ++ [alloc])

/-- `AppendStoppedAlloc`: the allocation, told to stop, with the client status if one is
given. -/
def AppendStoppedAlloc (alloc : Allocation) (desiredDesc : String)
    (clientStatus : Option AllocClientStatus) : Plan :=
  let newAlloc := { alloc with
    DesiredStatus := .stop
    DesiredDescription := desiredDesc
    ClientStatus := clientStatus.getD alloc.ClientStatus }
  { p with NodeUpdate := appendTo p.NodeUpdate alloc.NodeID newAlloc }

def AppendAlloc (alloc : Allocation) : Plan :=
  { p with NodeAllocation := appendTo p.NodeAllocation alloc.NodeID alloc }

def PopUpdate (alloc : Allocation) : Plan :=
  match p.NodeUpdate.lookup alloc.NodeID with
  | some existing =>
    if existing.getLast?.map (·.ID) = some alloc.ID then
      if existing.dropLast ≠ [] then
        { p with NodeUpdate := p.NodeUpdate.insert alloc.NodeID existing.dropLast }
      else { p with NodeUpdate := p.NodeUpdate.erase alloc.NodeID }
    else p
  | none => p

end Plan

end Nomad.Structs
