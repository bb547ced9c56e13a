import Nomad.Go.Time
import Nomad.Container.Map

/-!
# The `structs` data model

The records of `nomad/structs` that the modelled code reads, with the fields it reads. Strings
stay strings where the code compares them (IDs, names, statuses held as constants); the status
constants are written under the source's names.
-/

namespace Nomad.Structs

open Go

structure NamespacedID where
  ID : String
  Namespace : String
  deriving DecidableEq, Repr, Inhabited

/-- `structs.Evaluation`, with the fields the eval broker and the blocked-evals tracker read and
the reconciler writes. -/
structure Evaluation where
  ID : String
  Namespace : String
  Priority : Int
  «Type» : String
  JobID : String
  Wait : Duration
  WaitUntil : Time
  CreateIndex : Nat
  TriggeredBy : String := ""
  JobModifyIndex : Nat := 0
  Status : String := ""
  StatusDescription : String := ""
  ModifyIndex : Nat := 0
  NodeID : String := ""
  ClassEligibility : Container.Map String Bool := ∅
  QuotaLimitReached : String := ""
  EscapedComputedClass : Bool := false
  SnapshotIndex : Nat := 0
  QueuedAllocations : Container.Map String Int := ∅
  /-- The task groups of `FailedTGAllocs`; only whether there are any is read. -/
  FailedTGAllocs : List String := []
  deriving DecidableEq, Repr, Inhabited

/-- The key the broker serializes an evaluation under: its job. -/
def Evaluation.namespacedID (e : Evaluation) : NamespacedID := ⟨e.JobID, e.Namespace⟩

end Nomad.Structs
