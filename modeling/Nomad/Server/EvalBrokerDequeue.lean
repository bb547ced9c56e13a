import Nomad.Server.EvalBrokerInvariant

/-!
# Which evaluation `Dequeue` serves

`scanForSchedulers` ranks the listed schedulers by the priority of `PendingEvaluations.Peek`,
which reads the last element of the queue's slice, and then `dequeueForSched` takes the heap's
root with `heap.Pop`. The last element of a heap is in general one of its lowest entries, so a
queue whose root has the highest priority of all can lose the comparison to a queue whose only
evaluation has a lower one.
-/

namespace Nomad.Server

open Go Structs Container

def readyEval (id jobID type : String) (priority : Int) (createIndex : Nat) : Evaluation :=
  { ID := id
    Namespace := "default"
    Priority := priority
    «Type» := type
    JobID := jobID
    Wait := 0
    WaitUntil := ⟨0⟩
    CreateIndex := createIndex }

/-- Two service evaluations, of priority 100 and 10, and one batch evaluation of priority 50. -/
def peekTrace : List Action :=
  [.Enqueue (readyEval "e1" "j1" "service" 100 1), .Enqueue (readyEval "e2" "j2" "service" 10 2),
   .Enqueue (readyEval "e3" "j3" "batch" 50 3)]

/-- After `peekTrace`, a dequeue for both schedulers returns the batch evaluation of priority 50
while the service evaluation of priority 100 stays ready. -/
theorem scanForSchedulers_serves_lower_priority :
    let b := run (NewEvalBroker 3 0 0) peekTrace
    (b.scanForSchedulers ["service", "batch"] 0 "t").2 =
        .ok (some (readyEval "e3" "j3" "batch" 50 3, "t")) ∧
      readyEval "e1" "j1" "service" 100 1 ∈ (b.ready.lookup "service").getD [] ∧
      (readyEval "e3" "j3" "batch" 50 3).Priority < (readyEval "e1" "j1" "service" 100 1).Priority := by
  decide

end Nomad.Server
