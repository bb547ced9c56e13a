import Nomad.Container.Heap
import Nomad.Container.Map
import Nomad.Lib.DelayHeap
import Nomad.Structs.Types

/-!
# The evaluation broker

`EvalBroker` of `nomad/eval_broker.go`, as a state and the functions that run with its lock
held. Each public entry point (`Enqueue`, `EnqueueAll`, `Dequeue`, `Ack`, `Nack`,
`OutstandingReset`) and each timer callback (a nack timer runs `Nack`, a wait timer runs
`enqueueWaiting`, the delayed-evaluation watcher releases the eval it peeked) is one `Action`
and one `step`.

What the model leaves to the environment is passed in: the token `uuid.Generate` returns, the
index `rand.Intn` picks among equally good schedulers, and whether `Timer.Stop` or
`Timer.Reset` found the timer still pending. The stats counters, the `waiting` channels and the
watcher's update channel are written by this code and read by none of it; they are left out.
-/

namespace Nomad.Server

open Go Structs Container Lib

def failedQueue : String := "_failed"

abbrev PendingEvaluations := List Evaluation

/-- `PendingEvaluations.Less`: higher priority first across jobs, then lower `CreateIndex`. -/
def PendingEvaluations.Less (a b : Evaluation) : Bool :=
  if a.JobID ≠ b.JobID ∧ a.Priority ≠ b.Priority then !(a.Priority < b.Priority)
  else a.CreateIndex < b.CreateIndex

/-- `PendingEvaluations` as a `heap.Interface`: `Push` appends and `Pop` removes the last. -/
def pendingHeap : Heap.Interface PendingEvaluations Evaluation :=
  Heap.sliceInterface PendingEvaluations.Less

def PendingEvaluations.Peek (p : PendingEvaluations) : Option Evaluation := p.getLast?

/-- `evalWrapper`'s `ID()` and `Namespace()`: the key of an evaluation in the delay heap. -/
def evalKey (e : Evaluation) : NamespacedID := ⟨e.ID, e.Namespace⟩

structure unackEval where
  Eval : Evaluation
  Token : String
  deriving DecidableEq, Repr

structure EvalBroker where
  deliveryLimit : Int
  enabled : Bool
  evals : Map String Int
  jobEvals : Map NamespacedID String
  blocked : Map NamespacedID PendingEvaluations
  ready : Map String PendingEvaluations
  unack : Map String unackEval
  requeue : Map String Evaluation
  /-- The evaluation each pending wait timer enqueues when it fires. -/
  timeWait : Map String Evaluation
  delayHeap : DelayHeap Evaluation
  initialNackDelay : Duration
  subsequentNackDelay : Duration

/-- `NewEvalBroker` followed by `SetEnabled(true)`. -/
def NewEvalBroker (deliveryLimit : Int) (initialNackDelay subsequentNackDelay : Duration) :
    EvalBroker where
  deliveryLimit := deliveryLimit
  enabled := true
  evals := ∅
  jobEvals := ∅
  blocked := ∅
  ready := ∅
  unack := ∅
  requeue := ∅
  timeWait := ∅
  delayHeap := DelayHeap.NewDelayHeap
  initialNackDelay := initialNackDelay
  subsequentNackDelay := subsequentNackDelay

namespace EvalBroker

variable (b : EvalBroker)

/-- The tail of `enqueueLocked`: push onto the scheduler's ready heap, which starts empty. -/
def pushReady (eval : Evaluation) (queue : String) : EvalBroker :=
  let pending := (b.ready.lookup queue).getD []
  { b with ready := b.ready.insert queue (Heap.Push pendingHeap pending eval) }

def pushBlocked (eval : Evaluation) : EvalBroker :=
  let blocked := (b.blocked.lookup eval.namespacedID).getD []
  { b with blocked := b.blocked.insert eval.namespacedID (Heap.Push pendingHeap blocked eval) }

/-- `enqueueLocked`: put the evaluation in its scheduler's ready queue if no other evaluation
of its job is pending, else in the job's blocked queue. A missing `jobEvals` entry reads as
`""`, Go's zero string. -/
def enqueueLocked (eval : Evaluation) (queue : String) : EvalBroker :=
  if !b.enabled then b
  else
    let namespacedID := eval.namespacedID
    let pendingEval := (b.jobEvals.lookup namespacedID).getD ""
    if pendingEval = "" then
      { b with jobEvals := b.jobEvals.insert namespacedID eval.ID }.pushReady eval queue
    else if pendingEval ≠ eval.ID then b.pushBlocked eval
    else b.pushReady eval queue

def processWaitingEnqueue (eval : Evaluation) : EvalBroker :=
  { b with timeWait := b.timeWait.insert eval.ID eval }

def enqueueWaiting (eval : Evaluation) : EvalBroker :=
  enqueueLocked { b with timeWait := b.timeWait.erase eval.ID } eval eval.«Type»

/-- `processEnqueue`: drop an evaluation already tracked, or record it as a requeue of the
outstanding one when the token matches; otherwise track it and start its wait, its delay, or
enqueue it. -/
def processEnqueue (eval : Evaluation) (token : String) : EvalBroker :=
  if !b.enabled then b
  else if eval.ID ∈ b.evals then
    if token = "" then b
    else
      match b.unack.lookup eval.ID with
      | some unack => if unack.Token = token then { b with requeue := b.requeue.insert token eval } else b
      | none => b
  else
    let b := { b with evals := b.evals.insert eval.ID 0 }
    if 0 < eval.Wait then b.processWaitingEnqueue eval
    else if !eval.WaitUntil.IsZero then
      match b.delayHeap.Push evalKey eval eval.WaitUntil with
      | .ok d => { b with delayHeap := d }
      | .error _ => b
    else b.enqueueLocked eval eval.«Type»

def Enqueue (eval : Evaluation) : EvalBroker := b.processEnqueue eval ""

/-- `EnqueueAll`, ranging over the map's entries in the order given. -/
def EnqueueAll (evals : List (Evaluation × String)) : EvalBroker :=
  evals.foldl (fun b p => b.processEnqueue p.1 p.2) b

def eligible (schedulers : List String) : List String × Int :=
  schedulers.foldl (fun (acc : List String × Int) sched =>
    match b.ready.lookup sched with
    | none => acc
    | some pending =>
      match pending.Peek with
      | none => acc
      | some ready =>
        if acc.1.length = 0 ∨ ready.Priority > acc.2 then ([sched], ready.Priority)
        else if acc.2 > ready.Priority then acc
        else (acc.1 ++ [sched], acc.2)) ([], 0)

def dequeueForSched (sched token : String) : EvalBroker × Option (Evaluation × String) :=
  let pending := (b.ready.lookup sched).getD []
  match Heap.Pop pendingHeap pending with
  | (pending, some eval) =>
    ({ b with
        ready := b.ready.insert sched pending
        unack := b.unack.insert eval.ID ⟨eval, token⟩
        evals := b.evals.insert eval.ID ((b.evals.lookup eval.ID).getD 0 + 1) },
      some (eval, token))
  | (_, none) => (b, none)

/-- `scanForSchedulers`; `offset` stands for `rand.Intn(n)` and is taken modulo `n`. -/
def scanForSchedulers (schedulers : List String) (offset : Nat) (token : String) :
    EvalBroker × Except String (Option (Evaluation × String)) :=
  if !b.enabled then (b, .error "eval broker disabled")
  else
    let eligibleSched := (b.eligible schedulers).1
    match eligibleSched with
    | [] => (b, .ok none)
    | [sched] =>
      let r := b.dequeueForSched sched token
      (r.1, .ok r.2)
    | _ =>
      let r := b.dequeueForSched (eligibleSched.getD (offset % eligibleSched.length) "") token
      (r.1, .ok r.2)

def unblock (namespacedID : NamespacedID) : EvalBroker :=
  match b.blocked.lookup namespacedID with
  | some blocked =>
    if blocked.length ≠ 0 then
      match Heap.Pop pendingHeap blocked with
      | (blocked, some eval) =>
        let b := { b with
          blocked := if 0 < blocked.length then b.blocked.insert namespacedID blocked
            else b.blocked.erase namespacedID }
        b.enqueueLocked eval eval.«Type»
      | (_, none) => b
    else b
  | none => b

/-- `Ack`; `stopped` is what `unack.NackTimer.Stop()` returns. The deferred delete of the
requeue entry runs last. -/
def Ack (evalID token : String) (stopped : Bool) : EvalBroker × Except String Unit :=
  let done (b : EvalBroker) := { b with requeue := b.requeue.erase token }
  match b.unack.lookup evalID with
  | none => (done b, .error "Evaluation ID not found")
  | some unack =>
    if unack.Token ≠ token then (done b, .error "Token does not match for Evaluation ID")
    else if !stopped then (done b, .error "Evaluation ID Ack'd after Nack timer expiration")
    else
      let namespacedID := unack.Eval.namespacedID
      let b1 := { b with
        unack := b.unack.erase evalID
        evals := b.evals.erase evalID
        jobEvals := b.jobEvals.erase namespacedID }
      let b2 := b1.unblock namespacedID
      let b3 :=
        match b2.requeue.lookup token with
        | some eval => b2.processEnqueue eval ""
        | none => b2
      (done b3, .ok ())

def nackReenqueueDelay (prevDequeues : Int) : Duration :=
  if prevDequeues ≤ 0 then 0
  else if prevDequeues = 1 then b.initialNackDelay
  else wrap64 ((prevDequeues - 1) * b.subsequentNackDelay)

def Nack (evalID token : String) : EvalBroker × Except String Unit :=
  let b0 := { b with requeue := b.requeue.erase token }
  match b0.unack.lookup evalID with
  | none => (b0, .error "Evaluation ID not found")
  | some unack =>
    if unack.Token ≠ token then (b0, .error "Token does not match for Evaluation ID")
    else
      let b1 := { b0 with unack := b0.unack.erase evalID }
      let dequeues := (b1.evals.lookup evalID).getD 0
      if b.deliveryLimit ≤ dequeues then (b1.enqueueLocked unack.Eval failedQueue, .ok ())
      else
        let e := { unack.Eval with Wait := b.nackReenqueueDelay dequeues }
        if 0 < e.Wait then (b1.processWaitingEnqueue e, .ok ())
        else (b1.enqueueLocked e e.«Type», .ok ())

/-- `OutstandingReset`; `reset` is what `NackTimer.Reset` returns. It changes no state. -/
def OutstandingReset (evalID token : String) (reset : Bool) : Except String Unit :=
  match b.unack.lookup evalID with
  | none => .error "evaluation is not outstanding"
  | some unack =>
    if unack.Token ≠ token then .error "evaluation token does not match"
    else if !reset then .error "evaluation nack timeout reached"
    else .ok ()

/-- The timer case of `runDelayedEvalsWatcher`: remove the evaluation it peeked from the delay
heap and enqueue it. -/
def releaseDelayed (eval : Evaluation) : EvalBroker :=
  let delayHeap :=
    match b.delayHeap.Remove evalKey eval with
    | .ok d => d
    | .error _ => b.delayHeap
  { b with delayHeap := delayHeap }.enqueueLocked eval eval.«Type»

end EvalBroker

/-- One call into the broker, or one timer firing. -/
inductive Action where
  | Enqueue (eval : Evaluation)
  | EnqueueAll (evals : List (Evaluation × String))
  | Dequeue (schedulers : List String) (offset : Nat) (token : String)
  | Ack (evalID token : String) (stopped : Bool)
  | Nack (evalID token : String)
  | OutstandingReset (evalID token : String) (reset : Bool)
  | WaitExpired (evalID : String)
  | DelayExpired (eval : Evaluation)

/-- A timer fires only for an entry it was started for: a wait timer for an evaluation in
`timeWait`, the watcher's timer for an evaluation in the delay heap. -/
def step (b : EvalBroker) : Action → EvalBroker
  | .Enqueue eval => b.Enqueue eval
  | .EnqueueAll evals => b.EnqueueAll evals
  | .Dequeue schedulers offset token => (b.scanForSchedulers schedulers offset token).1
  | .Ack evalID token stopped => (b.Ack evalID token stopped).1
  | .Nack evalID token => (b.Nack evalID token).1
  | .OutstandingReset _ _ _ => b
  | .WaitExpired evalID =>
    match b.timeWait.lookup evalID with
    | some eval => b.enqueueWaiting eval
    | none => b
  | .DelayExpired eval =>
    if eval ∈ b.delayHeap.heap.map (·.Node) then b.releaseDelayed eval else b

def run (b : EvalBroker) (actions : List Action) : EvalBroker := actions.foldl step b

end Nomad.Server
