import Nomad.Structs.Alloc

/-!
# Feasibility checking cached by computed node class

`FeasibilityWrapper.Next` of `scheduler/feasible.go` and the `EvalEligibility` tracker of
`scheduler/context.go`. The wrapper runs the job checkers, then the task-group checkers, then the
availability checkers on each node of its source, and records per computed class whether the
job and the task group were eligible, so that later nodes of a class skip the checks. The
checkers are the `FeasibilityChecker` interface, a function of the node; the source iterator is
the list of nodes it has left, and the evaluation's eligibility tracker is passed along.

Under the assumption the cache is built on, that the job and task-group checkers answer alike on
nodes of one class, the nodes `Next` yields before `nil` are a prefix of the nodes that pass all
checkers, in source order, and all of them when every node passes the availability checks
(`yields_feasible_prefix`). The prefix can be short: on the eligible fast path an unavailable node
ends the scan instead of being skipped (`next_stops_at_unavailable_node`).
-/

namespace Nomad.Scheduler

open Nomad.Structs Container

inductive ComputedClassFeasibility where
  | EvalComputedClassUnknown
  | EvalComputedClassIneligible
  | EvalComputedClassEligible
  | EvalComputedClassEscaped
  deriving DecidableEq, Repr

open ComputedClassFeasibility

/-- The eligibility of computed classes over one evaluation. `SetJob` fills the escape flags from
the job's constraints; here they are part of the state. -/
structure EvalEligibility where
  job : Map String ComputedClassFeasibility := ∅
  jobEscaped : Bool := false
  taskGroups : Map String (Map String ComputedClassFeasibility) := ∅
  tgEscapedConstraints : Map String Bool := ∅
  deriving DecidableEq, Repr

def NewEvalEligibility : EvalEligibility := {}

namespace EvalEligibility

variable (e : EvalEligibility)

def JobStatus («class» : String) : ComputedClassFeasibility :=
  if e.jobEscaped then EvalComputedClassEscaped
  else (e.job.lookup «class»).getD EvalComputedClassUnknown

def SetJobEligibility (eligible : Bool) («class» : String) : EvalEligibility :=
  let eligibility := if eligible then EvalComputedClassEligible else EvalComputedClassIneligible
  { e with job := e.job.insert «class» eligibility }

def TaskGroupStatus (tg «class» : String) : ComputedClassFeasibility :=
  if e.tgEscapedConstraints.lookup tg = some true then EvalComputedClassEscaped
  else ((e.taskGroups.lookup tg).bind (·.lookup «class»)).getD EvalComputedClassUnknown

def SetTaskGroupEligibility (eligible : Bool) (tg «class» : String) : EvalEligibility :=
  let eligibility := if eligible then EvalComputedClassEligible else EvalComputedClassIneligible
  { e with taskGroups := e.taskGroups.insert tg (((e.taskGroups.lookup tg).getD ∅).insert «class» eligibility) }

end EvalEligibility

structure FeasibilityChecker where
  Feasible : Node → Bool

structure FeasibilityWrapper where
  jobCheckers : List FeasibilityChecker
  tgCheckers : List FeasibilityChecker
  tgAvailable : List FeasibilityChecker
  tg : String

/-- Every checker of the list passes the node: the loops of `Next`, which stop at the first that
fails (the checkers only record metrics on the way). -/
def passes (checkers : List FeasibilityChecker) (option : Node) : Bool :=
  checkers.all fun check => check.Feasible option

namespace FeasibilityWrapper

variable (w : FeasibilityWrapper)

def available (option : Node) : Bool :=
  if w.tgAvailable.length = 0 then true else passes w.tgAvailable option

/-- The task-group half of one pass of the `OUTER` loop, after the job checks passed: continue
the scan with the new eligibility (`inl`), or return (`inr`). -/
def checkTaskGroup (option : Node) (evalElig : EvalEligibility) :
    EvalEligibility ⊕ (Option Node × EvalEligibility) :=
  match evalElig.TaskGroupStatus w.tg option.ComputedClass with
  | EvalComputedClassIneligible => .inl evalElig
  -- the eligible fast path: an unavailable node should block the evaluation
  | EvalComputedClassEligible =>
    if w.available option then .inr (some option, evalElig) else .inr (none, evalElig)
  | tgStatus =>
    let tgEscaped := tgStatus == EvalComputedClassEscaped
    let tgUnknown := tgStatus == EvalComputedClassUnknown
    if !passes w.tgCheckers option then
      .inl (if !tgEscaped then evalElig.SetTaskGroupEligibility false w.tg option.ComputedClass else evalElig)
    else
    let evalElig :=
      if !tgEscaped && tgUnknown then evalElig.SetTaskGroupEligibility true w.tg option.ComputedClass
      else evalElig
    -- availability is transient, so it is tested without touching the class
    if !w.available option then .inl evalElig else .inr (some option, evalElig)

def checkNode (option : Node) (evalElig : EvalEligibility) :
    EvalEligibility ⊕ (Option Node × EvalEligibility) :=
  let jobStatus := evalElig.JobStatus option.ComputedClass
  if jobStatus = EvalComputedClassIneligible then .inl evalElig else
  let jobEscaped := jobStatus == EvalComputedClassEscaped
  let jobUnknown := jobStatus == EvalComputedClassUnknown
  if !passes w.jobCheckers option then
    .inl (if !jobEscaped then evalElig.SetJobEligibility false option.ComputedClass else evalElig)
  else
  w.checkTaskGroup option
    (if !jobEscaped && jobUnknown then evalElig.SetJobEligibility true option.ComputedClass else evalElig)

/-- One call: the node returned (or `nil`), what the source has left, and the eligibility after. -/
def Next : List Node → EvalEligibility → Option Node × List Node × EvalEligibility
  | [], evalElig => (none, [], evalElig)
  | option :: source, evalElig =>
    match w.checkNode option evalElig with
    | .inl evalElig => Next source evalElig
    | .inr (result, evalElig) => (result, source, evalElig)

/-- The nodes successive calls of `Next` return before the first `nil`, for at most `fuel` calls. -/
def yields : Nat → List Node → EvalEligibility → List Node
  | 0, _, _ => []
  | fuel + 1, source, evalElig =>
    match w.Next source evalElig with
    | (some option, source, evalElig) => option :: yields fuel source evalElig
    | (none, _, _) => []

def Feasible (option : Node) : Bool :=
  passes w.jobCheckers option && passes w.tgCheckers option && passes w.tgAvailable option

end FeasibilityWrapper

def pluginClassNode (id : String) (healthy : Bool) : Node :=
  { Status := .ready, ID := id, ComputedClass := "c1",
    CSINodePlugins := (∅ : Map String CSIInfo).insert "p" ⟨healthy, ⟨10⟩⟩ }

/-- The availability check the stack wires in, the CSI volume checker, as far as it reads the
plugin's health. -/
def healthyPluginChecker : FeasibilityChecker :=
  ⟨fun n => (n.CSINodePlugins.lookup "p").any (·.Healthy)⟩

def pluginWrapper : FeasibilityWrapper := ⟨[], [], [healthyPluginChecker], "web"⟩

/-- The first call marks class `c1` eligible and returns `n1`. The second meets `n2`, whose plugin
is unhealthy, on the eligible fast path and returns `nil`, so `n3` is never offered, though it
passes every checker. -/
theorem next_stops_at_unavailable_node :
    let source := [pluginClassNode "n1" true, pluginClassNode "n2" false, pluginClassNode "n3" true]
    ∃ e₁, pluginWrapper.Next source NewEvalEligibility = (some (pluginClassNode "n1" true), source.tail, e₁) ∧
      (pluginWrapper.Next source.tail e₁).1 = none ∧
      source.filter pluginWrapper.Feasible = [pluginClassNode "n1" true, pluginClassNode "n3" true] :=
  ⟨_, rfl, by decide, by decide⟩

-- ---------------------------------------------------------------------------
-- The status lemmas
-- ---------------------------------------------------------------------------

namespace EvalEligibility

variable (e : EvalEligibility) (b : Bool) (tg : String)

theorem jobStatus_setJobEligibility_self («class» : String) :
    (e.SetJobEligibility b «class»).JobStatus «class» =
      if e.jobEscaped then EvalComputedClassEscaped
      else if b then EvalComputedClassEligible else EvalComputedClassIneligible := by
  simp [JobStatus, SetJobEligibility, AList.lookup_insert]

theorem jobStatus_setJobEligibility_ne {«class» c : String} (h : c ≠ «class») :
    (e.SetJobEligibility b «class»).JobStatus c = e.JobStatus c := by
  simp [JobStatus, SetJobEligibility, AList.lookup_insert_ne h]

theorem taskGroupStatus_setTaskGroupEligibility_self («class» : String) :
    (e.SetTaskGroupEligibility b tg «class»).TaskGroupStatus tg «class» =
      if e.tgEscapedConstraints.lookup tg = some true then EvalComputedClassEscaped
      else if b then EvalComputedClassEligible else EvalComputedClassIneligible := by
  simp [TaskGroupStatus, SetTaskGroupEligibility, AList.lookup_insert]

theorem taskGroupStatus_setTaskGroupEligibility_ne {«class» c : String} (h : c ≠ «class») :
    (e.SetTaskGroupEligibility b tg «class»).TaskGroupStatus tg c = e.TaskGroupStatus tg c := by
  simp only [TaskGroupStatus, SetTaskGroupEligibility, AList.lookup_insert, Option.bind_some,
    AList.lookup_insert_ne h]
  -- a task group without classes yet reads as empty either way
  cases e.taskGroups.lookup tg <;> rfl

end EvalEligibility

-- ---------------------------------------------------------------------------
-- A cache that agrees with the checkers
-- ---------------------------------------------------------------------------

namespace FeasibilityWrapper

/-- The job and task-group checkers answer alike on the nodes of one computed class: what the
cache assumes of them. -/
def ClassDetermined (w : FeasibilityWrapper) : Prop :=
  ∀ n m : Node, n.ComputedClass = m.ComputedClass →
    passes w.jobCheckers n = passes w.jobCheckers m ∧ passes w.tgCheckers n = passes w.tgCheckers m

/-- The statuses `Next` skips checks on are right about every node of their class. The job's
eligible status is not among them: the job checkers run again on it. -/
structure Agrees (w : FeasibilityWrapper) (e : EvalEligibility) : Prop where
  job : ∀ n, e.JobStatus n.ComputedClass = EvalComputedClassIneligible → passes w.jobCheckers n = false
  tgIneligible : ∀ n, e.TaskGroupStatus w.tg n.ComputedClass = EvalComputedClassIneligible →
    passes w.tgCheckers n = false
  tgEligible : ∀ n, e.TaskGroupStatus w.tg n.ComputedClass = EvalComputedClassEligible →
    passes w.tgCheckers n = true

variable {w : FeasibilityWrapper} {e : EvalEligibility}

theorem agrees_new : Agrees w NewEvalEligibility where
  job _ h := by simp [EvalEligibility.JobStatus, NewEvalEligibility] at h
  tgIneligible _ h := by simp [EvalEligibility.TaskGroupStatus, NewEvalEligibility] at h
  tgEligible _ h := by simp [EvalEligibility.TaskGroupStatus, NewEvalEligibility] at h

section

variable (hcls : ClassDetermined w)
include hcls

theorem Agrees.setJob (ha : Agrees w e) {option : Node} {b : Bool}
    (hb : b = false → passes w.jobCheckers option = false) :
    Agrees w (e.SetJobEligibility b option.ComputedClass) where
  job n hn := by
    by_cases hc : n.ComputedClass = option.ComputedClass
    · rw [hc, EvalEligibility.jobStatus_setJobEligibility_self] at hn
      split at hn
      · cases hn
      · cases b
        · rw [(hcls n option hc).1]
          exact hb rfl
        · cases hn
    · rw [EvalEligibility.jobStatus_setJobEligibility_ne _ _ hc] at hn
      exact ha.job n hn
  tgIneligible := ha.tgIneligible
  tgEligible := ha.tgEligible

theorem Agrees.setTaskGroup (ha : Agrees w e) {option : Node} {b : Bool}
    (hb : passes w.tgCheckers option = b) :
    Agrees w (e.SetTaskGroupEligibility b w.tg option.ComputedClass) where
  job := ha.job
  tgIneligible n hn := by
    by_cases hc : n.ComputedClass = option.ComputedClass
    · rw [hc, EvalEligibility.taskGroupStatus_setTaskGroupEligibility_self] at hn
      rw [(hcls n option hc).2, hb]
      split at hn
      · cases hn
      · cases b
        · rfl
        · cases hn
    · rw [EvalEligibility.taskGroupStatus_setTaskGroupEligibility_ne _ _ _ hc] at hn
      exact ha.tgIneligible n hn
  tgEligible n hn := by
    by_cases hc : n.ComputedClass = option.ComputedClass
    · rw [hc, EvalEligibility.taskGroupStatus_setTaskGroupEligibility_self] at hn
      rw [(hcls n option hc).2, hb]
      split at hn
      · cases hn
      · cases b
        · cases hn
        · rfl
    · rw [EvalEligibility.taskGroupStatus_setTaskGroupEligibility_ne _ _ _ hc] at hn
      exact ha.tgEligible n hn

end

theorem available_eq (option : Node) : w.available option = passes w.tgAvailable option := by
  unfold available
  split
  next h => rw [List.length_eq_zero_iff.mp h]; rfl
  next => rfl

theorem feasible_of_job {option : Node} (h : passes w.jobCheckers option = false) :
    w.Feasible option = false := by
  simp [Feasible, h]

theorem feasible_of_tg {option : Node} (h : passes w.tgCheckers option = false) :
    w.Feasible option = false := by
  simp [Feasible, h]

theorem feasible_of_available {option : Node} (h : passes w.tgAvailable option = false) :
    w.Feasible option = false := by
  simp [Feasible, h]

theorem Agrees.ite {c : Prop} [Decidable c] {e₁ e₂ : EvalEligibility} (h₁ : Agrees w e₁)
    (h₂ : Agrees w e₂) : Agrees w (if c then e₁ else e₂) := by
  split
  · exact h₁
  · exact h₂

/-- What one pass of the loop over `option` may do while the cache agrees: continue past a node
that fails a checker, return a node that passes them all, or return `nil` at a node that fails
the availability checks; the cache it leaves agrees. -/
def PassSpec (w : FeasibilityWrapper) (option : Node) :
    EvalEligibility ⊕ (Option Node × EvalEligibility) → Prop
  | .inl e' => Agrees w e' ∧ w.Feasible option = false
  | .inr (r, e') => Agrees w e' ∧
      (r = some option ∧ w.Feasible option = true ∨ r = none ∧ passes w.tgAvailable option = false)

section

variable (hcls : ClassDetermined w)
include hcls

theorem checkTaskGroup_spec (ha : Agrees w e) {option : Node}
    (hjob : passes w.jobCheckers option = true) : PassSpec w option (w.checkTaskGroup option e) := by
  unfold checkTaskGroup
  split
  next hs => exact ⟨ha, feasible_of_tg (ha.tgIneligible option hs)⟩
  next hs =>
    -- the fast path skips the task-group checks: the cache vouches for them
    by_cases hav : w.available option = true
    · rw [if_pos hav]
      refine ⟨ha, .inl ⟨rfl, ?_⟩⟩
      rw [available_eq] at hav
      simp [Feasible, hjob, ha.tgEligible option hs, hav]
    · rw [if_neg hav]
      rw [available_eq, Bool.not_eq_true] at hav
      exact ⟨ha, .inr ⟨rfl, hav⟩⟩
  next =>
    dsimp only
    by_cases hfail : (!passes w.tgCheckers option) = true
    · rw [if_pos hfail]
      rw [Bool.not_eq_true'] at hfail
      exact ⟨.ite (ha.setTaskGroup hcls hfail) ha, feasible_of_tg hfail⟩
    · rw [if_neg hfail]
      rw [Bool.not_eq_true', Bool.not_eq_false] at hfail
      by_cases hav : (!w.available option) = true
      · rw [if_pos hav]
        rw [Bool.not_eq_true', available_eq] at hav
        exact ⟨.ite (ha.setTaskGroup hcls hfail) ha, feasible_of_available hav⟩
      · rw [if_neg hav]
        rw [Bool.not_eq_true', Bool.not_eq_false, available_eq] at hav
        exact ⟨.ite (ha.setTaskGroup hcls hfail) ha, .inl ⟨rfl, by simp [Feasible, hjob, hfail, hav]⟩⟩

theorem checkNode_spec (ha : Agrees w e) (option : Node) :
    PassSpec w option (w.checkNode option e) := by
  unfold checkNode
  dsimp only
  by_cases hjs : e.JobStatus option.ComputedClass = EvalComputedClassIneligible
  · rw [if_pos hjs]
    exact ⟨ha, feasible_of_job (ha.job option hjs)⟩
  rw [if_neg hjs]
  by_cases hfail : (!passes w.jobCheckers option) = true
  · -- a failing job check marks the class ineligible unless the job escaped
    rw [if_pos hfail]
    rw [Bool.not_eq_true'] at hfail
    exact ⟨.ite (ha.setJob hcls fun _ => hfail) ha, feasible_of_job hfail⟩
  · rw [if_neg hfail]
    rw [Bool.not_eq_true', Bool.not_eq_false] at hfail
    refine checkTaskGroup_spec hcls (.ite ?_ ha) hfail
    exact ha.setJob hcls nofun

/-- A call of `Next` while the cache agrees: the nodes it passes over fail a checker, and it
returns the next node that passes them all, or `nil` at the end of the source or after a node
that fails the availability checks. -/
theorem next_spec (ha : Agrees w e) {source rest : List Node} {r : Option Node}
    {e' : EvalEligibility} (hr : w.Next source e = (r, rest, e')) :
    Agrees w e' ∧ ∃ pre, (∀ n ∈ pre, w.Feasible n = false) ∧
      ((∃ option, r = some option ∧ source = pre ++ option :: rest ∧ w.Feasible option = true) ∨
        (r = none ∧ source = pre ++ rest ∧
          (rest = [] ∨ ∃ n ∈ pre, passes w.tgAvailable n = false))) := by
  induction source generalizing e with
  | nil =>
    cases hr
    exact ⟨ha, [], by simp, .inr ⟨rfl, rfl, .inl rfl⟩⟩
  | cons option source ih =>
    have hp := checkNode_spec hcls ha option
    rw [Next] at hr
    cases hc : w.checkNode option e with
    | inl e₁ =>
      -- the node is passed over: it joins the prefix
      rw [hc] at hp hr
      obtain ⟨ha', pre, hpre, hres⟩ := ih hp.1 hr
      refine ⟨ha', option :: pre, ?_, ?_⟩
      · simpa [hp.2] using hpre
      · rcases hres with ⟨n, hn, rfl, hf⟩ | ⟨hn, rfl, hend⟩
        · exact .inl ⟨n, hn, rfl, hf⟩
        · refine .inr ⟨hn, rfl, hend.imp_right fun ⟨n, hn, h⟩ => ⟨n, .tail _ hn, h⟩⟩
    | inr res =>
      obtain ⟨r₁, e₁⟩ := res
      rw [hc] at hp hr
      cases hr
      rcases hp with ⟨ha', ⟨rfl, hf⟩ | ⟨rfl, hav⟩⟩
      · exact ⟨ha', [], by simp, .inl ⟨option, rfl, rfl, hf⟩⟩
      · refine ⟨ha', [option], by simpa using feasible_of_available hav, .inr ⟨rfl, rfl, ?_⟩⟩
        exact .inr ⟨option, List.mem_singleton_self _, hav⟩

theorem yields_prefix (ha : Agrees w e) (fuel : Nat) (source : List Node) :
    w.yields fuel source e <+: source.filter w.Feasible := by
  induction fuel generalizing source e with
  | zero => exact List.nil_prefix
  | succ fuel ih =>
    obtain ⟨⟨r, rest, e'⟩, hr⟩ : ∃ x, w.Next source e = x := ⟨_, rfl⟩
    obtain ⟨ha', pre, hpre, hres⟩ := next_spec hcls ha hr
    rw [yields, hr]
    rcases hres with ⟨option, rfl, rfl, hf⟩ | ⟨rfl, -, -⟩
    · -- the failing prefix drops out of the filter
      rw [List.filter_append, List.filter_eq_nil_iff.mpr (by simpa using hpre),
        List.filter_cons_of_pos hf, List.nil_append]
      exact List.cons_prefix_cons.mpr ⟨rfl, ih ha' rest⟩
    · exact List.nil_prefix

theorem yields_eq_filter (ha : Agrees w e) {source : List Node}
    (havail : ∀ n ∈ source, passes w.tgAvailable n = true) {fuel : Nat} (hfuel : source.length < fuel) :
    w.yields fuel source e = source.filter w.Feasible := by
  induction fuel generalizing source e with
  | zero => cases hfuel
  | succ fuel ih =>
    obtain ⟨⟨r, rest, e'⟩, hr⟩ : ∃ x, w.Next source e = x := ⟨_, rfl⟩
    obtain ⟨ha', pre, hpre, hres⟩ := next_spec hcls ha hr
    rw [yields, hr]
    have hnil : pre.filter w.Feasible = [] := List.filter_eq_nil_iff.mpr (by simpa using hpre)
    rcases hres with ⟨option, rfl, rfl, hf⟩ | ⟨rfl, rfl, hend⟩
    · rw [List.filter_append, hnil, List.filter_cons_of_pos hf, List.nil_append]
      simp only [List.length_append, List.length_cons] at hfuel
      exact congrArg (option :: ·) (ih ha' (fun n hn => havail n (by simp [hn])) (by omega))
    · -- an unavailable node is ruled out, so the source is spent
      rcases hend with rfl | ⟨n, hn, hav⟩
      · simpa using hnil.symm
      · rw [havail n (by simp [hn])] at hav
        cases hav

end


end FeasibilityWrapper

/-- **The cache never yields a failing node.** When the job and task-group checkers answer alike
on the nodes of a computed class and the cached statuses agree with them, the nodes that calls of
`Next` yield before `nil` are a prefix of the nodes that pass every checker, in source order, and
all of them when every node passes the availability checks. -/
theorem yields_feasible_prefix (w : FeasibilityWrapper) (hcls : w.ClassDetermined)
    {e : EvalEligibility} (ha : w.Agrees e) (source : List Node) :
    w.yields (source.length + 1) source e <+: source.filter w.Feasible ∧
      ((∀ n ∈ source, passes w.tgAvailable n = true) →
        w.yields (source.length + 1) source e = source.filter w.Feasible) :=
  ⟨FeasibilityWrapper.yields_prefix hcls ha _ source,
    fun havail => FeasibilityWrapper.yields_eq_filter hcls ha havail (Nat.lt_succ_self _)⟩

def classNode (id cls : String) (healthy : Bool) : Node :=
  { pluginClassNode id healthy with ComputedClass := cls }

/-- A job checker and a task-group checker of class attributes: the job's driver is missing on
class `c2`, and the group's constraint fails on class `c3`. -/
def classWrapper : FeasibilityWrapper :=
  ⟨[⟨fun n => n.ComputedClass != "c2"⟩], [⟨fun n => n.ComputedClass != "c3"⟩], [healthyPluginChecker],
    "web"⟩

/-- The class checkers answer alike on a class, and a new tracker agrees. Of the five nodes, the
job checker fails `n2`, the group checker `n3`, and the plugin of `n4` is unhealthy. -/
theorem yields_feasible_prefix_classes :
    classWrapper.ClassDetermined ∧ classWrapper.Agrees NewEvalEligibility ∧
      let source := [classNode "n1" "c1" true, classNode "n2" "c2" true, classNode "n3" "c3" true,
        classNode "n4" "c1" false, classNode "n5" "c1" true]
      (classWrapper.yields (source.length + 1) source NewEvalEligibility <+:
          source.filter classWrapper.Feasible ∧
        ((∀ n ∈ source, passes classWrapper.tgAvailable n = true) →
          classWrapper.yields (source.length + 1) source NewEvalEligibility =
            source.filter classWrapper.Feasible)) :=
  have hcls : classWrapper.ClassDetermined := fun n m h => by
    simp [classWrapper, passes, h]
  ⟨hcls, FeasibilityWrapper.agrees_new, yields_feasible_prefix classWrapper hcls FeasibilityWrapper.agrees_new _⟩

/-- On those nodes `Next` yields `n1`, then meets the unavailable `n4` and stops: `[n1]` is a short
prefix of the feasible `[n1, n5]`. -/
example :
    let source := [classNode "n1" "c1" true, classNode "n2" "c2" true, classNode "n3" "c3" true,
      classNode "n4" "c1" false, classNode "n5" "c1" true]
    classWrapper.yields (source.length + 1) source NewEvalEligibility = [classNode "n1" "c1" true] ∧
      source.filter classWrapper.Feasible = [classNode "n1" "c1" true, classNode "n5" "c1" true] := by
  decide

end Nomad.Scheduler
