import Nomad.Structs.Alloc

/-!
# `ReschedulePolicy.Validate` and the delays it admits

`Validate` checks a policy field by field and, for limited attempts, cross-checks the delay
parameters with `viableAttempts`. Each error is kept as the constructor of its message with the
values the message prints. `viableAttempts` computes in `int64`, as Go does: the products and
sums wrap, and `time.Duration(math.Pow(2, i))` past `2^62` is the integer-indefinite value.

`NextDelay` doubles or adds the recorded delays in `int64` before it applies `MaxDelay`.
`Validate` puts no upper bound on `MaxDelay`, so a long enough chain of doublings wraps to a
negative delay below the cap (`nextDelay_wraps_negative`). Below `2^62` the cap holds
(`nextDelay_within_policy_bounds`).
-/

namespace Nomad.Structs

open Go

def ReschedulePolicyMinInterval : Duration := 15000000000
def ReschedulePolicyMinDelay : Duration := 5000000000
def RescheduleDelayFunctions : List String := ["constant", "exponential", "fibonacci"]

/-- The messages `Validate` collects, with the values each prints. -/
inductive ReschedulePolicyError where
  | intervalNotPositive
  | ambiguous (attempts : Int) (interval : Duration) (unlimited : Bool)
  | attemptsWithUnlimited
  | delayBelowMin (delay : Duration)
  | invalidDelayFunction (delayFunction : String)
  /-- "Max Delay cannot be less than 5s": the message prints `Delay`, not `MaxDelay`. -/
  | maxDelayBelowMin (delay : Duration)
  | maxDelayBelowDelay (delay maxDelay : Duration)
  | intervalBelowMin (interval : Duration)
  | attemptsConstant (possible : Int) (interval delay : Duration) (delayFunction : String)
  | attemptsWithCeiling (possible : Int) (interval delay : Duration) (delayFunction : String)
      (maxDelay : Duration)
  | setIntervalAtLeast (recommended : Duration) (attempts : Int)
  deriving DecidableEq, Repr

namespace ReschedulePolicy

variable (r : ReschedulePolicy)

def Enabled : Bool := 0 < r.Attempts || r.Unlimited

/-- `time.Duration(math.Pow(2, float64(i)))` on amd64: exact up to `2^62`, past it the
conversion gives the integer-indefinite value `-2^63`. -/
def durationOfPow2 (i : Nat) : Duration := if i < 63 then 2 ^ i else minDuration

def exponentialAttempts : Duration × Int :=
  (List.range r.Attempts.toNat).foldl (fun (recommended, possible) i =>
    let nextDelay := wrap64 (durationOfPow2 i * r.Delay)
    let recommended :=
      if nextDelay > r.MaxDelay then wrap64 (recommended + r.MaxDelay) else nextDelay
    (recommended, if recommended < r.Interval then possible + 1 else possible)) (0, 0)

/-- The fibonacci slots of `viableAttempts`: two delays, then sums capped at `MaxDelay`, and
past the cap steps of `MaxDelay`. -/
def fibonacciSlots : List Duration :=
  ((List.range (r.Attempts.toNat - 2)).foldl (fun (slots, prev2, prev1, reachedCeiling) _ =>
    let nextDelay :=
      if reachedCeiling then (wrap64 (prev1 + r.MaxDelay), true)
      else
        let nextDelay := wrap64 (prev1 + prev2)
        if nextDelay > r.MaxDelay then (r.MaxDelay, true) else (nextDelay, false)
    (slots ++ [nextDelay.1], prev1, nextDelay.1, nextDelay.2))
    ([r.Delay, r.Delay], r.Delay, r.Delay, false)).1

/-- `viableAttempts`: whether `Attempts` reschedules fit in `Interval`, how many do, and the
interval they would need. -/
def viableAttempts : Bool × Int × Duration :=
  let (valid, possibleAttempts, recommendedInterval) :=
    if r.DelayFunction = "constant" then
      let recommendedInterval := wrap64 (r.Attempts * r.Delay)
      if r.Interval < recommendedInterval then (false, r.Interval.tdiv r.Delay, recommendedInterval)
      else (true, 0, recommendedInterval)
    else if r.DelayFunction = "exponential" then
      let (recommendedInterval, possibleAttempts) := r.exponentialAttempts
      (decide (r.Attempts ≤ possibleAttempts), possibleAttempts, recommendedInterval)
    else if r.DelayFunction = "fibonacci" then
      let slots := r.fibonacciSlots
      let recommendedInterval := slots.getLast?.getD 0
      if r.Interval < recommendedInterval then
        (false, ((slots.findIdx? (· > r.Interval)).getD 0 : Int), recommendedInterval)
      else (true, 0, recommendedInterval)
    else (false, 0, 0)
  (valid, if possibleAttempts < 0 then 0 else possibleAttempts, recommendedInterval)

def validateDelayParams : List ReschedulePolicyError :=
  match r.viableAttempts with
  | (true, _, _) => []
  | (false, possibleAttempts, recommendedInterval) =>
    (if r.DelayFunction = "constant" then
      [.attemptsConstant possibleAttempts r.Interval r.Delay r.DelayFunction]
    else [.attemptsWithCeiling possibleAttempts r.Interval r.Delay r.DelayFunction r.MaxDelay]) ++
      [.setIntervalAtLeast (Duration.Round recommendedInterval 1000000000) r.Attempts]

/-- `Validate`: the errors in the order Go appends them; no error is `nil`. -/
def Validate : List ReschedulePolicyError :=
  if !r.Enabled then [] else
  let attemptErrors :=
    if 0 < r.Attempts then
      (if r.Interval ≤ 0 then [.intervalNotPositive] else []) ++
        (if r.Unlimited then [.ambiguous r.Attempts r.Interval r.Unlimited, .attemptsWithUnlimited]
        else [])
    else []
  let delayOk := decide (ReschedulePolicyMinDelay ≤ r.Delay)
  let functionOk := decide (r.DelayFunction ∈ RescheduleDelayFunctions)
  let maxDelayErrors :=
    if r.DelayFunction ≠ "constant" then
      (if r.MaxDelay < ReschedulePolicyMinDelay then [.maxDelayBelowMin r.Delay] else []) ++
        (if r.MaxDelay < r.Delay then [.maxDelayBelowDelay r.Delay r.MaxDelay] else [])
    else []
  let delayPreCheck := delayOk && functionOk && maxDelayErrors.isEmpty
  let errors := attemptErrors ++ (if delayOk then [] else [.delayBelowMin r.Delay]) ++
    (if functionOk then [] else [.invalidDelayFunction r.DelayFunction]) ++ maxDelayErrors
  if !r.Unlimited then
    let errors := errors ++
      (if r.Interval < ReschedulePolicyMinInterval then [.intervalBelowMin r.Interval] else [])
    -- the cross check needs sane delay parameters, so it is skipped when they are not
    if !delayPreCheck then errors else errors ++ r.validateDelayParams
  else errors

/-- A valid enabled policy has a delay of at least five seconds, and one that grows has a ceiling
no lower than its delay. -/
theorem delay_bounds_of_validate (hv : r.Validate = []) (he : r.Enabled = true) :
    ReschedulePolicyMinDelay ≤ r.Delay ∧ (r.DelayFunction ≠ "constant" → r.Delay ≤ r.MaxDelay) := by
  simp only [Validate, he, Bool.not_true, Bool.false_eq_true, if_false] at hv
  constructor
  · by_contra hd
    split at hv <;> simp [hd, List.append_eq_nil_iff] at hv
  · intro hc
    by_contra hm
    have hm' : r.MaxDelay < r.Delay := lt_of_not_ge hm
    split at hv <;> simp [List.append_eq_nil_iff] at hv

theorem interval_pos_of_validate (hv : r.Validate = []) (ha : 0 < r.Attempts) :
    0 < r.Interval := by
  have he : r.Enabled = true := by simp [Enabled, ha]
  by_contra hi
  -- `intervalNotPositive` opens the error list on every path
  have h := congrArg List.head? hv
  simp [Validate, he, ha, le_of_not_gt hi, apply_ite List.head?] at h

end ReschedulePolicy

theorem getLast?_getD_mem {α : Type} {l : List α} (h : l ≠ []) (d : α) : l.getLast?.getD d ∈ l := by
  rw [List.getLast?_eq_some_getLast h]
  exact List.getLast_mem h

namespace Allocation

section Bounds

variable {p : Structs.ReschedulePolicy} (hpos : 0 < p.Delay) (hdm : p.Delay ≤ p.MaxDelay)
include hpos hdm

/-- The cap of `NextDelay` keeps a grown delay of at least `Delay` inside the policy's bounds,
whether it resets to `Delay` or stops at `MaxDelay`. -/
theorem cap_within_bounds {d : Duration} (timeDiff : Duration) (hd : p.Delay ≤ d) :
    let r := if 0 < p.MaxDelay ∧ p.MaxDelay < d then
      (if p.MaxDelay < timeDiff then p.Delay else p.MaxDelay) else d
    p.Delay ≤ r ∧ r ≤ p.MaxDelay := by
  intro r
  by_cases hc : 0 < p.MaxDelay ∧ p.MaxDelay < d
  · by_cases ht : p.MaxDelay < timeDiff
    · simp only [r, hc, ht, and_self, if_true]
      exact ⟨le_rfl, hdm⟩
    · simp only [r, hc, ht, and_self, if_true, if_false]
      exact ⟨hdm, le_rfl⟩
  · have : d ≤ p.MaxDelay := le_of_not_gt fun h => hc ⟨lt_of_lt_of_le hpos hdm, h⟩
    simp only [r, hc, if_false]
    exact ⟨hd, this⟩

end Bounds

/-- Below `2^62` the doubling of the exponential function and the sum of the fibonacci function
fit in `int64`, so a valid growing policy keeps every delay `NextDelay` computes from delays in
`[Delay, MaxDelay]` inside `[Delay, MaxDelay]`. -/
theorem nextDelay_within_policy_bounds (a : Allocation) (p : Structs.ReschedulePolicy)
    (hp : a.ReschedulePolicy = some p) (hv : p.Validate = []) (he : p.Enabled = true)
    (hf : p.DelayFunction = "exponential" ∨ p.DelayFunction = "fibonacci")
    (hmax : p.MaxDelay < 2 ^ 62)
    (hev : ∀ events, a.RescheduleTracker.bind (·.Events) = some events →
      ∀ e ∈ events, p.Delay ≤ e.Delay ∧ e.Delay ≤ p.MaxDelay) :
    p.Delay ≤ a.NextDelay ∧ a.NextDelay ≤ p.MaxDelay := by
  obtain ⟨hmin, hle⟩ := p.delay_bounds_of_validate hv he
  have hdm : p.Delay ≤ p.MaxDelay := hle (by rcases hf with h | h <;> simp [h])
  have hpos : 0 < p.Delay := lt_of_lt_of_le (by decide) hmin
  unfold NextDelay
  rw [hp]
  dsimp only
  cases hes : a.RescheduleTracker.bind (·.Events) with
  | none => exact ⟨le_rfl, hdm⟩
  | some events =>
    cases events with
    | nil => exact ⟨le_rfl, hdm⟩
    | cons e es =>
      have hin := hev _ hes
      have hlast := hin _ (getLast?_getD_mem (List.cons_ne_nil e es) ⟨0, 0⟩)
      dsimp only
      obtain ⟨hn1, hn1'⟩ := hlast
      have hx : 0 ≤ ((e :: es).getLast?.getD ⟨0, 0⟩).Delay := le_of_lt (lt_of_lt_of_le hpos hn1)
      have hx' := lt_of_le_of_lt hn1' hmax
      rcases hf with h | h
      · -- exponential: the doubled delay stays below `2^63`
        rw [if_pos h]
        dsimp only
        rw [wrap64_mul_two_of_lt hx hx']
        exact cap_within_bounds hpos hdm _ (le_trans hn1 (by unfold Duration at *; omega))
      · rw [if_neg (by rw [h]; decide), if_pos h]
        by_cases hlen : 2 ≤ (e :: es).length
        · -- fibonacci: the last delay alone after a reset, else the sum of the last two
          have hi : (e :: es).length - 2 < (e :: es).length := by omega
          obtain ⟨hn2, hn2'⟩ := hin _ (List.getElem_mem hi)
          have hy := le_of_lt (lt_of_lt_of_le hpos hn2)
          rw [if_pos hlen]
          rw [List.getElem?_eq_getElem hi, Option.map_some, Option.getD_some]
          by_cases hreset : (e :: es)[(e :: es).length - 2].Delay = p.MaxDelay ∧
              ((e :: es).getLast?.getD ⟨0, 0⟩).Delay = p.Delay
          · rw [if_pos hreset]
            exact cap_within_bounds hpos hdm _ hn1
          · rw [if_neg hreset]
            dsimp only
            rw [wrap64_add_of_lt hx hy hx' (lt_of_le_of_lt hn2' hmax)]
            exact cap_within_bounds hpos hdm _ (le_trans hn1 (Int.le_add_of_nonneg_right hy))
        · rw [if_neg hlen]
          exact cap_within_bounds hpos hdm _ le_rfl

end Allocation

def hourlyExponential : Structs.ReschedulePolicy :=
  { Attempts := 1, Interval := 15000000000, Delay := 5000000000, DelayFunction := "exponential",
    MaxDelay := 3600000000000, Unlimited := false }

/-- The same policy with the ceiling `maxDuration`: it passes `Validate` as well. -/
def unboundedExponential : Structs.ReschedulePolicy :=
  { hourlyExponential with MaxDelay := maxDuration }

def policyJob (p : Structs.ReschedulePolicy) : Job :=
  { ID := "web", Namespace := "default", «Type» := "service", Priority := 50, Stop := false,
    Version := 0, CreateIndex := 10, ModifyIndex := 10, JobModifyIndex := 10,
    TaskGroups := [{ Name := "web", Count := 1, Update := none, ReschedulePolicy := some p }] }

def trackedAlloc (p : Structs.ReschedulePolicy) (events : List RescheduleEvent) : Allocation :=
  { ID := "a0", Name := 0, JobID := "web", Job := policyJob p, TaskGroup := "web",
    NodeID := "n1", DesiredStatus := .run, DesiredTransition := ⟨none, none, none⟩,
    ClientStatus := .failed, DeploymentID := "", DeploymentStatus := none, TaskStates := [],
    RescheduleTracker := some ⟨some events⟩, NextAllocation := "", FollowupEvalID := "",
    ModifyTime := 0 }

/-- After a delay of 50 minutes the hourly policy stops at its ceiling. -/
theorem nextDelay_within_policy_bounds_hourly :
    let a := trackedAlloc hourlyExponential [⟨0, 3000000000000⟩]
    hourlyExponential.Delay ≤ a.NextDelay ∧ a.NextDelay ≤ hourlyExponential.MaxDelay :=
  Allocation.nextDelay_within_policy_bounds _ _ rfl (by decide) (by decide) (Or.inl rfl)
    (by decide) (by rintro events ⟨⟩; decide)

def doublingEvents : List RescheduleEvent :=
  (List.range 31).map fun k : Nat => ⟨(k : Int), 5000000000 * 2 ^ k⟩

/-- Each of the thirty-one delays is the `NextDelay` of the events before it, and every one lies in
`[Delay, MaxDelay]`; the next `NextDelay` doubles `5 s · 2^30` past `2^63` and returns a negative
delay, which the cap does not catch. -/
theorem nextDelay_wraps_negative :
    unboundedExponential.Validate = [] ∧
      (∀ k < 31, (trackedAlloc unboundedExponential (doublingEvents.take k)).NextDelay =
        5000000000 * 2 ^ k) ∧
      (∀ e ∈ doublingEvents, unboundedExponential.Delay ≤ e.Delay ∧
        e.Delay ≤ unboundedExponential.MaxDelay) ∧
      (trackedAlloc unboundedExponential doublingEvents).NextDelay = -7709325833709551616 := by
  decide

end Nomad.Structs
