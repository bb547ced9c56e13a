import Mathlib
import Nomad.Go.Outcome
import Nomad.Structs.ReschedulePolicy
import Nomad.Container.Window

/-!
# Reschedule attempts along a chain of replacements

Each time the scheduler replaces a failed allocation it calls `updateRescheduleTracker`, which
carries over the events of the failed allocation that are at most `Interval` old at the scheduler's
`now` and appends the new event. `NextRescheduleTime` lets an allocation be replaced only while
fewer than `Attempts` tracked events are less than `Interval` before its failure time.

Along a chain whose times only move forward (each replacement fails no earlier than it was
created, and is created no earlier than its predecessor failed) the tracker of every allocation
keeps every event of the chain that is recent at its creation, so the chain's events are
`Window.Spaced` and no window `[T, T + Interval)` holds more than `Attempts` of them
(`chain_reschedules_within_attempts`). Without the first condition a replacement may fail before
it was created, the tracker of a later one has already dropped events that are recent again, and
the bound fails (`chain_reschedules_exceed_attempts`). A closed window `[T, T + Interval]` may hold
one event more (`chain_reschedules_fill_closed_window`).
-/

namespace Nomad.Scheduler

open Go Structs

def maxPastRescheduleEvents : Nat := 5

/-- `updateRescheduleTracker`: `alloc`, the replacement of `prev` made at `now`, with the events of
`prev` that still count and one new event. A tracker on `prev` without a policy panics, as
`reschedPolicy.Attempts` dereferences `nil`. -/
def updateRescheduleTracker (alloc prev : Allocation) (now : Time) : Outcome Allocation :=
  let reschedPolicy := prev.ReschedulePolicy
  let rescheduleEvents : Outcome (List RescheduleEvent) :=
    match prev.RescheduleTracker with
    | none => .ok []
    | some tracker =>
      let interval := (reschedPolicy.map (·.Interval)).getD 0
      match reschedPolicy with
      | none => .panic
      | some policy =>
        let events := tracker.Events.getD []
        if 0 < policy.Attempts then
          -- only the events within the interval are copied over
          .ok (events.filter fun reschedEvent =>
            let timeDiff := wrap64 (now.UnixNano - reschedEvent.RescheduleTime)
            decide (0 < interval) && decide (timeDiff ≤ interval))
        else .ok (events.drop (events.length - maxPastRescheduleEvents))
  rescheduleEvents.map fun rescheduleEvents =>
    { alloc with
      RescheduleTracker := some ⟨some (rescheduleEvents ++ [⟨now.UnixNano, prev.NextDelay⟩])⟩ }

def trackedEvents (a : Allocation) : List RescheduleEvent :=
  (a.RescheduleTracker.bind (·.Events)).getD []

/-- One reschedule: `prev` is reported eligible and its replacement `next`, with the policy `p`,
is created at `now`, no earlier than `prev` failed, with the tracker `updateRescheduleTracker`
writes. -/
structure Hop (p : ReschedulePolicy) (prev : Allocation) (now : Time) (next : Allocation) :
    Prop where
  policy : next.ReschedulePolicy = some p
  eligible : prev.NextRescheduleTime.2 = true
  after_failure : prev.LastEventTime.ns ≤ now.ns
  tracker : updateRescheduleTracker next prev now = .ok next

instance (p : ReschedulePolicy) (prev : Allocation) (now : Time) (next : Allocation) :
    Decidable (Hop p prev now next) :=
  decidable_of_iff (_ ∧ _ ∧ _ ∧ _)
    ⟨fun ⟨h1, h2, h3, h4⟩ => ⟨h1, h2, h3, h4⟩, fun h => ⟨h.1, h.2, h.3, h.4⟩⟩

/-- From `prev`, each `(now, next)` of the list is a hop from the allocation before it. -/
def Chain (p : ReschedulePolicy) : Allocation → List (Time × Allocation) → Prop
  | _, [] => True
  | prev, (now, next) :: hops => Hop p prev now next ∧ Chain p next hops

instance decChain (p : ReschedulePolicy) : ∀ a hops, Decidable (Chain p a hops)
  | _, [] => isTrue trivial
  | prev, (now, next) :: hops =>
    have := decChain p next hops
    inferInstanceAs (Decidable (Hop p prev now next ∧ Chain p next hops))

def rescheduleTimes (hops : List (Time × Allocation)) : List Int :=
  hops.map (·.1.UnixNano)

-- ---------------------------------------------------------------------------
-- One call
-- ---------------------------------------------------------------------------

section Spec

variable {alloc prev : Allocation} {now : Time} {p : ReschedulePolicy}

theorem updateRescheduleTracker_limited (hp : prev.ReschedulePolicy = some p)
    (ha : 0 < p.Attempts) :
    updateRescheduleTracker alloc prev now = .ok
      { alloc with
        RescheduleTracker := some ⟨some ((trackedEvents prev).filter (fun e =>
          decide (0 < p.Interval) && decide (wrap64 (now.UnixNano - e.RescheduleTime) ≤ p.Interval)) ++
          [⟨now.UnixNano, prev.NextDelay⟩])⟩ } := by
  unfold updateRescheduleTracker trackedEvents
  rw [hp]
  cases prev.RescheduleTracker with
  | none => rfl
  | some tracker => simp [ha, Outcome.map, Outcome.bind]

theorem attempted_lt_of_eligible {a : Allocation} (hp : a.ReschedulePolicy = some p)
    (ha : 0 < p.Attempts) (he : a.NextRescheduleTime.2 = true) :
    (((trackedEvents a).filter fun e =>
      wrap64 (a.LastEventTime.UnixNano - e.RescheduleTime) < p.Interval).length : Int) <
        p.Attempts := by
  unfold Allocation.NextRescheduleTime at he
  rw [hp] at he
  dsimp only at he
  split at he
  · exact absurd he Bool.false_ne_true
  · unfold trackedEvents
    match ht : a.RescheduleTracker with
    | some { Events := some events } =>
      simp only [ht, Bool.and_eq_true, decide_eq_true_eq] at he
      simpa using he.1
    | some { Events := none } => simpa using ha
    | none => simpa using ha

end Spec

-- ---------------------------------------------------------------------------
-- What the last tracker of a chain records
-- ---------------------------------------------------------------------------

theorem filter_sublist_filter_of_imp {β : Type} {L X : List β} {P Q R : β → Bool}
    (hLX : (L.filter P).Sublist X) (hQ : ∀ t ∈ L, Q t = true → P t = true ∧ R t = true) :
    (L.filter Q).Sublist (X.filter R) := by
  have hPQ : L.filter Q = (L.filter P).filter Q := by
    rw [List.filter_filter]
    apply List.filter_congr
    intro t ht
    cases hq : Q t
    · simp
    · simp [(hQ t ht hq).1]
  -- every element left after `Q` passes `R` too, so filtering by `R` keeps them all
  have hR : ((L.filter P).filter Q).filter R = (L.filter P).filter Q := by
    rw [List.filter_eq_self]
    intro t ht
    obtain ⟨htP, hq⟩ := List.mem_filter.mp ht
    exact (hQ t (List.mem_of_mem_filter htP) hq).2
  rw [hPQ, ← hR]
  exact (List.filter_sublist.trans hLX).filter R

/-- The chain's events so far, `past`, as seen from the allocation `a` created at `c`: they are
spaced, they lie in `[0, 2^62)` no later than `c`, and `a`'s tracker holds every one of them at most
`Interval` before `c`, in order. -/
structure Tracks (p : ReschedulePolicy) (a : Allocation) (c : Int) (past : List Int) : Prop where
  spaced : Window.Spaced p.Interval p.Attempts.toNat past
  bounded : ∀ t ∈ past, 0 ≤ t ∧ t < 2 ^ 62 ∧ t ≤ c
  kept : (past.filter fun t => c - t ≤ p.Interval).Sublist
    ((trackedEvents a).map (·.RescheduleTime))

theorem tracks_start (p : ReschedulePolicy) (a : Allocation) (c : Int) : Tracks p a c [] :=
  ⟨.nil, by simp, by simp⟩

section Hop

variable {p : ReschedulePolicy} {prev next : Allocation} {now : Time} {c : Int} {past : List Int}
  (hI : 0 < p.Interval) (hA : 0 < p.Attempts)
include hI hA

theorem Tracks.hop (ht : Tracks p prev c past) (hprev : prev.ReschedulePolicy = some p)
    (hc : c ≤ prev.LastEventTime.UnixNano) (hf : prev.LastEventTime.InUnixRange)
    (hnow : now.InUnixRange) (hop : Hop p prev now next) :
    Tracks p next now.UnixNano (past ++ [now.UnixNano]) := by
  have hfu : prev.LastEventTime.UnixNano ≤ now.UnixNano :=
    (Time.unixNano_le_iff hf hnow).mpr hop.after_failure
  obtain ⟨hu0, hu1⟩ := Time.unixNano_bounds hnow
  obtain ⟨hf0, hf1⟩ := Time.unixNano_bounds hf
  -- the tracker `next` carries, read off the one call that made it
  have hev : trackedEvents next = (trackedEvents prev).filter (fun e => decide (0 < p.Interval) &&
      decide (wrap64 (now.UnixNano - e.RescheduleTime) ≤ p.Interval)) ++
      [⟨now.UnixNano, prev.NextDelay⟩] := by
    have h := hop.tracker
    rw [updateRescheduleTracker_limited hprev hA] at h
    rw [← Outcome.ok.inj h]
    rfl
  refine ⟨.snoc ht.spaced ?_, ?_, ?_⟩
  · -- the new event: the chain's recent events are among those `prev` counted
    have hrec := Window.recent_sublist_of_le p.Interval hfu past
    have hcount : (Window.recent p.Interval prev.LastEventTime.UnixNano past).Sublist
        (((trackedEvents prev).map (·.RescheduleTime)).filter fun t =>
          wrap64 (prev.LastEventTime.UnixNano - t) < p.Interval) := by
      refine filter_sublist_filter_of_imp ht.kept fun t htp hq => ?_
      obtain ⟨ht0, ht1, htc⟩ := ht.bounded t htp
      simp only [decide_eq_true_eq, wrap64_sub_of_lt hf0 ht0 hf1 ht1] at hq ⊢
      -- the window is over `Duration`, which `omega` reads only once unfolded to `Int`
      unfold Duration at *
      omega
    have hlen := (hrec.trans hcount).length_le
    rw [List.filter_map, List.length_map] at hlen
    have hatt := attempted_lt_of_eligible hprev hA hop.eligible
    simp only [Function.comp_def] at hlen
    omega
  · intro t htp
    rcases List.mem_append.mp htp with htp | htp
    · obtain ⟨ht0, ht1, htc⟩ := ht.bounded t htp
      exact ⟨ht0, ht1, by omega⟩
    · rw [List.mem_singleton.mp htp]
      exact ⟨hu0, hu1, le_rfl⟩
  · -- the old events recent at `now` were recent at `c`, and the tracker filter keeps them
    have hk : (past.filter fun t => now.UnixNano - t ≤ p.Interval).Sublist
        (((trackedEvents prev).map (·.RescheduleTime)).filter fun t =>
          decide (0 < p.Interval) && decide (wrap64 (now.UnixNano - t) ≤ p.Interval)) := by
      refine filter_sublist_filter_of_imp ht.kept fun t htp hq => ?_
      obtain ⟨ht0, ht1, htc⟩ := ht.bounded t htp
      simp only [decide_eq_true_eq, Bool.and_eq_true, wrap64_sub_of_lt hu0 ht0 hu1 ht1] at hq ⊢
      exact ⟨by omega, hI, hq⟩
    rw [List.filter_map] at hk
    rw [hev, List.map_append, List.filter_append, List.map_singleton]
    exact List.Sublist.append hk (by simp [le_of_lt hI])

/-- Along the rest of a chain the events stay spaced. The induction is on the hops, with the
allocation reached so far, its creation time and the events so far generalized; `Tracks` carries
what its tracker holds. -/
theorem Tracks.chain (hops : List (Time × Allocation)) (ht : Tracks p prev c past)
    (hprev : prev.ReschedulePolicy = some p) (hc : c ≤ prev.LastEventTime.UnixNano)
    (hf : prev.LastEventTime.InUnixRange) (hchain : Chain p prev hops)
    (hcreated : ∀ h ∈ hops, h.1.ns ≤ h.2.LastEventTime.ns)
    (hrange : ∀ h ∈ hops, h.1.InUnixRange ∧ h.2.LastEventTime.InUnixRange) :
    Window.Spaced p.Interval p.Attempts.toNat (past ++ rescheduleTimes hops) := by
  induction hops generalizing prev c past with
  | nil => simpa [rescheduleTimes] using ht.spaced
  | cons hop hops ih =>
    obtain ⟨now, next⟩ := hop
    obtain ⟨hhop, hchain⟩ := hchain
    obtain ⟨hnow, hnext⟩ := hrange _ List.mem_cons_self
    have hc' : now.UnixNano ≤ next.LastEventTime.UnixNano :=
      (Time.unixNano_le_iff hnow hnext).mpr (hcreated _ List.mem_cons_self)
    have hs := ih (ht.hop hI hA hprev hc hf hnow hhop) hhop.policy hc' hnext hchain
      (fun h hh => hcreated h (List.mem_cons_of_mem _ hh))
      (fun h hh => hrange h (List.mem_cons_of_mem _ hh))
    simpa [rescheduleTimes] using hs

end Hop

/-- Reschedule attempts are bounded over whole chains whose times move forward: no window
`[T, T + Interval)` holds more than `Attempts` of the chain's reschedule events. -/
theorem chain_reschedules_within_attempts (p : ReschedulePolicy) (hv : p.Validate = [])
    (hA : 0 < p.Attempts) (a : Allocation) (hops : List (Time × Allocation))
    (hpa : a.ReschedulePolicy = some p) (hchain : Chain p a hops)
    (hcreated : ∀ h ∈ hops, h.1.ns ≤ h.2.LastEventTime.ns)
    (hrange : a.LastEventTime.InUnixRange ∧
      ∀ h ∈ hops, h.1.InUnixRange ∧ h.2.LastEventTime.InUnixRange) (T : Int) :
    ((Window.inWindow p.Interval T (rescheduleTimes hops)).length : Int) ≤ p.Attempts := by
  have hI := p.interval_pos_of_validate hv hA
  have hs := Tracks.chain hI hA hops (tracks_start p a a.LastEventTime.UnixNano) hpa le_rfl
    hrange.1 hchain hcreated hrange.2
  rw [List.nil_append] at hs
  have := hs.length_inWindow_le T
  omega

def thriceInThirty : ReschedulePolicy :=
  { Attempts := 3, Interval := 30000000000, Delay := 5000000000, DelayFunction := "constant",
    MaxDelay := 0, Unlimited := false }

def thriceGroup : TaskGroup :=
  { Name := "web", Count := 1, Update := none, ReschedulePolicy := some thriceInThirty }

def thriceJob : Job :=
  { ID := "web", Namespace := "default", «Type» := "service", Priority := 50, Stop := false,
    Version := 0, CreateIndex := 10, ModifyIndex := 10, JobModifyIndex := 10,
    TaskGroups := [thriceGroup] }

def failedAt (failed : Int) : Allocation :=
  { ID := "a", Name := 0, JobID := "web", Job := thriceJob, TaskGroup := "web", NodeID := "n1",
    DesiredStatus := .run, DesiredTransition := ⟨none, none, none⟩, ClientStatus := .failed,
    DeploymentID := "", DeploymentStatus := none, TaskStates := [], RescheduleTracker := none,
    NextAllocation := "", FollowupEvalID := "", ModifyTime := failed * 1000000000 }

def chainOf (prev : Allocation) : List (Int × Int) → List (Time × Allocation)
  | [] => []
  | (now, failed) :: rest =>
    match updateRescheduleTracker (failedAt failed) prev (Time.Unix now 0) with
    | .ok next => (Time.Unix now 0, next) :: chainOf next rest
    | _ => []

theorem chain_reschedules_within_attempts_web :
    ((Window.inWindow thriceInThirty.Interval 100000000000
      (rescheduleTimes (chainOf (failedAt 100) [(100, 101), (101, 140)]))).length : Int) ≤
        thriceInThirty.Attempts :=
  chain_reschedules_within_attempts thriceInThirty (by decide) (by decide) (failedAt 100) _ rfl
    (by decide) (by decide) (by decide) _

/-- The replacement created at 140 s fails at 102 s. Its tracker has dropped the events of 100 s
and 101 s, so two more reschedules pass, and the window `[100 s, 130 s)` holds four events. -/
def earlyFailureHops : List (Time × Allocation) :=
  chainOf (failedAt 100) [(100, 101), (101, 140), (140, 102), (102, 103), (103, 104)]

theorem chain_reschedules_exceed_attempts :
    thriceInThirty.Validate = [] ∧ (failedAt 100).ReschedulePolicy = some thriceInThirty ∧
      Chain thriceInThirty (failedAt 100) earlyFailureHops ∧
      (Window.inWindow thriceInThirty.Interval 100000000000
        (rescheduleTimes earlyFailureHops)).length = 4 ∧
      ¬ ∀ h ∈ earlyFailureHops, h.1.ns ≤ h.2.LastEventTime.ns := by
  decide

/-- Replacements created at 100, 101, 102 and 130 s along a chain whose times move forward. At
130 s the event of 100 s is `Interval` old and no longer counts, so the fourth hop passes. -/
def closedWindowHops : List (Time × Allocation) :=
  chainOf (failedAt 100) [(100, 101), (101, 102), (102, 130), (130, 131)]

/-- The bound is for half-open windows: the chain meets every condition of
`chain_reschedules_within_attempts`, and the closed window `[100 s, 130 s]` holds four events. -/
theorem chain_reschedules_fill_closed_window :
    thriceInThirty.Validate = [] ∧ (failedAt 100).ReschedulePolicy = some thriceInThirty ∧
      Chain thriceInThirty (failedAt 100) closedWindowHops ∧
      (∀ h ∈ closedWindowHops, h.1.ns ≤ h.2.LastEventTime.ns) ∧
      ((failedAt 100).LastEventTime.InUnixRange ∧
        ∀ h ∈ closedWindowHops, h.1.InUnixRange ∧ h.2.LastEventTime.InUnixRange) ∧
      ((rescheduleTimes closedWindowHops).filter fun t =>
        100000000000 ≤ t ∧ t ≤ 100000000000 + thriceInThirty.Interval).length = 4 := by
  decide

end Nomad.Scheduler
