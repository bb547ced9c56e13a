import Mathlib
import Nomad.Go.Strings

/-!
# Port range specifications

`ParsePortRanges` reads a comma-separated list of ports and inclusive ranges. The loop over a
range counts a `uint64` up to the range's end, so a range that ends at the largest `uint64`
never stops; the model runs that loop on fuel. Below that end, with fuel for any range, the
parse returns the sorted union of what the elements list, or the error of the first element
that lists nothing.
-/

namespace Nomad.Structs

open Go

inductive PortElement where
  | port (port : Nat)
  | range (start stop : Nat)
  deriving DecidableEq, Repr

def PortElement.Covers : PortElement → Nat → Prop
  | .port n, p => p = n
  | .range start stop, p => start ≤ p ∧ p ≤ stop

instance (el : PortElement) (p : Nat) : Decidable (el.Covers p) := by
  cases el <;> unfold PortElement.Covers <;> infer_instance

/-- The switch on the hyphen-separated pieces of one trimmed part, with the errors it returns. -/
-- irreducible: unfolded on a string variable it runs into the byte-level recursion of `String`,
-- and every proof below reads it through an equation on a concrete part
@[irreducible] def parsePortElement (part : String) : Except String PortElement :=
  let part := strings.TrimSpace part
  match strings.Split part '-' with
  | [val] =>
    if val = "" then .error "can't specify empty port"
    else (strconv.ParseUint val).map .port
  | [first, last] => do
    let start ← strconv.ParseUint first
    let stop ← strconv.ParseUint last
    if stop < start then
      .error ("invalid range: starting value (" ++ toString stop ++ ") less than ending (" ++
        toString start ++ ") value")
    else pure (.range start stop)
  | _ => .error "can only parse single port numbers or port ranges (ex. 80,100-120,150)"

/-- `for i := start; i <= end; i++ { ports[i] = struct{}{} }` on `uint64`, for at most `fuel`
iterations. -/
def portRangeLoop : Nat → Nat → Nat → List Nat → Option (List Nat)
  | 0, _, _, _ => none
  | fuel + 1, i, stop, ports =>
    if i ≤ stop then portRangeLoop fuel ((i + 1) % 2 ^ 64) stop (ports.insert i) else some ports

def PortElement.insertInto (fuel : Nat) : PortElement → List Nat → Option (List Nat)
  | .port n, ports => some (ports.insert n)
  | .range start stop, ports => portRangeLoop fuel start stop ports

/-- The loop over the parts; `none` when a range loop runs out of fuel. -/
def parsePortParts (fuel : Nat) : List Nat → List String → Option (Except String (List Nat))
  | ports, [] => some (.ok ports)
  | ports, part :: parts =>
    match parsePortElement part with
    | .error err => some (.error err)
    | .ok el =>
      match el.insertInto fuel ports with
      | none => none
      | some ports => parsePortParts fuel ports parts

/-- `ParsePortRanges(spec)`. The map of ports is a duplicate-free list: Go reads the map back in
any order, and `sort.Slice` puts the ports in increasing order whatever that order was. -/
def ParsePortRanges (fuel : Nat) (spec : String) : Option (Except String (List Nat)) :=
  let parts := strings.Split spec ','
  -- the hot path of the empty spec
  if parts.length = 1 ∧ parts.head? = some "" then some (.ok [])
  else (parsePortParts fuel [] parts).map fun r => r.map (·.insertionSort (· ≤ ·))

example : ParsePortRanges 10 "10,12-14,16" = some (.ok [10, 12, 13, 14, 16]) := by decide +kernel

/-- What a spec lists, element by element, or the error of its first element that lists
nothing: the reading of the spec whose ports `ParsePortRanges` returns. -/
def portElements (spec : String) : Except String (List PortElement) :=
  let parts := strings.Split spec ','
  if parts.length = 1 ∧ parts.head? = some "" then .ok [] else parts.mapM parsePortElement

def RangeEndsBelowMax (part : String) : Prop :=
  match parsePortElement part with
  | .ok (.range _ stop) => stop < 2 ^ 64 - 1
  | _ => True

instance (part : String) : Decidable (RangeEndsBelowMax part) := by
  unfold RangeEndsBelowMax
  split <;> infer_instance

/-- At the largest `uint64` the loop condition holds for every `i`, and the increment wraps. -/
theorem portRangeLoop_maxUint (fuel i : Nat) (ports : List Nat) (hi : i < 2 ^ 64) :
    portRangeLoop fuel i (2 ^ 64 - 1) ports = none := by
  induction fuel generalizing i ports with
  | zero => rfl
  | succ fuel ih =>
    have hle : i ≤ 2 ^ 64 - 1 := by omega
    rw [portRangeLoop, if_pos hle]
    exact ih _ _ (Nat.mod_lt _ (Nat.two_pow_pos 64))

/-- A spec of one range up to the largest `uint64`: it lists the ports `0` to `2^64 - 1`, and
`ParsePortRanges` returns for no fuel at all. -/
theorem parsePortRanges_never_returns_at_max_uint64 :
    portElements "0-18446744073709551615" = .ok [.range 0 (2 ^ 64 - 1)] ∧
      ∀ fuel, ParsePortRanges fuel "0-18446744073709551615" = none := by
  refine ⟨by decide +kernel, fun fuel => ?_⟩
  have hsplit : strings.Split "0-18446744073709551615" ',' = ["0-18446744073709551615"] := by
    decide +kernel
  have hel : parsePortElement "0-18446744073709551615" = .ok (.range 0 (2 ^ 64 - 1)) := by
    decide +kernel
  simp only [ParsePortRanges, hsplit, parsePortParts, hel, PortElement.insertInto,
    portRangeLoop_maxUint fuel 0 [] (Nat.two_pow_pos 64)]
  rfl

theorem portRangeLoop_spec (fuel i stop : Nat) (ports : List Nat) (hstop : stop < 2 ^ 64 - 1)
    (hfuel : stop + 1 - i < fuel) :
    ∃ ports', portRangeLoop fuel i stop ports = some ports' ∧ (ports.Nodup → ports'.Nodup) ∧
      ∀ p, p ∈ ports' ↔ p ∈ ports ∨ (i ≤ p ∧ p ≤ stop) := by
  induction fuel generalizing i ports with
  | zero => omega
  | succ fuel ih =>
    by_cases hi : i ≤ stop
    · -- below the largest `uint64` the increment does not wrap
      have hnext : (i + 1) % 2 ^ 64 = i + 1 := Nat.mod_eq_of_lt (by omega)
      obtain ⟨ports', hloop, hnodup, hmem⟩ := ih (i + 1) (ports.insert i) (by omega)
      refine ⟨ports', ?_, fun h => hnodup h.insert, fun p => ?_⟩
      · rw [portRangeLoop, if_pos hi, hnext, hloop]
      · rw [hmem, List.mem_insert_iff]
        by_cases hp : p ∈ ports
        · simp only [hp, or_true, true_or]
        · simp only [hp, or_false, false_or]
          omega
    · refine ⟨ports, by rw [portRangeLoop, if_neg hi], id, fun p => ?_⟩
      constructor
      · exact Or.inl
      · rintro (hp | hp)
        · exact hp
        · omega

theorem PortElement.insertInto_spec (fuel : Nat) (el : PortElement) (ports : List Nat)
    (hrange : ∀ start stop, el = .range start stop → stop < 2 ^ 64 - 1 ∧ stop + 1 - start < fuel) :
    ∃ ports', el.insertInto fuel ports = some ports' ∧ (ports.Nodup → ports'.Nodup) ∧
      ∀ p, p ∈ ports' ↔ p ∈ ports ∨ el.Covers p := by
  cases el with
  | port n =>
    refine ⟨ports.insert n, rfl, fun h => h.insert, fun p => ?_⟩
    rw [List.mem_insert_iff, Covers, or_comm]
  | range start stop =>
    obtain ⟨hstop, hfuel⟩ := hrange start stop rfl
    exact portRangeLoop_spec fuel start stop ports hstop hfuel

theorem PortElement.insertInto_of_parse {fuel : Nat} (hfuel : 2 ^ 64 ≤ fuel) {part : String}
    {el : PortElement} (hel : parsePortElement part = .ok el) (hend : RangeEndsBelowMax part)
    (ports : List Nat) :
    ∃ ports', el.insertInto fuel ports = some ports' ∧ (ports.Nodup → ports'.Nodup) ∧
      ∀ p, p ∈ ports' ↔ p ∈ ports ∨ el.Covers p := by
  refine el.insertInto_spec fuel ports fun start stop hrange => ?_
  subst hrange
  simp only [RangeEndsBelowMax, hel] at hend
  exact ⟨hend, by omega⟩

/-- The loop over the parts returns the first element's error, or the ports of all elements.
The induction is on the parts, with the ports set so far generalized. -/
theorem parsePortParts_spec {fuel : Nat} (hfuel : 2 ^ 64 ≤ fuel) (parts : List String)
    (hend : ∀ part ∈ parts, RangeEndsBelowMax part) (ports : List Nat) (hports : ports.Nodup) :
    (∀ err, parts.mapM parsePortElement = .error err →
      parsePortParts fuel ports parts = some (.error err)) ∧
    (∀ els, parts.mapM parsePortElement = .ok els → ∃ ports',
      parsePortParts fuel ports parts = some (.ok ports') ∧ ports'.Nodup ∧
        ∀ p, p ∈ ports' ↔ p ∈ ports ∨ ∃ el ∈ els, el.Covers p) := by
  induction parts generalizing ports with
  | nil =>
    refine ⟨(fun err h => by cases h), ?_⟩
    rintro els ⟨⟩
    exact ⟨ports, rfl, hports, by simp⟩
  | cons part parts ih =>
    have hpart : RangeEndsBelowMax part := hend part List.mem_cons_self
    cases hel : parsePortElement part with
    | error err =>
      -- the first element's error ends both loops
      refine ⟨fun err' h => ?_, fun els h => ?_⟩
      · simp only [List.mapM_cons, hel, bind, Except.bind, Except.error.injEq] at h
        simp only [parsePortParts, hel, h]
      · simp only [List.mapM_cons, hel, bind, Except.bind, reduceCtorEq] at h
    | ok el =>
      obtain ⟨ports₁, hins, hnd, hmem⟩ :=
        PortElement.insertInto_of_parse hfuel hel hpart ports
      obtain ⟨herr, hok⟩ := ih (fun q hq => hend q (List.mem_cons_of_mem _ hq)) ports₁ (hnd hports)
      have hstep : parsePortParts fuel ports (part :: parts) = parsePortParts fuel ports₁ parts := by
        simp only [parsePortParts, hel, hins]
      rw [hstep]
      cases hr : parts.mapM parsePortElement with
      | error err =>
        refine ⟨fun err' h => ?_, fun els h => ?_⟩
        · simp only [List.mapM_cons, hel, hr, bind, Except.bind, Except.error.injEq] at h
          rw [← h]
          exact herr err hr
        · simp only [List.mapM_cons, hel, hr, bind, Except.bind, reduceCtorEq] at h
      | ok els₁ =>
        refine ⟨fun err' h => ?_, fun els h => ?_⟩
        · simp only [List.mapM_cons, hel, hr, bind, Except.bind, pure, Except.pure,
            reduceCtorEq] at h
        · simp only [List.mapM_cons, hel, hr, bind, Except.bind, pure, Except.pure,
            Except.ok.injEq] at h
          subst h
          obtain ⟨ports', hrun, hnd', hmem'⟩ := hok els₁ hr
          refine ⟨ports', hrun, hnd', fun p => ?_⟩
          rw [hmem', hmem]
          simp only [List.mem_cons, or_and_right, exists_or, exists_eq_left, or_assoc]

theorem pairwise_lt_insertionSort {l : List Nat} (h : l.Nodup) :
    (l.insertionSort (· ≤ ·)).Pairwise (· < ·) := by
  have hnd : (l.insertionSort (· ≤ ·)).Nodup := (List.perm_insertionSort _ l).nodup_iff.mpr h
  exact ((List.pairwise_insertionSort _ l).and hnd).imp fun ⟨hle, hne⟩ => lt_of_le_of_ne hle hne

/-- With fuel for any range and no range up to the largest `uint64`, `ParsePortRanges` returns
the error of the first element that lists nothing, or the increasing list of the ports the
elements list. -/
theorem parsePortRanges_spec (spec : String) (fuel : Nat) (hfuel : 2 ^ 64 ≤ fuel)
    (hend : ∀ part ∈ strings.Split spec ',', RangeEndsBelowMax part) :
    (∀ err, portElements spec = .error err → ParsePortRanges fuel spec = some (.error err)) ∧
    (∀ els, portElements spec = .ok els → ∃ ports, ParsePortRanges fuel spec = some (.ok ports) ∧
      ports.Pairwise (· < ·) ∧ ∀ p, p ∈ ports ↔ ∃ el ∈ els, el.Covers p) := by
  unfold portElements ParsePortRanges
  dsimp only
  split
  · -- the empty spec lists nothing
    refine ⟨(fun err h => by cases h), ?_⟩
    rintro els ⟨⟩
    exact ⟨[], rfl, List.Pairwise.nil, by simp⟩
  · obtain ⟨herr, hok⟩ := parsePortParts_spec hfuel _ hend [] List.nodup_nil
    refine ⟨fun err h => by rw [herr err h]; rfl, fun els h => ?_⟩
    obtain ⟨ports, hrun, hnd, hmem⟩ := hok els h
    refine ⟨ports.insertionSort (· ≤ ·), by rw [hrun]; rfl, pairwise_lt_insertionSort hnd,
      fun p => ?_⟩
    rw [(List.perm_insertionSort _ ports).mem_iff, hmem]
    simp

theorem parsePortRanges_spec_tenToSixteen :
    (∀ part ∈ strings.Split "10,12-14,16" ',', RangeEndsBelowMax part) ∧
    (∀ err, portElements "10,12-14,16" = .error err →
      ParsePortRanges (2 ^ 64) "10,12-14,16" = some (.error err)) ∧
    (∀ els, portElements "10,12-14,16" = .ok els → ∃ ports,
      ParsePortRanges (2 ^ 64) "10,12-14,16" = some (.ok ports) ∧
        ports.Pairwise (· < ·) ∧ ∀ p, p ∈ ports ↔ ∃ el ∈ els, el.Covers p) :=
  have hend : ∀ part ∈ strings.Split "10,12-14,16" ',', RangeEndsBelowMax part := by
    decide +kernel
  ⟨hend, parsePortRanges_spec "10,12-14,16" (2 ^ 64) le_rfl hend⟩

end Nomad.Structs
