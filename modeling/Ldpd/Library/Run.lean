/-
This file holds the rules for runs: a system takes one event after another, and
what holds at the start and survives every allowed step holds in every state a
run of allowed steps reaches. The second half is about steps that need not lead
anywhere.
-/

import Mathlib

namespace Run

variable {State Event : Type} (step : State → Event → State) (allowed : State → Event → Prop)

/-- Every step of a run is allowed in the state it is taken in. -/
def Allowed : State → List Event → Prop
  | _, [] => True
  | state, event :: rest => allowed state event ∧ Allowed (step state event) rest

instance decidableAllowed [∀ state event, Decidable (allowed state event)] :
    ∀ (state : State) (events : List Event), Decidable (Allowed step allowed state events)
  | _, [] => .isTrue trivial
  | state, event :: rest =>
    have : Decidable (Allowed step allowed (step state event) rest) :=
      decidableAllowed (step state event) rest
    inferInstanceAs (Decidable (allowed state event ∧ Allowed step allowed (step state event) rest))

variable {step allowed}

/-- What holds at the start and survives every allowed step holds at the end of a run. -/
theorem foldl_of_allowed (invariant : State → Prop)
    (preserved : ∀ state event, invariant state → allowed state event →
      invariant (step state event)) {events : List Event} {state : State}
    (start : invariant state) (legal : Allowed step allowed state events) :
    invariant (events.foldl step state) := by
  induction events generalizing state with
  | nil => exact start
  | cons event rest inductionHypothesis =>
    exact inductionHypothesis (preserved state event start legal.1) legal.2

/-- A reflexive and transitive relation that every step keeps to relates the start of a run to its
end. -/
theorem foldl_related {related : State → State → Prop} (refl : ∀ state, related state state)
    (trans : ∀ {first second third}, related first second → related second third →
      related first third) (each : ∀ state event, related state (step state event))
    (events : List Event) (state : State) : related state (events.foldl step state) := by
  induction events generalizing state with
  | nil => exact refl state
  | cons event rest inductionHypothesis =>
    exact trans (each state event) (inductionHypothesis (step state event))

/-- Two ways to say which steps are allowed agree on a run when they agree on every state that the
steps allowed so far lead to. -/
theorem allowed_congr {allowed' : State → Event → Prop} (invariant : State → Prop)
    (agree : ∀ state event, invariant state → (allowed state event ↔ allowed' state event))
    (preserved : ∀ state event, invariant state → allowed state event →
      invariant (step state event)) {events : List Event} {state : State}
    (start : invariant state) :
    Allowed step allowed state events ↔ Allowed step allowed' state events := by
  induction events generalizing state with
  | nil => exact Iff.rfl
  | cons event rest inductionHypothesis =>
    refine (and_congr_right fun now => ?_).trans (and_congr_left fun _ => agree state event start)
    exact inductionHypothesis (preserved state event start now)

/-- A run ends well if and only if all its steps are allowed, when a step that is allowed is one
that keeps things well. -/
theorem foldl_iff_allowed (invariant good : State → Prop)
    (exact : ∀ state event, invariant state →
      (good (step state event) ↔ good state ∧ allowed state event))
    (preserved : ∀ state event, invariant state → invariant (step state event))
    {events : List Event} {state : State} (start : invariant state) :
    good (events.foldl step state) ↔ good state ∧ Allowed step allowed state events := by
  induction events generalizing state with
  | nil => exact (and_iff_left trivial).symm
  | cons event rest inductionHypothesis =>
    rw [List.foldl_cons, inductionHypothesis (preserved state event start),
      exact state event start, and_assoc]
    rfl

theorem allowed_append {before after : List Event} {state : State} :
    Allowed step allowed state (before ++ after) ↔
      Allowed step allowed state before ∧ Allowed step allowed (before.foldl step state) after := by
  induction before generalizing state with
  | nil => exact (and_iff_right trivial).symm
  | cons event rest inductionHypothesis =>
    rw [List.cons_append, List.foldl_cons]
    simp only [Allowed]
    rw [inductionHypothesis, and_assoc]

theorem Allowed.mono {strict : State → Event → Prop}
    (weaker : ∀ state event, strict state event → allowed state event) {events : List Event}
    {state : State} (legal : Allowed step strict state events) :
    Allowed step allowed state events := by
  induction events generalizing state with
  | nil => trivial
  | cons event rest inductionHypothesis =>
    exact ⟨weaker state event legal.1, inductionHypothesis legal.2⟩

/-! ### Steps that may lead nowhere -/

section Partial

variable (advance : State → Event → Option State) (allowed : State → Event → Prop)

/-- The states that runs of allowed steps reach. -/
inductive Reaches (start : State) : State → Prop
  | start : Reaches start start
  | step {state state' : State} {event : Event} (reached : Reaches start state)
      (legal : allowed state event) (leads : advance state event = some state') :
      Reaches start state'

variable {advance allowed}

/-- What holds at the start and survives every allowed step holds in every state that is reached. -/
theorem Reaches.invariant {start state : State} (invariant : State → Prop)
    (preserved : ∀ state event state', invariant state → allowed state event →
      advance state event = some state' → invariant state') (holds : invariant start)
    (reached : Reaches advance allowed start state) : invariant state := by
  induction reached with
  | start => exact holds
  | step _ legal leads inductionHypothesis => exact preserved _ _ _ inductionHypothesis legal leads

/-- A list of steps reaches a state. -/
theorem Reaches.foldlM {start state : State} (reached : Reaches advance allowed start state)
    (events : List Event) (legal : ∀ state, ∀ event ∈ events, allowed state event) {state' : State}
    (leads : events.foldlM advance state = some state') :
    Reaches advance allowed start state' := by
  induction events generalizing state with
  | nil =>
    cases leads
    exact reached
  | cons event rest inductionHypothesis =>
    rw [List.foldlM_cons] at leads
    obtain ⟨next, first, others⟩ := Option.bind_eq_some_iff.mp leads
    exact inductionHypothesis (reached.step (legal _ event List.mem_cons_self) first)
      (fun state other member => legal state other (List.mem_cons_of_mem event member)) others

end Partial

end Run
