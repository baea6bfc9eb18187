import Mathlib

/-!
# Runs of a deterministic machine

A machine answers an input and moves to its next state.  What one step
guarantees is carried along a whole run by the rules below: an invariant of the
reached states, and a relation between two machines that are fed the same
inputs.
-/

namespace FacetOS.Runs

variable {State Other Input Output : Type*} (step : State → Input → Output × State)

/-- The answers along a sequence of inputs, and the state it leads to. -/
def outputs : State → List Input → List Output × State
  | state, [] => ([], state)
  | state, input :: inputs =>
    let next := step state input
    let rest := outputs next.2 inputs
    (next.1 :: rest.1, rest.2)

@[simp]
theorem outputs_nil (state : State) : outputs step state [] = ([], state) := rfl

theorem outputs_cons (state : State) (input : Input) (inputs : List Input) :
    outputs step state (input :: inputs)
      = ((step state input).1 :: (outputs step (step state input).2 inputs).1,
        (outputs step (step state input).2 inputs).2) := rfl

/-- The inputs of a run with their answers. -/
def trace : State → List Input → List (Input × Output)
  | _, [] => []
  | state, input :: inputs => (input, (step state input).1) :: trace (step state input).2 inputs

variable {step left : State → Input → Output × State} {right : Other → Input → Output × Other}
  {related : State → Other → Prop} {state : State} {other : Other} {invariant : State → Prop}

/-- What every input keeps holds after every run. -/
theorem invariant_outputs (hstep : ∀ state input, invariant state → invariant (step state input).2)
    (hstate : invariant state) (inputs : List Input) :
    invariant (outputs step state inputs).2 := by
  induction inputs generalizing state with
  | nil => exact hstate
  | cons input inputs ih => exact ih (hstep state input hstate)

/-- Every step of a run meets a condition on its input and the state it is taken in. -/
def Along (step : State → Input → Output × State) (condition : State → Input → Prop) :
    State → List Input → Prop
  | _, [] => True
  | state, input :: inputs =>
    condition state input ∧ Along step condition (step state input).2 inputs

instance instDecidableAlong {step : State → Input → Output × State}
    {condition : State → Input → Prop} [∀ state input, Decidable (condition state input)] :
    ∀ state inputs, Decidable (Along step condition state inputs)
  | _, [] => isTrue trivial
  | state, input :: inputs =>
    @instDecidableAnd _ _ inferInstance (instDecidableAlong (step state input).2 inputs)

/-- What every input keeps under the condition holds after every run along which the
condition is met. -/
theorem invariant_along {condition : State → Input → Prop}
    (hstep : ∀ state input, invariant state → condition state input →
      invariant (step state input).2) (hstate : invariant state) {inputs : List Input}
    (halong : Along step condition state inputs) : invariant (outputs step state inputs).2 := by
  induction inputs generalizing state with
  | nil => exact hstate
  | cons input inputs ih => exact ih (hstep state input hstate halong.1) halong.2

/-- Two conditions that agree in all states with an invariant are met along the same runs. -/
theorem along_congr {condition other : State → Input → Prop}
    (hiff : ∀ state input, invariant state → (condition state input ↔ other state input))
    (hstep : ∀ state input, invariant state → other state input → invariant (step state input).2)
    (hstate : invariant state) (inputs : List Input) :
    Along step condition state inputs ↔ Along step other state inputs := by
  induction inputs generalizing state with
  | nil => exact Iff.rfl
  | cons input inputs ih =>
    rw [Along, Along, hiff state input hstate]
    exact and_congr_right fun hmet => ih (hstep state input hstate hmet)

theorem along_and {condition other : State → Input → Prop} {inputs : List Input} :
    Along step (fun state input => condition state input ∧ other state input) state inputs
      ↔ Along step condition state inputs ∧ Along step other state inputs := by
  induction inputs generalizing state with
  | nil => simp [Along]
  | cons input inputs ih => rw [Along, Along, Along, ih, and_and_and_comm]

/-- An abstract state that follows the machine from input to input, told only what is
observed, has followed it after every run. -/
theorem simulates_trace {Abstract : Type*} {view : State → Abstract}
    {observe : Abstract → Input × Output → Abstract} (hstep : ∀ state input,
      view (step state input).2 = observe (view state) (input, (step state input).1))
    (state : State) (inputs : List Input) :
    view (outputs step state inputs).2 = (trace step state inputs).foldl observe (view state) := by
  induction inputs generalizing state with
  | nil => rfl
  | cons input inputs ih =>
    rw [trace, List.foldl_cons, ← hstep]
    exact ih _

/-- A relation that each common input keeps holds after every run. -/
theorem related_outputs (hstep : ∀ state other input, related state other →
      related (left state input).2 (right other input).2) (hrelated : related state other)
    (inputs : List Input) :
    related (outputs left state inputs).2 (outputs right other inputs).2 := by
  induction inputs generalizing state other with
  | nil => exact hrelated
  | cons input inputs ih => exact ih (hstep state other input hrelated)

/-- Two machines that keep a relation and answer alike in related states answer
alike along every run. -/
theorem outputs_related (hstep : ∀ state other input, related state other →
      (left state input).1 = (right other input).1
        ∧ related (left state input).2 (right other input).2) (hrelated : related state other)
    (inputs : List Input) :
    (outputs left state inputs).1 = (outputs right other inputs).1
      ∧ related (outputs left state inputs).2 (outputs right other inputs).2 := by
  refine ⟨?_, related_outputs (fun first second input hboth => (hstep first second input hboth).2)
    hrelated inputs⟩
  induction inputs generalizing state other with
  | nil => rfl
  | cons input inputs ih =>
    obtain ⟨hanswer, hnext⟩ := hstep state other input hrelated
    rw [outputs_cons, outputs_cons]
    exact congrArg₂ List.cons hanswer (ih hnext)

/-- Two machines that answer alike, and stay related, exactly under a condition on the
second one's steps answer alike along exactly the runs that meet the condition. -/
theorem outputs_eq_iff_along {condition : Other → Input → Prop}
    (hstep : ∀ state other input, related state other → condition other input →
      (left state input).1 = (right other input).1
        ∧ related (left state input).2 (right other input).2)
    (hdiffer : ∀ state other input, related state other → ¬ condition other input →
      (left state input).1 ≠ (right other input).1) (hrelated : related state other)
    (inputs : List Input) :
    (outputs left state inputs).1 = (outputs right other inputs).1
      ↔ Along right condition other inputs := by
  induction inputs generalizing state other with
  | nil => exact ⟨fun _ => trivial, fun _ => rfl⟩
  | cons input inputs ih =>
    rw [outputs_cons, outputs_cons, Along]
    by_cases hmet : condition other input
    · obtain ⟨hanswer, hnext⟩ := hstep state other input hrelated hmet
      rw [List.cons.injEq, and_iff_right hanswer, and_iff_right hmet]
      exact ih hnext
    · constructor
      · intro hsame
        exact absurd (List.cons.inj hsame).1 (hdiffer state other input hrelated hmet)
      · exact fun halong => absurd halong.1 hmet

end FacetOS.Runs
