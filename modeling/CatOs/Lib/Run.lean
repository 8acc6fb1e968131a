import Mathlib.Logic.Basic
import Mathlib.Logic.Relation

/-! Runs of a deterministic system: states reached by inputs, and what every run keeps. -/

namespace CatOs

section Runs

variable {σ ι : Type*}

/-- The states that allowed inputs lead to from a starting state. -/
inductive Run (step : ι → σ → σ) (allowed : ι → σ → Prop) (start : σ) : σ → Prop
  | start : Run step allowed start start
  | step {state : σ} (earlier : Run step allowed start state) (input : ι)
      (may : allowed input state) : Run step allowed start (step input state)

/-- What holds at the start and survives every allowed step holds along the whole run. -/
theorem Run.invariant {step : ι → σ → σ} {allowed : ι → σ → Prop} {start state : σ}
    (run : Run step allowed start state) (holds : σ → Prop) (initially : holds start)
    (preserved : ∀ input state, allowed input state → holds state → holds (step input state)) :
    holds state := by
  induction run with
  | start => exact initially
  | step earlier input may ih => exact preserved input _ may ih

/-- What every step keeps is kept by any number of steps. -/
theorem steps_keep {step : σ → σ → Prop} {first last : σ}
    (steps : Relation.ReflTransGen step first last) (holds : σ → Prop)
    (kept : ∀ state next, step state next → holds state → holds next) (initially : holds first) :
    holds last := by
  induction steps with
  | refl => exact initially
  | tail _ taken ih => exact kept _ _ taken ih

/-- The state that a sequence of inputs leads to. -/
def runInputs (step : ι → σ → σ) : List ι → σ → σ
  | [], state => state
  | input :: rest, state => runInputs step rest (step input state)

/-- Each input of a sequence is allowed in the state that the inputs before it lead to. -/
def AllAllowed (step : ι → σ → σ) (allowed : ι → σ → Prop) : List ι → σ → Prop
  | [], _ => True
  | input :: rest, state => allowed input state ∧ AllAllowed step allowed rest (step input state)

/-- Whether all inputs of a sequence are allowed can be decided by running it. -/
instance AllAllowed.decidable {step : ι → σ → σ} {allowed : ι → σ → Prop}
    [∀ input state, Decidable (allowed input state)] (inputs : List ι) (state : σ) :
    Decidable (AllAllowed step allowed inputs state) :=
  match inputs with
  | [] => inferInstanceAs (Decidable True)
  | input :: rest =>
    have : Decidable (AllAllowed step allowed rest (step input state)) :=
      AllAllowed.decidable rest (step input state)
    inferInstanceAs (Decidable (_ ∧ _))

/-- Every sequence of inputs is allowed where every input is. -/
theorem allAllowed_true {step : ι → σ → σ} (inputs : List ι) (state : σ) :
    AllAllowed step (fun _ _ => True) inputs state := by
  induction inputs generalizing state with
  | nil => trivial
  | cons input rest ih => exact ⟨trivial, ih (step input state)⟩

/-- A run goes on along any sequence of allowed inputs. -/
theorem Run.inputs {step : ι → σ → σ} {allowed : ι → σ → Prop} {start state : σ}
    (run : Run step allowed start state) (inputs : List ι)
    (may : AllAllowed step allowed inputs state) :
    Run step allowed start (runInputs step inputs state) := by
  induction inputs generalizing state with
  | nil => exact run
  | cons input rest ih => exact ih (run.step input may.1) may.2

theorem runInputs_append {step : ι → σ → σ} (first second : List ι) (state : σ) :
    runInputs step (first ++ second) state = runInputs step second (runInputs step first state) := by
  induction first generalizing state with
  | nil => rfl
  | cons input rest ih => exact ih (step input state)

/-- One input over and over leads where its iterates lead. -/
theorem runInputs_replicate {step : ι → σ → σ} (holds : Nat → σ → Prop) (input : ι) (count : Nat)
    (preserved : ∀ k state, k < count → holds k state → holds (k + 1) (step input state))
    {state : σ} (initially : holds 0 state) :
    holds count (runInputs step (List.replicate count input) state) := by
  -- The last input is split off, so that the ones before it lead to its state.
  induction count with
  | zero => exact initially
  | succ count ih =>
    rw [List.replicate_succ', runInputs_append]
    exact preserved count _ (Nat.lt_succ_self count)
      (ih fun k state below => preserved k state (Nat.lt_succ_of_lt below))

/-- A property that survives exactly the allowed steps holds along exactly the allowed runs. -/
theorem allAllowed_iff {step : ι → σ → σ} {allowed : ι → σ → Prop} {holds : σ → Prop}
    (survives : ∀ input state, holds state → (holds (step input state) ↔ allowed input state))
    (inputs : List ι) {state : σ} (initially : holds state) :
    (∀ count, holds (runInputs step (inputs.take count) state)) ↔
      AllAllowed step allowed inputs state := by
  induction inputs generalizing state with
  | nil =>
    constructor
    · intro _
      trivial
    · intro _ count
      rw [List.take_nil]
      exact initially
  | cons input rest ih =>
    constructor
    · intro always
      have first : holds (step input state) := always 1
      refine ⟨(survives input state initially).mp first, (ih first).mp fun count => ?_⟩
      exact always (count + 1)
    · intro allowed count
      have first := (survives input state initially).mpr allowed.1
      cases count with
      | zero => exact initially
      | succ count => exact (ih first).mpr allowed.2 count

/-- A relation that every input keeps is kept by every sequence of inputs. -/
theorem runInputs_related {step : ι → σ → σ} {related : σ → σ → Prop}
    (preserved : ∀ input state image, related state image →
      related (step input state) (step input image)) (inputs : List ι) {state image : σ}
    (initially : related state image) :
    related (runInputs step inputs state) (runInputs step inputs image) := by
  induction inputs generalizing state image with
  | nil => exact initially
  | cons input rest ih => exact ih (preserved input state image initially)

end Runs

end CatOs
