import CatOs.Lib.Run

/-! Systems with outputs, and simulations: a relation that lets one system stand for another. -/

namespace CatOs

section Simulations

variable {σ τ ι ο : Type*}

/-- What a sequence of inputs makes a system put out. -/
def runOutputs (step : ι → σ → σ × ο) : List ι → σ → List ο
  | [], _ => []
  | input :: rest, state => (step input state).2 :: runOutputs step rest (step input state).1

/-- The next state of a system with outputs. -/
def nextState (step : ι → σ → σ × ο) (input : ι) (state : σ) : σ := (step input state).1

/-- A relation under which every allowed step is matched, output and all, by the other system. -/
def Simulates (step : ι → σ → σ × ο) (spec : ι → τ → τ × ο) (allowed : ι → σ → Prop)
    (related : σ → τ → Prop) : Prop :=
  ∀ input state abstract, allowed input state → related state abstract →
    related (step input state).1 (spec input abstract).1 ∧
      (step input state).2 = (spec input abstract).2

/-- A simulation goes along every allowed run: the outputs agree, and the last states too. -/
theorem Simulates.run {step : ι → σ → σ × ο} {spec : ι → τ → τ × ο} {allowed : ι → σ → Prop}
    {related : σ → τ → Prop} (matched : Simulates step spec allowed related) (inputs : List ι)
    {state : σ} {abstract : τ} (may : AllAllowed (nextState step) allowed inputs state)
    (initially : related state abstract) :
    runOutputs step inputs state = runOutputs spec inputs abstract ∧
      related (runInputs (nextState step) inputs state)
        (runInputs (nextState spec) inputs abstract) := by
  induction inputs generalizing state abstract with
  | nil => exact ⟨rfl, initially⟩
  | cons input rest ih =>
    obtain ⟨next, output⟩ := matched input state abstract may.1 initially
    obtain ⟨outputs, last⟩ := ih may.2 next
    exact ⟨congr (congrArg List.cons output) outputs, last⟩

end Simulations

end CatOs
