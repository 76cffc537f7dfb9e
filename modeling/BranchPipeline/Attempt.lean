namespace BranchPipeline

/-!
# Operations that may fail half-way

A buffer pair, a predictor or a processor can find out in the middle of an
operation that it cannot go on.  What the operation has done until then stays
done: the fault comes back together with the state in which it arose.
-/

/-- An operation on a state that ends with a value or a fault, and in either
case with the state it has reached. -/
abbrev Attempt (σ ε α : Type) := ExceptT ε (StateM σ) α

namespace Attempt

variable {σ τ ε φ α : Type}

/-- Runs an operation from a state. -/
def perform (attempt : Attempt σ ε α) (state : σ) : Except ε α × σ :=
  (ExceptT.run attempt).run state

/-- A result that leaves the state alone, its fault wrapped. -/
def ofExcept (wrap : ε → φ) : Except ε α → Attempt σ φ α
  | .ok value => pure value
  | .error fault => throw (wrap fault)

/-- Runs an operation on a part of the state, its fault wrapped. -/
def onPart (part : σ → τ) (replace : τ → σ → σ) (wrap : ε → φ) (attempt : Attempt τ ε α) :
    Attempt σ φ α := do
  let (result, changed) := attempt.perform (part (← get))
  modify (replace changed)
  ofExcept wrap result

end Attempt
end BranchPipeline
