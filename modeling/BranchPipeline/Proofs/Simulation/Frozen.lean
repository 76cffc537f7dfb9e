import Mathlib.Data.List.Forall2
import Mathlib.Logic.Relation
import BranchPipeline.Proofs.Simulation.Calls

namespace BranchPipeline
namespace Simulator

/-!
# A failed simulator is frozen

A cycle can fail half-way, with some of its stages done and the others not, and
the processor itself would go on from there.  What keeps it from doing so is the
fault that the simulator remembers: whatever is called afterwards, with whatever
options, is refused before any cycle.

A user calls for runs one after the other.  The first failing cycle splits their
sequence: up to it no fault is remembered, and from it on the simulator stays as
the cycle left it, down to the counts of accesses, which tell that somebody
looked.
-/

variable {β : Type} {options : Options} {observe : Observer β} {budget : Nat} {goal : Goal}
  {simulator before middle after reached : Simulator} {seen shown : β} {fault : Fault}

/-! ## Calls -/

/-- What a user can call for, each time with an observer. -/
inductive Call (β : Type) where
  | run (options : Options) (observe : Observer β) (budget : Nat)
  | runToExit (observe : Observer β) (budget : Nat)

/-- What comes back from a call. -/
inductive Answer where
  | ended (ending : RunEnd)
  | finished (outcome : Except String BranchRecord)

/-- Carries out one call, if it comes to an end. -/
def answer (simulator : Simulator) (seen : β) : Call β → Option (Answer × Simulator × β)
  | .run options observe budget => do
    let (ending, simulator, seen) ← simulator.run options observe budget seen
    return (.ended ending, simulator, seen)
  | .runToExit observe budget => do
    let (outcome, simulator, seen) ← simulator.runToExit observe budget seen
    return (.finished outcome, simulator, seen)

/-- Carries out one call after the other, as far as they come to an end. -/
def answerAll (simulator : Simulator) (seen : β) :
    List (Call β) → Option (List Answer × Simulator × β)
  | [] => some ([], simulator, seen)
  | call :: later => do
    let (answer, simulator, seen) ← simulator.answer seen call
    let (answers, simulator, seen) ← simulator.answerAll seen later
    return (answer :: answers, simulator, seen)

/-- The answer says that a cycle had failed before the call. -/
inductive Refuses (fault : Fault) : Call β → Answer → Prop
  | run {options : Options} {observe : Observer β} {budget : Nat} (watched : WatchedValues) :
      Refuses fault (.run options observe budget) (.ended (.stopped .cannotRestart watched))
  | runToExit {observe : Observer β} {budget : Nat} :
      Refuses fault (.runToExit observe budget)
        (.finished (.error ("cannot restart after: " ++ fault.message)))

/-! ## Calls of a failed simulator -/

end Simulator
end BranchPipeline
