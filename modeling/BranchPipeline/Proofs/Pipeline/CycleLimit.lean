import BranchPipeline.Proofs.Pipeline.Accesses

namespace BranchPipeline
namespace Processor

open Attempt

/-!
# Cycles under another limit

Only the begin of a cycle looks at the limit of cycles.  Two processors that
differ in their limit only do the same in their next cycle, however it ends, and
differ in the same way afterwards, as long as neither of them is at its limit.
-/

/-- The processor under another limit of cycles. -/
def withLimit (processor : Processor) (limit : Option Nat) : Processor :=
  { processor with cycleLimit := limit }

/-- The second processor is the first one under another limit. -/
def Relimited (limit : Option Nat) (first second : Processor) : Prop :=
  second = first.withLimit limit

section

variable {limit : Option Nat} {α : Type}

/-- What the operation does does not depend on the limit. -/
abbrev Unaware (limit : Option Nat) (attempt : Attempt Processor Fault α) : Prop :=
  attempt.Respects (Relimited limit)

theorem unaware_onPart {τ ε : Type} {part : Processor → τ} {replace : τ → Processor → Processor}
    {wrap : ε → Fault} (operation : Attempt τ ε α)
    (same : ∀ processor, part (processor.withLimit limit) = part processor)
    (apart : ∀ value processor,
      replace value (processor.withLimit limit) = (replace value processor).withLimit limit) :
    Unaware limit (onPart part replace wrap operation) := by
  have self : operation.Respects Eq := by
    rintro first _ rfl
    exact ⟨rfl, rfl⟩
  refine respects_onPart self ?_ ?_
  · rintro first _ rfl
    exact (same first).symm
  · rintro first _ value _ rfl rfl
    exact apart value first

theorem unaware_onMachine (operation : Attempt Machine Fault α) :
    Unaware limit (onMachine operation) :=
  unaware_onPart operation (fun _ => rfl) fun _ _ => rfl

theorem unaware_onPredictor (operation : Attempt Predictor BufferFault α) :
    Unaware limit (onPredictor operation) :=
  unaware_onPart operation (fun _ => rfl) fun _ _ => rfl

theorem unaware_onInFlight (operation : Attempt InFlight BufferFault α) :
    Unaware limit (onInFlight operation) :=
  unaware_onPart operation (fun _ => rfl) fun _ _ => rfl

/-- The processor may be looked at in everything but its limit. -/
theorem unaware_get {rest : Processor → Attempt Processor Fault α}
    (unaware : ∀ processor, Unaware limit (rest processor))
    (same : ∀ processor, rest (processor.withLimit limit) = rest processor) :
    Unaware limit (get >>= rest) := by
  refine respects_get_bind ?_
  rintro first _ rfl
  rw [same]
  exact unaware first rfl

theorem unaware_modify {change : Processor → Processor}
    (same : ∀ processor, change (processor.withLimit limit) = (change processor).withLimit limit) :
    Unaware limit (modify change) := by
  refine respects_modify ?_
  rintro first _ rfl
  exact same first

theorem unaware_modify_return {change : Processor → Processor} {value : α}
    (same : ∀ processor, change (processor.withLimit limit) = (change processor).withLimit limit) :
    Unaware limit (do modify change; return value) :=
  (unaware_modify same).bind fun _ => respects_pure value

/-! ## The stages -/

theorem unaware_resolveBranch (op : MicroOp) (entry : ReorderEntry) (successor : Successor) :
    Unaware limit (resolveBranch op entry successor) := by
  refine (unaware_onMachine _).bind fun resolution => ?_
  refine (unaware_onPredictor _).bind fun _ => ?_
  dsimp only
  split
  · refine (unaware_modify fun _ => rfl).bind fun _ => ?_
    refine Respects.bind (unaware_modify fun _ => rfl) fun _ => ?_
    exact (unaware_onPredictor _).bind fun _ => unaware_modify_return fun _ => rfl
  · exact unaware_modify_return fun _ => rfl

theorem unaware_systemCall : Unaware limit systemCall := by
  refine (unaware_onMachine _).bind fun exits => ?_
  split
  · refine Respects.bind (unaware_modify fun _ => rfl) fun _ => ?_
    exact unaware_modify_return fun _ => rfl
  · exact respects_pure _

theorem unaware_execute : Unaware limit execute := by
  refine unaware_get (fun processor => ?_) fun _ => rfl
  split
  · exact unaware_modify_return fun _ => rfl
  · split
    · exact respects_pure _
    · exact (unaware_resolveBranch _ _ _).bind fun _ => unaware_modify_return fun _ => rfl
    · exact unaware_systemCall.bind fun _ => unaware_modify_return fun _ => rfl
    · exact (unaware_onMachine _).bind fun _ => unaware_modify_return fun _ => rfl

/-- Decode writes the processor that it has looked at back if there is no room, so
it looks at the limit too. -/
theorem unaware_decode : Unaware limit decode := by
  refine respects_get_bind ?_
  rintro first _ rfl
  simp only [perform_bind, perform_ofExcept, withLimit]
  cases Instruction.expand _ _ with
  | error fault => exact ⟨rfl, rfl⟩
  | ok group =>
    simp only [mapError_ok]
    by_cases crowded : first.inFlight.free < group.length
    · simp only [crowded, if_true]
      exact ⟨rfl, rfl⟩
    · simp only [crowded, if_false]
      have issues (token : String) : Unaware limit (do
          let location ← onMachine (Machine.readRegister (.full .mar))
          onInFlight (InFlight.issue group location)
          modify fun processor =>
            { processor with stalled := { fetch := false, decode := true, execute := false } }
          return some { location, instruction := token, group : Decoded }) := by
        refine (unaware_onMachine _).bind fun location => ?_
        exact (unaware_onInFlight _).bind fun _ => unaware_modify_return fun _ => rfl
      exact issues _ rfl

theorem unaware_fetch : Unaware limit fetch := by
  refine (unaware_onMachine _).bind fun current => ?_
  refine unaware_get (fun processor => ?_) fun _ => rfl
  refine (unaware_onPredictor _).bind fun location => ?_
  exact (unaware_onMachine _).bind fun token => unaware_modify_return fun _ => rfl

theorem unaware_unlessStalled {stalled : StageSet → Bool} {idle : α}
    {stage : Attempt Processor Fault α} (unaware : Unaware limit stage) :
    Unaware limit (unlessStalled stalled idle stage) := by
  refine unaware_get (fun processor => ?_) fun _ => rfl
  split
  · exact respects_pure _
  · exact unaware

/-- From its begin on, a cycle is the same under every limit. -/
theorem unaware_turn (cycle : Nat) : Unaware limit (turn cycle) := by
  refine (unaware_unlessStalled unaware_execute).bind fun execution => ?_
  refine (unaware_unlessStalled unaware_decode).bind fun decoded => ?_
  refine (unaware_unlessStalled (respects_map unaware_fetch)).bind fun fetched => ?_
  exact unaware_modify_return fun _ => rfl

end

/-! ## One cycle -/

variable {before after : Processor} {outcome : Except Fault (CycleTrace × Flow)} {limit : Nat}

/-- Short of the limit, a cycle does what it does without any limit. -/
theorem runCycle_withLimit (unlimited : before.cycleLimit = none)
    (room : before.running = true → before.cycle < limit) :
    (before.withLimit (some limit)).runCycle =
      (before.runCycle.1, before.runCycle.2.withLimit (some limit)) := by
  cases running : before.running with
  | false =>
    have stopped : (before.withLimit (some limit)).running = false := running
    rw [runCycle_of_stopped running, runCycle_of_stopped stopped]
    rfl
  | true =>
    have still : (before.withLimit (some limit)).running = true := running
    rcases runCycle_of_running running with free | ⟨bound, -, bounded, -⟩
    · rcases runCycle_of_running still with bounded | ⟨bound, -, bounded, late⟩
      · have same : Relimited (some limit) before (before.withLimit (some limit)) := rfl
        have alike := unaware_turn before.cycle same
        rw [free, bounded]
        exact Prod.ext alike.result.symm alike.state
      · cases bounded
        exact absurd (room running) (Nat.not_lt.mpr late)
    · rw [unlimited] at bounded
      cases bounded

/-- Short of the limit, what a cycle does it also does without any limit. -/
theorem exists_runCycle_of_withLimit (unlimited : before.cycleLimit = none)
    (room : before.running = true → before.cycle < limit)
    (ran : (before.withLimit (some limit)).runCycle = (outcome, after)) :
    ∃ beyond, before.runCycle = (outcome, beyond) ∧ after = beyond.withLimit (some limit) := by
  rw [runCycle_withLimit unlimited room] at ran
  cases ran
  exact ⟨before.runCycle.2, rfl, rfl⟩

/-- At the limit, a running processor fails and stays as it is. -/
theorem runCycle_withLimit_of_late (running : before.running = true) (late : limit ≤ before.cycle) :
    (before.withLimit (some limit)).runCycle =
      (.error (.cycleLimit limit), before.withLimit (some limit)) := by
  have still : (before.withLimit (some limit)).running = true := running
  exact runCycle_of_late still rfl late

/-- No cycle changes the limit. -/
theorem cycleLimit_of_runCycle (ran : before.runCycle = (outcome, after)) :
    after.cycleLimit = before.cycleLimit := by
  cases running : before.running with
  | false =>
    rw [runCycle_of_stopped running] at ran
    cases ran
    rfl
  | true =>
    rcases runCycle_of_running running with turns | ⟨bound, late, -⟩
    · have self : Relimited before.cycleLimit before before := rfl
      have alike := unaware_turn before.cycle self
      rw [← turns, ran] at alike
      have same : after = after.withLimit before.cycleLimit := alike.state
      exact (congrArg cycleLimit same).trans rfl
    · rw [late] at ran
      cases ran
      rfl

/-- However a cycle ends, it completes one cycle at most, and none at the limit. -/
theorem cycle_le_of_runCycle (ran : before.runCycle = (outcome, after))
    (limited : before.cycleLimit = some limit) (few : before.cycle ≤ limit) :
    after.cycle ≤ limit := by
  cases outcome with
  | error fault =>
    rw [cycle_of_fails ran]
    exact few
  | ok result =>
    cases running : before.running with
    | false =>
      rw [runCycle_of_stopped running] at ran
      cases ran
      exact few
    | true =>
      have early : before.cycle < limit := by
        refine Nat.lt_of_not_le fun late => ?_
        rw [runCycle_of_late running limited late] at ran
        cases ran
      rw [(counted_of_runCycle running ran).2]
      exact early

end Processor
end BranchPipeline
