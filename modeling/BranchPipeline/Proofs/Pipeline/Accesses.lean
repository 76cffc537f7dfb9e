import BranchPipeline.Proofs.Machine.Accesses
import BranchPipeline.Proofs.Pipeline.Cycle

namespace BranchPipeline
namespace Processor

open Attempt

/-!
# Cycles do not depend on the counts of accesses

Two processors that differ in their counts of accesses only run the next cycle
with the same outcome, and differ in the same way afterwards.  The cycle counts
the same accesses in both.  What the stages do in a cycle, whether or not they
fail, does not count the cycle either: that is left to its end, which a failing
cycle does not reach.
-/

/-- The processor with other counts of accesses. -/
def withAccesses (processor : Processor) (accesses : AccessTally) : Processor :=
  { processor with machine := { processor.machine with accesses } }

/-- The processors differ at most in their counts of accesses. -/
def SameButAccesses (first second : Processor) : Prop :=
  ∃ accesses, second = first.withAccesses accesses

/-- The counts are also related. -/
structure Tied (related : AccessTally → AccessTally → Prop) (size : Nat) (range : Section)
    (first second : Processor) : Prop where
  same : first.SameButAccesses second
  machine : first.machine.Abreast related size range second.machine

/-- So many cycles have been completed, too. -/
structure Abreast (related : AccessTally → AccessTally → Prop) (size : Nat) (range : Section)
    (cycle : Nat) (first second : Processor) : Prop
    extends Tied related size range first second where
  cycle : first.cycle = cycle

section

variable {first second third : Processor}

theorem SameButAccesses.refl (processor : Processor) : processor.SameButAccesses processor :=
  ⟨processor.machine.accesses, rfl⟩

theorem SameButAccesses.trans (one : first.SameButAccesses second)
    (two : second.SameButAccesses third) : first.SameButAccesses third := by
  rcases one with ⟨_, rfl⟩
  rcases two with ⟨accesses, rfl⟩
  exact ⟨accesses, rfl⟩

theorem SameButAccesses.symm (same : first.SameButAccesses second) :
    second.SameButAccesses first := by
  rcases same with ⟨_, rfl⟩
  exact ⟨first.machine.accesses, rfl⟩

theorem SameButAccesses.cycle_eq (same : first.SameButAccesses second) :
    second.cycle = first.cycle := by
  rcases same with ⟨accesses, rfl⟩
  rfl

theorem SameButAccesses.running_eq (same : first.SameButAccesses second) :
    second.running = first.running := by
  rcases same with ⟨accesses, rfl⟩
  rfl

theorem SameButAccesses.cycleLimit_eq (same : first.SameButAccesses second) :
    second.cycleLimit = first.cycleLimit := by
  rcases same with ⟨accesses, rfl⟩
  rfl

theorem SameButAccesses.of_untouched {machine : Machine}
    (untouched : first.machine.Untouched machine) :
    first.SameButAccesses { first with machine } := by
  rcases machine with ⟨registers, memory, output, accesses⟩
  rcases untouched with ⟨rfl, rfl, rfl⟩
  exact ⟨accesses, rfl⟩

end

section

variable {related : AccessTally → AccessTally → Prop} {size : Nat} {range : Section} {cycle : Nat}
  {α : Type}

/-- What the stages do keeps processors abreast. -/
abbrev CountsAlike (related : AccessTally → AccessTally → Prop) (size : Nat) (range : Section)
    (cycle : Nat) (attempt : Attempt Processor Fault α) : Prop :=
  attempt.Respects (Abreast related size range cycle)

theorem countsAlike_onMachine {operation : Attempt Machine Fault α}
    (alike : Machine.CountsAlike related size range operation) :
    CountsAlike related size range cycle (onMachine operation) := by
  refine respects_onPart alike (fun _ _ abreast => abreast.machine) ?_
  rintro first _ one two ⟨⟨⟨accesses, rfl⟩, -⟩, counted⟩ abreast
  have same : SameButAccesses { first with machine := one } { first with machine := two } :=
    .of_untouched abreast.toUntouched
  exact ⟨⟨same, abreast⟩, counted⟩

/-- A part of the processor that is the same in both does the same in both. -/
theorem countsAlike_onPredictor (operation : Attempt Predictor BufferFault α) :
    CountsAlike related size range cycle (onPredictor operation) := by
  have same : operation.Respects Eq := by
    rintro first _ rfl
    exact ⟨rfl, rfl⟩
  refine respects_onPart same ?_ ?_
  · rintro first _ ⟨⟨⟨accesses, rfl⟩, -⟩, -⟩
    rfl
  · rintro first _ one _ ⟨⟨⟨accesses, rfl⟩, machine⟩, counted⟩ rfl
    exact ⟨⟨⟨accesses, rfl⟩, machine⟩, counted⟩

theorem countsAlike_onInFlight (operation : Attempt InFlight BufferFault α) :
    CountsAlike related size range cycle (onInFlight operation) := by
  have same : operation.Respects Eq := by
    rintro first _ rfl
    exact ⟨rfl, rfl⟩
  refine respects_onPart same ?_ ?_
  · rintro first _ ⟨⟨⟨accesses, rfl⟩, -⟩, -⟩
    rfl
  · rintro first _ one _ ⟨⟨⟨accesses, rfl⟩, machine⟩, counted⟩ rfl
    exact ⟨⟨⟨accesses, rfl⟩, machine⟩, counted⟩

/-- The processor may be looked at in what is not counted. -/
theorem countsAlike_get {rest : Processor → Attempt Processor Fault α}
    (alike : ∀ processor, CountsAlike related size range cycle (rest processor))
    (same : ∀ (processor : Processor) accesses,
      rest (processor.withAccesses accesses) = rest processor) :
    CountsAlike related size range cycle (get >>= rest) := by
  refine respects_get_bind ?_
  rintro first _ ⟨⟨⟨accesses, rfl⟩, machine⟩, counted⟩
  rw [same]
  exact alike first ⟨⟨⟨accesses, rfl⟩, machine⟩, counted⟩

/-- A change that leaves the machine and the number of cycles alone. -/
theorem countsAlike_modify {change : Processor → Processor}
    (apart : ∀ processor accesses,
      change (processor.withAccesses accesses) = (change processor).withAccesses accesses)
    (machine : ∀ processor, (change processor).machine = processor.machine)
    (counted : ∀ processor, (change processor).cycle = processor.cycle) :
    CountsAlike related size range cycle (modify change) := by
  refine respects_modify ?_
  rintro first _ ⟨⟨⟨accesses, rfl⟩, abreast⟩, rfl⟩
  refine ⟨⟨⟨accesses, apart first accesses⟩, ?_⟩, counted first⟩
  rw [machine, machine]
  exact abreast

theorem countsAlike_modify_return {change : Processor → Processor} {value : α}
    (apart : ∀ processor accesses,
      change (processor.withAccesses accesses) = (change processor).withAccesses accesses)
    (machine : ∀ processor, (change processor).machine = processor.machine)
    (counted : ∀ processor, (change processor).cycle = processor.cycle) :
    CountsAlike related size range cycle (do modify change; return value) :=
  (countsAlike_modify apart machine counted).bind fun _ => respects_pure value

theorem countsAlike_retire (op : MicroOp) :
    CountsAlike related size range cycle (modify (retire op)) :=
  countsAlike_modify (fun _ _ => rfl) (fun _ => rfl) fun _ => rfl

variable (steady : AccessTally.Steady related)

include steady

theorem countsAlike_flush : CountsAlike related size range cycle (modify flush) := by
  refine respects_modify ?_
  rintro first _ ⟨⟨⟨accesses, rfl⟩, abreast⟩, counted⟩
  exact ⟨⟨⟨_, rfl⟩,
    ((abreast.writeRegister steady _ _).writeText steady _ _).writeText steady _ _⟩, counted⟩

/-- Fetch is sent elsewhere. -/
theorem countsAlike_redirect (location : UInt64) :
    CountsAlike related size range cycle (modify fun processor =>
      { processor with machine := processor.machine.writeRegister (.full .rip) location }) := by
  refine respects_modify ?_
  rintro first _ ⟨⟨⟨accesses, rfl⟩, abreast⟩, counted⟩
  exact ⟨⟨⟨_, rfl⟩, abreast.writeRegister steady _ _⟩, counted⟩

theorem countsAlike_resolveBranch (op : MicroOp) (entry : ReorderEntry) (successor : Successor) :
    CountsAlike related size range cycle (resolveBranch op entry successor) := by
  refine Respects.bind (countsAlike_onMachine (Machine.countsAlike_resolve steady _ _))
    fun resolution => ?_
  refine (countsAlike_onPredictor _).bind fun _ => ?_
  have noted (outcome : BranchOutcome) (taken mispredicted : Bool) :
      CountsAlike related size range cycle (do
        modify fun processor =>
          { processor with
            record := processor.record.note processor.cycle mispredicted
            events := processor.events.branchResolved taken (!mispredicted) }
        return outcome) :=
    countsAlike_modify_return (fun _ _ => rfl) (fun _ => rfl) fun _ => rfl
  dsimp only
  split
  · refine (countsAlike_flush steady).bind fun _ => ?_
    refine (countsAlike_redirect steady _).bind fun _ => ?_
    exact (countsAlike_onPredictor _).bind fun _ => noted _ _ _
  · exact noted _ _ _

theorem countsAlike_systemCall : CountsAlike related size range cycle systemCall := by
  refine Respects.bind (countsAlike_onMachine (Machine.countsAlike_systemCall steady))
    fun exits => ?_
  split
  · refine Respects.bind (countsAlike_modify (fun _ _ => rfl) (fun _ => rfl) fun _ => rfl)
      fun _ => ?_
    exact (countsAlike_flush steady).bind fun _ => respects_pure _
  · exact respects_pure _

theorem countsAlike_execute : CountsAlike related size range cycle execute := by
  refine countsAlike_get (fun processor => ?_) fun _ _ => rfl
  split
  · exact countsAlike_modify_return (fun _ _ => rfl) (fun _ => rfl) fun _ => rfl
  · split
    · exact respects_pure _
    · exact (countsAlike_resolveBranch steady _ _ _).bind fun _ =>
        (countsAlike_retire _).bind fun _ => respects_pure _
    · exact (countsAlike_systemCall steady).bind fun _ =>
        (countsAlike_retire _).bind fun _ => respects_pure _
    · exact Respects.bind (countsAlike_onMachine (Machine.countsAlike_operate steady _)) fun _ =>
        (countsAlike_retire _).bind fun _ => respects_pure _

theorem countsAlike_decode : CountsAlike related size range cycle decode := by
  refine respects_get_bind ?_
  rintro first _ ⟨⟨⟨accesses, rfl⟩, machine⟩, counted⟩
  have abreast : first.Abreast related size range cycle (first.withAccesses accesses) :=
    ⟨⟨⟨accesses, rfl⟩, machine⟩, counted⟩
  simp only [perform_bind, perform_ofExcept, withAccesses]
  cases Instruction.expand _ _ with
  | error fault => exact ⟨rfl, abreast⟩
  | ok group =>
    simp only [mapError_ok]
    by_cases crowded : first.inFlight.free < group.length
    · simp only [crowded, if_true]
      exact ⟨rfl, ⟨⟨accesses, rfl⟩, machine⟩, counted⟩
    · simp only [crowded, if_false]
      have issues (token : String) : CountsAlike related size range cycle (do
          let location ← onMachine (Machine.readRegister (.full .mar))
          onInFlight (InFlight.issue group location)
          modify fun processor =>
            { processor with stalled := { fetch := false, decode := true, execute := false } }
          return some { location, instruction := token, group : Decoded }) := by
        refine Respects.bind (countsAlike_onMachine (Machine.countsAlike_readRegister steady _))
          fun location => ?_
        refine (countsAlike_onInFlight _).bind fun _ => ?_
        exact countsAlike_modify_return (fun _ _ => rfl) (fun _ => rfl) fun _ => rfl
      exact issues _ abreast

theorem countsAlike_instructionAt (location : UInt64) :
    Machine.CountsAlike related size range (instructionAt location) := by
  refine (Machine.countsAlike_readRegister steady _).bind fun textStart => ?_
  refine (Machine.countsAlike_readRegister steady _).bind fun dataStart => ?_
  split
  · exact (respects_ofExcept _ _).bind fun _ => Machine.countsAlike_readToken steady _
  · exact respects_pure _

theorem countsAlike_fetch : CountsAlike related size range cycle fetch := by
  refine Respects.bind (countsAlike_onMachine (Machine.countsAlike_readRegister steady _))
    fun current => ?_
  refine countsAlike_get (fun processor => ?_) fun _ _ => rfl
  refine (countsAlike_onPredictor _).bind fun location => ?_
  refine Respects.bind (countsAlike_onMachine ?_) fun token => ?_
  · refine Respects.bind (respects_modify fun _ _ abreast => ?_) fun _ => ?_
    · exact (abreast.writeRegister steady _ _).writeRegister steady _ _
    · refine (countsAlike_instructionAt steady _).bind fun token => ?_
      refine Respects.bind (respects_modify fun _ _ abreast => ?_) fun _ => respects_pure _
      exact (abreast.writeText steady _ _).writeText steady _ _
  · exact countsAlike_modify_return (fun _ _ => rfl) (fun _ => rfl) fun _ => rfl

omit steady in
theorem countsAlike_unlessStalled {stalled : StageSet → Bool} {idle : α}
    {stage : Attempt Processor Fault α} (alike : CountsAlike related size range cycle stage) :
    CountsAlike related size range cycle (unlessStalled stalled idle stage) := by
  refine countsAlike_get (fun processor => ?_) fun _ _ => rfl
  split
  · exact respects_pure _
  · exact alike

/-- What the three stages do in a cycle. -/
def stages : Attempt Processor Fault (Execution × Option Decoded × Option Fetched) := do
  let execution ← unlessStalled StageSet.execute {} execute
  let decoded ← unlessStalled StageSet.decode none decode
  let fetched ← unlessStalled StageSet.fetch none (some <$> fetch)
  return (execution, decoded, fetched)

theorem countsAlike_stages : CountsAlike related size range cycle stages := by
  refine (countsAlike_unlessStalled (countsAlike_execute steady)).bind fun execution => ?_
  refine (countsAlike_unlessStalled (countsAlike_decode steady)).bind fun decoded => ?_
  refine (countsAlike_unlessStalled (respects_map (countsAlike_fetch steady))).bind
    fun fetched => ?_
  exact respects_pure _

end

/-! ## One cycle -/

variable {related : AccessTally → AccessTally → Prop} {size : Nat} {range : Section}
  {first second before after : Processor}

/-- Behind its stages a cycle only ends. -/
theorem perform_turn (cycle : Nat) (before : Processor) :
    (turn cycle).perform before =
      match stages.perform before with
      | (.ok (execution, decoded, fetched), after) =>
        (.ok ({ cycle, fetched, fetchStalled := fetched.isNone, decoded,
                executed := execution.op, branch := execution.branch }, execution.flow),
          finish after)
      | (.error fault, after) => (.error fault, after) := by
  have split : turn cycle = (do
      let (execution, decoded, fetched) ← stages
      modify finish
      return (
        { cycle, fetched, fetchStalled := fetched.isNone, decoded, executed := execution.op
          branch := execution.branch },
        execution.flow)) := by
    simp only [turn, stages, bind_assoc, pure_bind]
  rw [split, perform_bind]
  cases stages.perform before with
  | mk result after => cases result <;> rfl

theorem Tied.turn (steady : AccessTally.Steady related)
    (tied : first.Tied related size range second) (cycle : Nat) :
    Alike (Tied related size range) ((turn cycle).perform first) ((turn cycle).perform second) := by
  have alike := countsAlike_stages steady ⟨tied, rfl⟩
  rw [perform_turn, perform_turn]
  cases one : stages.perform first with
  | mk result middle =>
    cases two : stages.perform second with
    | mk other between =>
      rw [one, two] at alike
      rcases alike with ⟨rfl, ⟨⟨accesses, rfl⟩, machine⟩, -⟩
      cases result with
      | ok done => exact ⟨rfl, ⟨accesses, rfl⟩, machine⟩
      | error fault => exact ⟨rfl, ⟨accesses, rfl⟩, machine⟩

/-- At the limit of cycles a running processor fails without doing anything. -/
theorem runCycle_of_late {limit : Nat} (running : before.running = true)
    (limited : before.cycleLimit = some limit) (late : limit ≤ before.cycle) :
    before.runCycle = (.error (.cycleLimit limit), before) := by
  unfold Processor.runCycle step
  simp only [perform_bind, perform_get, running, limited, Bool.not_true, Bool.false_eq_true,
    if_false, late, if_true, perform_throw]

/-- Tied processors have the same next cycle, which counts the same accesses in
both. -/
theorem Tied.runCycle (steady : AccessTally.Steady related)
    (tied : first.Tied related size range second) :
    Alike (Tied related size range) first.runCycle second.runCycle := by
  have cycle := tied.same.cycle_eq
  have limit := tied.same.cycleLimit_eq
  cases running : first.running with
  | false =>
    have still := tied.same.running_eq.trans running
    rw [runCycle_of_stopped running, runCycle_of_stopped still, cycle]
    exact ⟨rfl, tied⟩
  | true =>
    have still := tied.same.running_eq.trans running
    by_cases late : ∃ limit, first.cycleLimit = some limit ∧ limit ≤ first.cycle
    · rcases late with ⟨bound, limited, late⟩
      rw [runCycle_of_late running limited late,
        runCycle_of_late still (limit.trans limited) (cycle ▸ late)]
      exact ⟨rfl, tied⟩
    · rcases runCycle_of_running running with one | ⟨bound, -, limited, reached⟩
      · rcases runCycle_of_running still with two | ⟨bound, -, limited, reached⟩
        · rw [one, two, cycle]
          exact tied.turn steady first.cycle
        · exact absurd ⟨bound, limit ▸ limited, cycle ▸ reached⟩ late
      · exact absurd ⟨bound, limited, reached⟩ late

theorem SameButAccesses.tied (same : first.SameButAccesses second) :
    first.Tied (fun _ _ => True) first.machine.memory.size first.machine.memory.textSection
      second := by
  rcases same with ⟨accesses, rfl⟩
  exact ⟨⟨accesses, rfl⟩, ⟨rfl, rfl, rfl⟩, trivial, rfl, rfl⟩

/-- Processors that differ in their counts of accesses only have the same next
cycle. -/
theorem SameButAccesses.runCycle (same : first.SameButAccesses second) :
    Alike SameButAccesses first.runCycle second.runCycle := by
  have alike := same.tied.runCycle AccessTally.steady_true
  exact ⟨alike.result, alike.state.same⟩

/-- Only a running processor can fail. -/
theorem running_of_fails {fault : Fault} (fails : before.runCycle = (.error fault, after)) :
    before.running = true := by
  cases running : before.running with
  | true => rfl
  | false =>
    rw [runCycle_of_stopped running] at fails
    cases fails

/-- A cycle that fails is not counted. -/
theorem cycle_of_fails {fault : Fault} (fails : before.runCycle = (.error fault, after)) :
    after.cycle = before.cycle := by
  rcases runCycle_of_running (running_of_fails fails) with turns | ⟨limit, late, -⟩
  · have alike := countsAlike_stages AccessTally.steady_true
      ⟨(SameButAccesses.refl before).tied, rfl⟩
    rw [turns, perform_turn] at fails
    split at fails
    · cases fails
    · rename_i broken reached
      cases fails
      rw [reached] at alike
      exact alike.state.cycle
  · rw [late] at fails
    cases fails
    rfl

/-- A cycle of a running processor that does not fail is counted, and its number
is that of the cycles before it. -/
theorem counted_of_runCycle {trace : CycleTrace} {flow : Flow} (running : before.running = true)
    (ran : before.runCycle = (.ok (trace, flow), after)) :
    trace.cycle = before.cycle ∧ after.cycle = before.cycle + 1 := by
  rcases runCycle_of_running running with turns | ⟨limit, late, -⟩
  · have alike := countsAlike_stages AccessTally.steady_true
      ⟨(SameButAccesses.refl before).tied, rfl⟩
    rw [turns, perform_turn] at ran
    split at ran
    · rename_i execution decoded fetched middle staged
      cases ran
      rw [staged] at alike
      exact ⟨rfl, congrArg (· + 1) alike.state.cycle⟩
    · cases ran
  · rw [late] at ran
    cases ran

end Processor
end BranchPipeline
