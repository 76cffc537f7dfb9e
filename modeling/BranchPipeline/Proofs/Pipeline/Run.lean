import BranchPipeline.Proofs.Pipeline.Cycle

namespace BranchPipeline

/-!
# Runs

A run starts with a loaded executable and goes on for some number of cycles, as
long as none of them fails.  What a new processor looks like is stated once,
with the sizes that a checked configuration guarantees.  Nothing keeps a user
from calling for another cycle after one that has failed; such calls are counted
here too.
-/

namespace Configuration

/-- An accepted configuration has no size that is zero. -/
theorem positive_of_check {configuration : Configuration}
    (accepted : configuration.check = .ok ()) (dimension : Dimension) :
    0 < configuration.get dimension := by
  unfold check at accepted
  split at accepted
  · cases accepted
  · rename_i sound
    unfold fault? at sound
    split at sound
    · cases sound
    · rename_i none
      rw [List.find?_eq_none] at none
      have listed : dimension ∈ Dimension.all := by cases dimension <;> decide
      have other := none dimension listed
      rw [beq_iff_eq] at other
      exact Nat.pos_of_ne_zero other

/-- What the check of a configuration guarantees to the pipeline. -/
theorem bounds_of_check {configuration : Configuration} (accepted : configuration.check = .ok ()) :
    maxGroupLength < configuration.inFlightCapacity ∧
      configuration.leastOutstanding ≤ configuration.outstandingCapacity := by
  unfold check at accepted
  split at accepted
  · cases accepted
  · rename_i sound
    unfold fault? at sound
    split at sound
    · cases sound
    · split at sound
      · cases sound
      · rename_i large
        split at sound
        · cases sound
        · rename_i enough
          rw [List.find?_eq_none] at large
          have reorder := large .reorder (by decide)
          have pipeline := large .pipeline (by decide)
          rw [decide_eq_true_eq] at reorder pipeline
          exact ⟨Nat.lt_min.mpr ⟨Nat.not_le.mp reorder, Nat.not_le.mp pipeline⟩,
            Nat.not_lt.mp enough⟩

/-- Up to the largest machine word, the room for outstanding predictions is the
exact sum. -/
theorem leastOutstanding_eq {configuration : Configuration}
    (small : configuration.inFlightCapacity + 1 < UInt64.size) :
    configuration.leastOutstanding = (configuration.inFlightCapacity + 1) / 2 + 1 := by
  have two : UInt64.toNat 2 = 2 := rfl
  rw [UInt64.size] at small
  rw [leastOutstanding, UInt64.toNat_add, UInt64.toNat_div, UInt64.toNat_add,
    UInt64.toNat_ofNat', UInt64.toNat_one, two]
  rw [Nat.mod_eq_of_lt (Nat.lt_of_succ_lt small), Nat.mod_eq_of_lt small]
  exact Nat.mod_eq_of_lt (by omega)

end Configuration

namespace Processor

variable {configuration : Configuration} {kind : PredictorKind} {executable : Executable}
  {output : Output} {start : Processor}

/-- A new processor: the executable lies in memory, fetch stands at its first
instruction, and nothing has been done yet. -/
structure Loaded (configuration : Configuration) (kind : PredictorKind)
    (executable : Executable) (output : Output) (start : Processor) : Prop where
  accepted : configuration.check = .ok ()
  machine : ∃ memory, (Memory.blank configuration.memorySize).load executable.cells
      executable.textSection = .ok memory ∧
    start.machine = startRegisters executable.textSection { registers := {}, memory, output }
  inFlight : InFlight.create configuration.reorderCapacity configuration.pipelineCapacity =
    .ok start.inFlight
  predictor : Predictor.create kind configuration = .ok start.predictor
  running : start.running = true
  stalled : start.stalled = .initial
  cycle : start.cycle = 0
  record : start.record = {}

/-- What a new processor is made of. -/
theorem exists_parts_of_load (loads : load configuration kind executable output = .ok start) :
    ∃ memory inFlight predictor,
      configuration.check = .ok () ∧
      (Memory.blank configuration.memorySize).load executable.cells executable.textSection =
        .ok memory ∧
      InFlight.create configuration.reorderCapacity configuration.pipelineCapacity =
        .ok inFlight ∧
      Predictor.create kind configuration = .ok predictor ∧
      start = {
        machine := startRegisters executable.textSection { registers := {}, memory, output }
        inFlight
        predictor
        running := true
        stalled := .initial
        cycle := 0
        cycleLimit := configuration.cycleLimit
        record := {}
        events := {} } := by
  rcases bind_eq_ok_iff.mp loads with ⟨_, accepted, loads⟩
  simp only at loads
  split at loads
  · cases loads
  · rcases bind_eq_ok_iff.mp loads with ⟨memory, memoryMade, loads⟩
    rcases bind_eq_ok_iff.mp loads with ⟨inFlight, inFlightMade, loads⟩
    rcases bind_eq_ok_iff.mp loads with ⟨predictor, predictorMade, loads⟩
    cases loads
    exact ⟨memory, inFlight, predictor, mapError_eq_ok.mp accepted, mapError_eq_ok.mp memoryMade,
      mapError_eq_ok.mp inFlightMade, mapError_eq_ok.mp predictorMade, rfl⟩

theorem loaded_of_load (loads : load configuration kind executable output = .ok start) :
    Loaded configuration kind executable output start := by
  rcases exists_parts_of_load loads with
    ⟨memory, inFlight, predictor, accepted, memoryMade, inFlightMade, predictorMade, rfl⟩
  exact ⟨accepted, ⟨memory, memoryMade, rfl⟩, inFlightMade, predictorMade, rfl, rfl, rfl, rfl⟩

/-- Every executable that fits into memory can be loaded under every accepted
configuration, if memory has room for the buffers. -/
theorem exists_load (accepted : configuration.check = .ok ())
    (reorderSmall : configuration.reorderCapacity < Ring.byteBound)
    (pipelineSmall : configuration.pipelineCapacity < Ring.byteBound)
    (fits : executable.size ≤ configuration.memorySize) (kind : PredictorKind) (output : Output) :
    ∃ start, load configuration kind executable output = .ok start := by
  have positive := Configuration.positive_of_check accepted
  have memory : ∃ memory, (Memory.blank configuration.memorySize).load executable.cells
      executable.textSection = .ok memory := by
    have enough : ¬ (Memory.blank configuration.memorySize).size < executable.cells.length := by
      rw [Memory.size, Memory.blank, Array.size_replicate]
      exact Nat.not_lt.mpr fits
    unfold Memory.load
    rw [if_neg enough]
    exact ⟨_, rfl⟩
  rcases memory with ⟨memory, memoryMade⟩
  rcases Ring.exists_create "reorder buffer" (positive .reorder) with ⟨reorder, reorderMade⟩
  rcases Ring.exists_create "pipeline buffer" (positive .pipeline) with ⟨pipeline, pipelineMade⟩
  have inFlightMade : InFlight.create configuration.reorderCapacity
      configuration.pipelineCapacity = .ok ⟨reorder, pipeline⟩ :=
    bind_eq_ok_iff.mpr ⟨reorder, Ring.allocate_eq_ok.mpr ⟨reorderSmall, reorderMade⟩,
      bind_eq_ok_iff.mpr ⟨pipeline, Ring.allocate_eq_ok.mpr ⟨pipelineSmall, pipelineMade⟩, rfl⟩⟩
  rcases Strategy.exists_create positive kind with ⟨strategy, strategyMade⟩
  have predictorMade : Predictor.create kind configuration = .ok ⟨true, strategy⟩ :=
    bind_eq_ok_iff.mpr ⟨strategy, strategyMade, rfl⟩
  simp only [load, bind_eq_ok_iff, mapError_eq_ok, accepted, true_and, exists_const,
    if_neg (Nat.not_lt.mpr fits), memoryMade, inFlightMade, predictorMade, Except.ok.injEq,
    exists_eq_left']
  exact ⟨_, rfl⟩

theorem Loaded.capacity_eq (loaded : Loaded configuration kind executable output start) :
    start.inFlight.capacity = configuration.inFlightCapacity :=
  (InFlight.holds_of_create loaded.inFlight).2

/-- A new processor has room for one outstanding prediction for every branch in
flight and one more.  Its buffers are in memory, so that the bound which its
configuration has met is the exact sum. -/
theorem Loaded.outstanding_lt (loaded : Loaded configuration kind executable output start) :
    (configuration.inFlightCapacity + 1) / 2 < configuration.outstandingCapacity := by
  have small : configuration.inFlightCapacity < Ring.byteBound :=
    InFlight.lt_byteBound_of_create loaded.inFlight
  rw [Ring.byteBound] at small
  have enough := (Configuration.bounds_of_check loaded.accepted).2
  rw [Configuration.leastOutstanding_eq (by rw [UInt64.size]; omega)] at enough
  exact enough

/-- A new processor is ready for its first cycle. -/
theorem Loaded.stocked (loaded : Loaded configuration kind executable output start) :
    start.Stocked ⟨[], none, executable.textSection.start.toUInt64⟩ := by
  rcases loaded.machine with ⟨memory, -, machine⟩
  refine ⟨⟨(InFlight.holds_of_create loaded.inFlight).1, ?_, ?_, ?_, ?_, ?_⟩, loaded.stalled,
    ?_, ?_⟩
  · intro packet member
    cases member
  · rw [loaded.capacity_eq]
    exact (Configuration.bounds_of_check loaded.accepted).1
  · exact (Predictor.trained_of_create loaded.predictor (fun _ => True)).1
  · rw [machine]
    exact RegisterFile.content_write_full _ _ _
  · intro fetched lost
    cases lost
  · intro filled
    exact absurd rfl filled
  · intro op alone
    cases alone

/-! ## Many cycles -/

/-- Runs so many cycles; gives their traces, or the first fault. -/
def runCycles (start : Processor) : Nat → Except Fault (List CycleTrace × Processor)
  | 0 => .ok ([], start)
  | count + 1 => do
    let (traces, before) ← runCycles start count
    match before.runCycle with
    | (.ok (trace, _), after) => .ok (traces ++ [trace], after)
    | (.error fault, _) => .error fault

/-- One cycle more. -/
theorem runCycles_succ {count : Nat} {traces : List CycleTrace} {after : Processor} :
    start.runCycles (count + 1) = .ok (traces, after) ↔
      ∃ earlier before trace flow, start.runCycles count = .ok (earlier, before) ∧
        before.runCycle = (.ok (trace, flow), after) ∧ traces = earlier ++ [trace] := by
  rw [runCycles, bind_eq_ok_iff]
  constructor
  · rintro ⟨⟨earlier, before⟩, ran, last⟩
    simp only at last
    split at last
    · rename_i trace flow reached once
      cases last
      exact ⟨earlier, before, trace, flow, ran, once, rfl⟩
    · cases last
  · rintro ⟨earlier, before, trace, flow, ran, once, rfl⟩
    exact ⟨(earlier, before), ran, by simp only [once]⟩

theorem length_of_runCycles {count : Nat} {traces : List CycleTrace} {after : Processor}
    (ran : start.runCycles count = .ok (traces, after)) : traces.length = count := by
  induction count generalizing traces after with
  | zero =>
    cases ran
    rfl
  | succ count inductionHypothesis =>
    rcases runCycles_succ.mp ran with ⟨earlier, before, trace, flow, shorter, -, rfl⟩
    rw [List.length_append, List.length_singleton, inductionHypothesis shorter]

/-! ## Calls that may fail -/

/-- Calls for so many cycles, whether or not they fail; gives what came of each
call, and the processor after the last one. -/
def callCycles (start : Processor) : Nat → List (Except Fault (CycleTrace × Flow)) × Processor
  | 0 => ([], start)
  | count + 1 =>
    let (outcomes, before) := callCycles start count
    let (outcome, after) := before.runCycle
    (outcomes ++ [outcome], after)

/-- One call more. -/
theorem callCycles_succ {count : Nat} {outcomes : List (Except Fault (CycleTrace × Flow))}
    {after : Processor} :
    start.callCycles (count + 1) = (outcomes, after) ↔
      ∃ earlier before outcome, start.callCycles count = (earlier, before) ∧
        before.runCycle = (outcome, after) ∧ outcomes = earlier ++ [outcome] := by
  simp only [callCycles, Prod.mk.injEq]
  constructor
  · rintro ⟨rfl, rfl⟩
    exact ⟨_, _, _, rfl, rfl, rfl⟩
  · rintro ⟨earlier, before, outcome, called, ran, rfl⟩
    rw [called]
    simp only [ran, and_self]

/-- Calls of which none has failed. -/
theorem callCycles_succ_ok {count : Nat} {results : List (CycleTrace × Flow)}
    {after : Processor} :
    start.callCycles (count + 1) = (results.map .ok, after) ↔
      ∃ earlier before result, start.callCycles count = (earlier.map .ok, before) ∧
        before.runCycle = (.ok result, after) ∧ results = earlier ++ [result] := by
  rw [callCycles_succ]
  constructor
  · rintro ⟨outcomes, before, outcome, called, ran, split⟩
    rcases List.map_eq_append_iff.mp split with ⟨earlier, last, rfl, rfl, ended⟩
    rcases List.map_eq_singleton_iff.mp ended with ⟨result, rfl, rfl⟩
    exact ⟨earlier, before, result, called, ran, rfl⟩
  · rintro ⟨earlier, before, result, called, ran, rfl⟩
    exact ⟨_, before, _, called, ran, List.map_append⟩

/-! ## Between two cycles -/

/-- In which condition a cycle that does not fail leaves the processor: ready
for the next one, or emptied by the exit. -/
inductive Condition (processor : Processor) : Prop
  | going {stock : Stock} (running : processor.running = true)
      (stocked : processor.Stocked stock)
  | exited (stopped : processor.running = false) (holds : processor.inFlight.Holds [])
      (stalled : processor.stalled = .initial)

variable {before after : Processor} {stock reached : Stock}

/-- The exit leaves nothing in flight and no stage with anything to work on. -/
theorem Exits.condition {op : MicroOp} (exits : Exits before op after) :
    (finish after).Condition := by
  refine .exited exits.running ?_ ?_
  · show after.inFlight.Holds []
    rw [exits.inFlight]
    exact (InFlight.holds_flush _).2
  · rw [finish, exits.stalled]
    rfl

theorem Turns.condition {trace : CycleTrace} (turns : Turns before stock trace after reached)
    (stocked : before.Stocked stock) (running : before.running = true) : after.Condition := by
  have going (still : after.running = true) : after.Condition :=
    .going still (turns.stocked stocked still)
  cases turns with
  | refetched idle lost fetches => exact going (fetches.course.running.trans running)
  | refilled idle latch supplies => exact going (supplies.course.running.trans running)
  | acted packets front latch plain acts supplies =>
    exact going ((supplies.course.running.trans acts.running).trans running)
  | confirmed packets front latch branches right confirms supplies =>
    exact going ((supplies.course.running.trans confirms.running).trans running)
  | redirected packets front branches wrong redirects =>
    exact going (redirects.running.trans running)
  | exited packets front calls exits => exact exits.condition

theorem Condition.next {trace : CycleTrace} {flow : Flow} (condition : before.Condition)
    (ran : before.runCycle = (.ok (trace, flow), after)) : after.Condition := by
  cases condition with
  | going running stocked =>
    rcases stocked.turns running ran with ⟨reached, turns⟩
    exact turns.condition stocked running
  | exited stopped holds stalled =>
    rw [runCycle_of_stopped stopped] at ran
    cases ran
    exact .exited stopped holds stalled

theorem Loaded.condition_of_runCycles {count : Nat} {traces : List CycleTrace}
    (loaded : Loaded configuration kind executable output start)
    (ran : start.runCycles count = .ok (traces, after)) : after.Condition := by
  induction count generalizing traces after with
  | zero =>
    cases ran
    exact .going loaded.running loaded.stocked
  | succ count inductionHypothesis =>
    rcases runCycles_succ.mp ran with ⟨earlier, before, trace, flow, shorter, once, rfl⟩
    exact (inductionHypothesis shorter).next once

/-- Loads an executable and runs it for so many cycles. -/
def runLoaded (configuration : Configuration) (kind : PredictorKind) (executable : Executable)
    (output : Output) (count : Nat) : Except Fault (List CycleTrace × Processor) := do
  let start ← load configuration kind executable output
  start.runCycles count

/-- A property that can be computed from the end of a run holds of some run. -/
theorem exists_of_runLoaded {count : Nat} {property : List CycleTrace × Processor → Bool}
    (holds : (runLoaded configuration kind executable output count).toOption.any property = true) :
    ∃ start traces reached, load configuration kind executable output = .ok start ∧
      start.runCycles count = .ok (traces, reached) ∧ property (traces, reached) = true := by
  cases ran : runLoaded configuration kind executable output count with
  | error fault =>
    rw [ran] at holds
    cases holds
  | ok ends =>
    rw [ran] at holds
    rcases bind_eq_ok_iff.mp ran with ⟨start, loads, cycles⟩
    exact ⟨start, ends.1, ends.2, loads, cycles, holds⟩

/-- Loads an executable and makes so many calls. -/
def callLoaded (configuration : Configuration) (kind : PredictorKind) (executable : Executable)
    (output : Output) (count : Nat) :
    Except Fault (List (Except Fault (CycleTrace × Flow)) × Processor) := do
  let start ← load configuration kind executable output
  return start.callCycles count

theorem exists_of_callLoaded {count : Nat}
    {property : List (Except Fault (CycleTrace × Flow)) × Processor → Bool}
    (holds : (callLoaded configuration kind executable output count).toOption.any property = true) :
    ∃ start outcomes reached, load configuration kind executable output = .ok start ∧
      start.callCycles count = (outcomes, reached) ∧ property (outcomes, reached) = true := by
  cases called : callLoaded configuration kind executable output count with
  | error fault =>
    rw [called] at holds
    cases holds
  | ok ends =>
    rw [called] at holds
    rcases bind_eq_ok_iff.mp called with ⟨start, loads, calls⟩
    injection calls with calls
    exact ⟨start, ends.1, ends.2, loads, calls, holds⟩

/-- The results of calls none of which fails. -/
def resultsLoaded (configuration : Configuration) (kind : PredictorKind) (executable : Executable)
    (output : Output) (count : Nat) : Except Fault (List (CycleTrace × Flow) × Processor) := do
  let (outcomes, reached) ← callLoaded configuration kind executable output count
  let results ← outcomes.mapM id
  return (results, reached)

theorem eq_map_ok_of_mapM {ε α : Type} {outcomes : List (Except ε α)} {results : List α}
    (succeeded : outcomes.mapM id = .ok results) : outcomes = results.map .ok := by
  induction outcomes generalizing results with
  | nil =>
    cases succeeded
    rfl
  | cons outcome later inductionHypothesis =>
    rw [List.mapM_cons, bind_eq_ok_iff] at succeeded
    rcases succeeded with ⟨first, rfl, succeeded⟩
    rcases bind_eq_ok_iff.mp succeeded with ⟨rest, others, same⟩
    cases same
    rw [List.map_cons, ← inductionHypothesis others]

theorem exists_of_resultsLoaded {count : Nat}
    {property : List (CycleTrace × Flow) × Processor → Bool}
    (holds : (resultsLoaded configuration kind executable output count).toOption.any property =
      true) :
    ∃ start results reached, load configuration kind executable output = .ok start ∧
      start.callCycles count = (results.map .ok, reached) ∧
      property (results, reached) = true := by
  cases ran : resultsLoaded configuration kind executable output count with
  | error fault =>
    rw [ran] at holds
    cases holds
  | ok ends =>
    rw [ran] at holds
    rcases bind_eq_ok_iff.mp ran with ⟨⟨outcomes, reached⟩, called, ran⟩
    rcases bind_eq_ok_iff.mp ran with ⟨results, succeeded, same⟩
    cases same
    rcases bind_eq_ok_iff.mp called with ⟨start, loads, calls⟩
    injection calls with calls
    rw [eq_map_ok_of_mapM succeeded] at calls
    exact ⟨start, results, reached, loads, calls, holds⟩

/-- Sizes that leave little more room in flight than a group needs. -/
def cramped : Configuration := { memorySize := 8, reorderCapacity := 4, pipelineCapacity := 5 }

/-- A loop of three rounds whose branch is followed by a group of three. -/
def threeRounds : Executable :=
  .ofParts ["mov rbx 3", "dec rbx", "cmp 0 rbx", "jne 3", "mov rax 60", "syscall"] []

end Processor
end BranchPipeline
