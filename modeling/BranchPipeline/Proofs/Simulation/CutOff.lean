import BranchPipeline.Proofs.Pipeline.CycleLimit
import BranchPipeline.Proofs.Simulation.Following

namespace BranchPipeline

/-!
# What a limit of cycles does to a run

A run under a limit is compared with the run of the same executable without one.
They pass the same states until the limit is reached, so a run that ends by
itself before that ends in the same way under the limit, and every other run is
cut off exactly there.
-/

namespace Processor

variable {configuration : Configuration} {kind : PredictorKind} {executable : Executable}
  {output : Output} {start free last reached : Processor} {limit count : Nat}
  {outcome : Except Fault (CycleTrace × Flow)} {traces : List CycleTrace}

/-! ## How a run ends -/

/-- The run goes on for so many cycles, and the next call ends it, with the exit of
the program or with a fault. -/
structure Ends (start : Processor) (count : Nat) (outcome : Except Fault (CycleTrace × Flow))
    (last : Processor) : Prop where
  ran : ∃ traces before, start.runCycles count = .ok (traces, before) ∧ before.running = true ∧
    before.runCycle = (outcome, last)
  final : ∀ trace, outcome ≠ .ok (trace, .proceed)

/-- What a run to the exit results in if it ends so. -/
def resultOf (outcome : Except Fault (CycleTrace × Flow)) (last : Processor) :
    Except String BranchRecord :=
  match outcome with
  | .ok _ => .ok last.record
  | .error fault => .error fault.message

/-- A run goes on for so many cycles, unless it ends before. -/
theorem Loaded.runs_or_ends (loaded : Loaded configuration kind executable output start)
    (count : Nat) :
    (∃ traces reached, start.runCycles count = .ok (traces, reached) ∧ reached.running = true) ∨
      ∃ earlier outcome last, earlier < count ∧ start.Ends earlier outcome last := by
  induction count with
  | zero => exact Or.inl ⟨[], start, rfl, loaded.running⟩
  | succ count inductionHypothesis =>
    rcases inductionHypothesis with ⟨traces, before, ran, running⟩ | ends
    · rcases once : before.runCycle with ⟨outcome, after⟩
      have endsHere (final : ∀ trace, outcome ≠ .ok (trace, .proceed)) :
          ∃ earlier outcome last, earlier < count + 1 ∧ start.Ends earlier outcome last :=
        ⟨count, outcome, after, Nat.lt_succ_self count, ⟨traces, before, ran, running, once⟩,
          final⟩
      cases outcome with
      | error fault =>
        refine Or.inr (endsHere ?_)
        rintro trace ⟨⟩
      | ok result =>
        rcases result with ⟨trace, flow⟩
        have exits := (loaded.condition_of_runCycles ran).exit_iff once
        cases flow with
        | exit =>
          refine Or.inr (endsHere ?_)
          rintro trace ⟨⟩
        | proceed =>
          refine Or.inl ⟨_, after, runCycles_succ.mpr ⟨_, _, _, _, ran, once, rfl⟩, ?_⟩
          cases still : after.running with
          | true => rfl
          | false => cases exits.mpr still
    · rcases ends with ⟨earlier, outcome, last, before, ends⟩
      exact Or.inr ⟨earlier, outcome, last, Nat.lt_succ_of_lt before, ends⟩

/-- Behind its end a run does not go on. -/
theorem Ends.le_of_running (ends : start.Ends count outcome last)
    (loaded : Loaded configuration kind executable output start) {more : Nat}
    (ran : start.runCycles more = .ok (traces, reached)) (running : reached.running = true) :
    more ≤ count := by
  refine Nat.le_of_not_lt fun beyond => ?_
  induction beyond generalizing traces reached with
  | refl =>
    rcases ends with ⟨⟨earlier, before, shorter, -, once⟩, final⟩
    rcases runCycles_succ.mp ran with ⟨_, _, trace, flow, same, again, -⟩
    cases shorter.symm.trans same
    cases once.symm.trans again
    cases flow with
    | proceed => exact final trace rfl
    | exit =>
      cases running.symm.trans (((loaded.condition_of_runCycles shorter).exit_iff once).mp rfl)
  | step beyond inductionHypothesis =>
    rcases runCycles_succ.mp ran with ⟨_, before, _, _, shorter, once, -⟩
    exact inductionHypothesis shorter (running_of_runCycle once running)

/-- A run ends once. -/
theorem Ends.unique {other : Nat} {result : Except Fault (CycleTrace × Flow)} {after : Processor}
    (one : start.Ends count outcome last) (two : start.Ends other result after)
    (loaded : Loaded configuration kind executable output start) : count = other := by
  rcases one.ran with ⟨_, _, first, running, -⟩
  rcases two.ran with ⟨_, _, second, still, -⟩
  exact Nat.le_antisymm (two.le_of_running loaded first running)
    (one.le_of_running loaded second still)

/-- Every run to the exit that is given more cycles has this result. -/
def HasResult (start : Processor) (count : Nat) (result : Except String BranchRecord) : Prop :=
  ∀ {β : Type} (observe : Observer β) (budget : Nat) (seen : β), count < budget →
    (Simulator.runToExit observe budget { processor := start } seen).map (·.1) = some result

theorem Ends.hasResult (ends : start.Ends count outcome last)
    (loaded : Loaded configuration kind executable output start) :
    start.HasResult count (resultOf outcome last) := by
  intro β observe budget seen enough
  let simulator : Simulator := { processor := start }
  have fresh : simulator.processor = start := rfl
  have sound : simulator.failure = none := rfl
  rcases ends with ⟨⟨traces, before, ran, running, once⟩, final⟩
  match outcome with
  | .error fault =>
    rcases Simulator.runToExit_of_fault loaded fresh sound ran once enough seen with
      ⟨last, result, results, -⟩
    rw [results]
    rfl
  | .ok (trace, .proceed) => exact absurd rfl (final trace)
  | .ok (trace, .exit) =>
    have condition := loaded.condition_of_runCycles ran
    have stopped := (condition.exit_iff once).mp rfl
    have counted : last.cycle = count + 1 := by
      rw [condition.cycle_eq once, running, (loaded.cycle_of_runCycles ran).2 running]
      rfl
    have longer := runCycles_succ.mpr ⟨_, _, _, _, ran, once, rfl⟩
    rcases Simulator.runToExit_of_stopped loaded fresh sound longer stopped counted enough seen with
      ⟨last, result, results, -⟩
    rw [results]
    rfl

/-! ## The same executable under a limit -/

/-- A limit changes nothing about loading but itself. -/
theorem load_withLimit (configuration : Configuration) (kind : PredictorKind)
    (executable : Executable) (output : Output) (limit : Option Nat) :
    load { configuration with cycleLimit := limit } kind executable output =
      (load { configuration with cycleLimit := none } kind executable output).map
        (·.withLimit limit) := by
  unfold load
  have checks : Configuration.check { configuration with cycleLimit := limit } =
    Configuration.check { configuration with cycleLimit := none } := rfl
  have predicts : Predictor.create kind { configuration with cycleLimit := limit } =
    Predictor.create kind { configuration with cycleLimit := none } := rfl
  rw [checks, predicts]
  simp only
  cases Configuration.check { configuration with cycleLimit := none } with
  | error fault => rfl
  | ok accepted =>
    change (if configuration.memorySize < executable.size then _ else _) =
      Except.map _ (if configuration.memorySize < executable.size then _ else _)
    split
    · rfl
    · cases (Memory.blank configuration.memorySize).load executable.cells
          executable.textSection with
      | error fault => rfl
      | ok memory =>
        cases InFlight.create configuration.reorderCapacity configuration.pipelineCapacity with
        | error fault => rfl
        | ok inFlight =>
          cases Predictor.create kind { configuration with cycleLimit := none } with
          | error fault => rfl
          | ok predictor => rfl

theorem cycleLimit_of_load (loads : load configuration kind executable output = .ok start) :
    start.cycleLimit = configuration.cycleLimit := by
  rcases exists_parts_of_load loads with ⟨memory, inFlight, predictor, -, -, -, -, rfl⟩
  rfl

theorem cycleLimit_of_runCycles (ran : start.runCycles count = .ok (traces, reached)) :
    reached.cycleLimit = start.cycleLimit := by
  induction count generalizing traces reached with
  | zero =>
    cases ran
    rfl
  | succ count inductionHypothesis =>
    rcases runCycles_succ.mp ran with ⟨earlier, before, trace, flow, shorter, once, -⟩
    exact (cycleLimit_of_runCycle once).trans (inductionHypothesis shorter)

/-- Whatever calls are made, failed ones included, no more cycles are completed
than the limit allows. -/
theorem cycle_le_of_callCycles {outcomes : List (Except Fault (CycleTrace × Flow))}
    (limited : start.cycleLimit = some limit) (few : start.cycle ≤ limit)
    (called : start.callCycles count = (outcomes, reached)) :
    reached.cycleLimit = some limit ∧ reached.cycle ≤ limit := by
  induction count generalizing outcomes reached with
  | zero =>
    cases called
    exact ⟨limited, few⟩
  | succ count inductionHypothesis =>
    rcases callCycles_succ.mp called with ⟨earlier, before, outcome, fewer, once, -⟩
    rcases inductionHypothesis fewer with ⟨limited, few⟩
    exact ⟨(cycleLimit_of_runCycle once).trans limited, cycle_le_of_runCycle once limited few⟩

/-- A new processor is a new one under every limit. -/
theorem Loaded.withLimit (loaded : Loaded configuration kind executable output free)
    (limit : Option Nat) : Loaded configuration kind executable output (free.withLimit limit) :=
  ⟨loaded.accepted, loaded.machine, loaded.inFlight, loaded.predictor, loaded.running,
    loaded.stalled, loaded.cycle, loaded.record⟩

/-! ## The same run under a limit -/

section

variable (loaded : Loaded configuration kind executable output free)
  (unlimited : free.cycleLimit = none)
include loaded unlimited

/-- As far as the limit allows, the limited run passes what the free one passes. -/
theorem Loaded.runCycles_withLimit (ran : free.runCycles count = .ok (traces, reached))
    (within : reached.cycle ≤ limit) :
    (free.withLimit (some limit)).runCycles count =
      .ok (traces, reached.withLimit (some limit)) := by
  induction count generalizing traces reached with
  | zero =>
    cases ran
    rfl
  | succ count inductionHypothesis =>
    rcases runCycles_succ.mp ran with ⟨earlier, before, trace, flow, shorter, once, rfl⟩
    have counted := (loaded.condition_of_runCycles shorter).cycle_eq once
    have room : before.running = true → before.cycle < limit := by
      intro running
      rw [running, Bool.toNat_true] at counted
      omega
    have same := runCycle_withLimit ((cycleLimit_of_runCycles shorter).trans unlimited) room
    rw [once] at same
    refine runCycles_succ.mpr ⟨earlier, _, trace, flow, ?_, same, rfl⟩
    exact inductionHypothesis shorter (by omega)

/-- The limited run passes nothing but what the free one passes. -/
theorem Loaded.exists_runCycles_of_withLimit
    (ran : (free.withLimit (some limit)).runCycles count = .ok (traces, reached)) :
    ∃ beyond, free.runCycles count = .ok (traces, beyond) ∧ beyond.cycle ≤ limit ∧
      reached = beyond.withLimit (some limit) := by
  induction count generalizing traces reached with
  | zero =>
    cases ran
    exact ⟨free, rfl, loaded.cycle ▸ Nat.zero_le limit, rfl⟩
  | succ count inductionHypothesis =>
    rcases runCycles_succ.mp ran with ⟨earlier, before, trace, flow, shorter, once, rfl⟩
    rcases inductionHypothesis shorter with ⟨beyond, passes, few, rfl⟩
    have room : beyond.running = true → beyond.cycle < limit := by
      intro running
      refine Nat.lt_of_not_le fun late => ?_
      rw [runCycle_withLimit_of_late running late] at once
      cases once
    have most := cycle_le_of_runCycle once rfl few
    rcases exists_runCycle_of_withLimit ((cycleLimit_of_runCycles passes).trans unlimited) room once
      with ⟨after, next, rfl⟩
    exact ⟨after, runCycles_succ.mpr ⟨earlier, beyond, trace, flow, passes, next, rfl⟩, most, rfl⟩

/-- A run that ends by itself before the limit ends so under the limit. -/
theorem Loaded.ends_withLimit (ends : free.Ends count outcome last) (early : count < limit) :
    (free.withLimit (some limit)).Ends count outcome (last.withLimit (some limit)) := by
  rcases ends with ⟨⟨traces, before, ran, running, once⟩, final⟩
  have counted := (loaded.cycle_of_runCycles ran).2 running
  have room : before.cycle < limit := counted ▸ early
  have same := runCycle_withLimit ((cycleLimit_of_runCycles ran).trans unlimited) fun _ => room
  rw [once] at same
  have passes := loaded.runCycles_withLimit unlimited ran (Nat.le_of_lt room)
  exact ⟨⟨traces, _, passes, running, same⟩, final⟩

/-- A limited run that is not cut off ends before the limit, as the free one does. -/
theorem Loaded.exists_ends_of_withLimit
    (ends : (free.withLimit (some limit)).Ends count outcome last)
    (whole : outcome ≠ .error (.cycleLimit limit)) :
    ∃ beyond, free.Ends count outcome beyond ∧ count < limit ∧
      last = beyond.withLimit (some limit) := by
  rcases ends with ⟨⟨traces, before, ran, running, once⟩, final⟩
  rcases loaded.exists_runCycles_of_withLimit unlimited ran with ⟨beyond, passes, few, rfl⟩
  have counted := (loaded.cycle_of_runCycles passes).2 running
  have early : beyond.cycle < limit := by
    refine Nat.lt_of_not_le fun late => ?_
    have still : beyond.running = true := running
    have cut := runCycle_withLimit_of_late still late
    rw [once] at cut
    exact whole (congrArg Prod.fst cut)
  rcases exists_runCycle_of_withLimit ((cycleLimit_of_runCycles passes).trans unlimited)
    (fun _ => early) once with ⟨after, next, rfl⟩
  exact ⟨after, ⟨⟨traces, beyond, passes, running, next⟩, final⟩, counted ▸ early, rfl⟩

/-- A run that is still going on at the limit is cut off there. -/
theorem Loaded.cut_off (ran : free.runCycles limit = .ok (traces, reached))
    (running : reached.running = true) :
    reached.cycle = limit ∧
      (free.withLimit (some limit)).runCycles limit =
        .ok (traces, reached.withLimit (some limit)) ∧
      (free.withLimit (some limit)).Ends limit (.error (.cycleLimit limit))
        (reached.withLimit (some limit)) := by
  have counted := (loaded.cycle_of_runCycles ran).2 running
  have passes := loaded.runCycles_withLimit unlimited ran (Nat.le_of_eq counted)
  have late := runCycle_withLimit_of_late running (Nat.le_of_eq counted.symm)
  refine ⟨counted, passes, ⟨⟨traces, _, passes, running, late⟩, ?_⟩⟩
  rintro trace ⟨⟩

end

/-- A limit of cycles only cuts a run off.

Without a limit the executable is loaded into `free`, and with one into the same
processor up to the limit.  The two pass the same states as far as the limit
allows, and whatever calls are made, the limited one never completes more cycles
than that.  If the free run ends before, with an exit or a fault, then the limited
one ends in the same call, with the same outcome and in the same state, and so
both have the same result.  Otherwise the limited run completes as many cycles as
it may, and the next call fails over the limit and leaves everything as it is.
So a run that has ended by itself ends in the same way under every higher limit. -/
theorem cycleLimit_cuts_off
    (loads : load { configuration with cycleLimit := none } kind executable output = .ok free)
    (limit : Nat) :
    load { configuration with cycleLimit := some limit } kind executable output =
        .ok (free.withLimit (some limit)) ∧
      (∀ count traces reached,
        (free.withLimit (some limit)).runCycles count = .ok (traces, reached) ↔
          ∃ beyond, free.runCycles count = .ok (traces, beyond) ∧ beyond.cycle ≤ limit ∧
            reached = beyond.withLimit (some limit)) ∧
      (∀ count outcomes reached,
        (free.withLimit (some limit)).callCycles count = (outcomes, reached) →
          reached.cycle ≤ limit) ∧
      (∀ count outcome last, free.Ends count outcome last → count < limit →
        (free.withLimit (some limit)).Ends count outcome (last.withLimit (some limit)) ∧
          free.HasResult count (resultOf outcome last) ∧
          (free.withLimit (some limit)).HasResult count (resultOf outcome last)) ∧
      ((∀ count outcome last, free.Ends count outcome last → limit ≤ count) →
        ∃ traces reached,
          (free.withLimit (some limit)).runCycles limit = .ok (traces, reached) ∧
            reached.cycle = limit ∧
            reached.runCycle = (.error (.cycleLimit limit), reached) ∧
            (free.withLimit (some limit)).Ends limit (.error (.cycleLimit limit)) reached ∧
            (free.withLimit (some limit)).HasResult limit
              (.error (Fault.cycleLimit limit).message)) ∧
      ∀ count outcome last more,
        (free.withLimit (some limit)).Ends count outcome last →
          outcome ≠ .error (.cycleLimit limit) → limit ≤ more →
          (free.withLimit (some more)).Ends count outcome (last.withLimit (some more)) ∧
            (free.withLimit (some limit)).HasResult count (resultOf outcome last) ∧
            (free.withLimit (some more)).HasResult count (resultOf outcome last) := by
  have loaded := loaded_of_load loads
  have unlimited := cycleLimit_of_load loads
  have resultUnder (bound : Nat) {count outcome last}
      (ends : (free.withLimit (some bound)).Ends count outcome (last.withLimit (some bound))) :
      (free.withLimit (some bound)).HasResult count (resultOf outcome last) :=
    ends.hasResult (loaded.withLimit (some bound))
  refine ⟨?_, ?_, ?_, ?_, ?_, ?_⟩
  · rw [load_withLimit, loads]
    rfl
  · intro count traces reached
    constructor
    · exact loaded.exists_runCycles_of_withLimit unlimited
    · rintro ⟨beyond, ran, within, rfl⟩
      exact loaded.runCycles_withLimit unlimited ran within
  · intro count outcomes reached called
    have few : (free.withLimit (some limit)).cycle ≤ limit := loaded.cycle ▸ Nat.zero_le limit
    exact (cycle_le_of_callCycles rfl few called).2
  · intro count outcome last ends early
    have same := loaded.ends_withLimit unlimited ends early
    exact ⟨same, ends.hasResult loaded, resultUnder limit same⟩
  · intro late
    rcases loaded.runs_or_ends limit with ⟨traces, reached, ran, running⟩ | ends
    · rcases loaded.cut_off unlimited ran running with ⟨counted, passes, cut⟩
      exact ⟨traces, _, passes, counted,
        runCycle_withLimit_of_late running (Nat.le_of_eq counted.symm), cut, resultUnder limit cut⟩
    · rcases ends with ⟨earlier, outcome, last, before, ends⟩
      exact absurd (late earlier outcome last ends) (Nat.not_le.mpr before)
  · intro count outcome last more ends whole higher
    rcases loaded.exists_ends_of_withLimit unlimited ends whole with ⟨beyond, freely, early, rfl⟩
    have same := loaded.ends_withLimit unlimited freely (Nat.lt_of_lt_of_le early higher)
    exact ⟨same, resultUnder limit ends, resultUnder more same⟩

/-- Whether the next cycle ends the program. -/
def exitsNext (processor : Processor) : Bool :=
  match processor.runCycle.1 with
  | .ok (_, .exit) => processor.running
  | _ => false

theorem ends_of_exitsNext (ran : start.runCycles count = .ok (traces, reached))
    (checked : reached.exitsNext = true) :
    ∃ trace last, start.Ends count (.ok (trace, .exit)) last := by
  unfold exitsNext at checked
  rcases once : reached.runCycle with ⟨fault | ⟨trace, flow⟩, last⟩
  · rw [once] at checked
    cases checked
  · rw [once] at checked
    cases flow with
    | proceed => cases checked
    | exit =>
      refine ⟨trace, last, ⟨traces, reached, ran, checked, once⟩, ?_⟩
      rintro _ ⟨⟩

/-- The loop exits in its last cycle of thirty-two.  A limit of thirty-two lets it
exit, and a limit of thirty-one cuts it off just before. -/
theorem cycleLimit_cuts_off_loop :
    ∃ free trace last reached,
      load { cramped with cycleLimit := none } .gshare threeRounds .accepting = .ok free ∧
      free.Ends 31 (.ok (trace, .exit)) last ∧
      (free.withLimit (some 32)).Ends 31 (.ok (trace, .exit)) (last.withLimit (some 32)) ∧
      (free.withLimit (some 31)).Ends 31 (.error (.cycleLimit 31)) reached ∧
      reached.cycle = 31 := by
  have computed : (runLoaded { cramped with cycleLimit := none } .gshare threeRounds .accepting
      31).toOption.any (fun ends => ends.2.exitsNext) = true := by
    decide +kernel
  rcases exists_of_runLoaded computed with ⟨free, traces, before, loads, ran, exits⟩
  rcases ends_of_exitsNext ran exits with ⟨trace, last, ends⟩
  rcases cycleLimit_cuts_off loads 32 with ⟨-, -, -, allowed, -, -⟩
  rcases cycleLimit_cuts_off loads 31 with ⟨-, -, -, -, cuts, -⟩
  have late : ∀ count outcome last, free.Ends count outcome last → 31 ≤ count :=
    fun count outcome last other => Nat.le_of_eq (ends.unique other (loaded_of_load loads))
  rcases cuts late with ⟨_, reached, -, counted, -, cut, -⟩
  exact ⟨free, trace, last, reached, loads, ends, (allowed _ _ _ ends (by decide)).1, cut, counted⟩

end Processor
end BranchPipeline
