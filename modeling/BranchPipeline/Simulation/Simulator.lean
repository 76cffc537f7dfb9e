import BranchPipeline.Processor.Report
import BranchPipeline.Simulation.Options

namespace BranchPipeline

/-!
# Simulations

A simulator drives a processor as its options ask and remembers the first
fault, after which it never runs another cycle.  A run may last for ever, so
it is given a budget of cycles; a run that uses up its budget has no result.
Every other result does not depend on the budget.

An observer is folded over the completed cycles.  It sees each processor as
the cycle left it, and cannot change it.
-/

/-- Why a run stopped before the program exited. -/
inductive StopReason where
  /-- An earlier cycle had failed. -/
  | cannotRestart
  | failed
  | reached (cycle : Nat)
  | stepsDone
  | breakpoint (id : Nat)
  deriving DecidableEq, Repr

/-- The values of what is watched.  A cell outside memory has none. -/
structure WatchedValues where
  registers : List (RegisterRef × Except RegisterFault UInt64) := []
  cells : List (Address × Option Cell) := []

inductive RunEnd where
  | exited
  | stopped (reason : StopReason) (watched : WatchedValues)

/-- Whether a run that ended so is a success; a run that may go on is neither
a success nor a failure. -/
def RunEnd.success? : RunEnd → Option Bool
  | .exited => some true
  | .stopped .cannotRestart _ | .stopped .failed _ => some false
  | .stopped _ _ => none

/-- A processor under the control of a user. -/
structure Simulator where
  processor : Processor
  failure : Option Fault := none
  lastTrace : Option CycleTrace := none
  /-- The number of cycles after which the program exited. -/
  exitCycle : Option Nat := none

/-- A function that is folded over the cycles of a run. -/
abbrev Observer (β : Type) := Processor → CycleTrace → β → β

namespace Simulator

/-- Loads an executable into a new processor. -/
def load (configuration : Configuration) (kind : PredictorKind) (executable : Executable)
    (output : Output) : Except Fault Simulator := do
  let processor ← Processor.load configuration kind executable output
  return { processor }

/-- The prediction scheme of the processor. -/
def kind (simulator : Simulator) : PredictorKind := simulator.processor.predictor.kind

/-- The number of completed cycles. -/
def cycle (simulator : Simulator) : Nat := simulator.processor.cycle

/-- Reads a register through the counted path. -/
def readRegister (simulator : Simulator) (ref : RegisterRef) :
    Except RegisterFault UInt64 × Simulator :=
  let processor := simulator.processor
  (processor.machine.registers.read ref,
    { simulator with
      processor := { processor with machine := processor.machine.countReads [ref.register] } })

/-- Reads a memory cell through the counted path. -/
def readCell (simulator : Simulator) (address : Address) : Option Cell × Simulator :=
  let processor := simulator.processor
  let (result, machine) := (Machine.readCell address).perform processor.machine
  (result.toOption, { simulator with processor := { processor with machine } })

/-- Reads what is watched, registers first. -/
def gather (watchings : Watchings) (simulator : Simulator) : WatchedValues × Simulator :=
  let (registers, simulator) := watchings.registers.foldl (fun (values, simulator) ref =>
    let (value, simulator) := simulator.readRegister ref
    (values ++ [(ref, value)], simulator)) ([], simulator)
  let (cells, simulator) := watchings.addresses.foldl (fun (values, simulator) address =>
    let (cell, simulator) := simulator.readCell address
    (values ++ [(address, cell)], simulator)) ([], simulator)
  ({ registers, cells }, simulator)

/-- Stops a run and reads what is watched. -/
def stop (options : Options) (reason : StopReason) (simulator : Simulator) :
    RunEnd × Simulator :=
  let (watched, simulator) := simulator.gather options.watchings
  (.stopped reason watched, simulator)

/-- Runs one cycle and remembers its fault, if it has one. -/
def advance (simulator : Simulator) : Except Fault (CycleTrace × Flow) × Simulator :=
  let (result, processor) := simulator.processor.runCycle
  match result with
  | .ok (trace, flow) =>
    let exitCycle := if flow = .exit then some processor.cycle else simulator.exitCycle
    (result, { simulator with processor, lastTrace := some trace, exitCycle })
  | .error fault => (result, { simulator with processor, failure := some fault })

/-- What a run still has to do. -/
inductive Goal where
  | endless
  /-- Reach a number of cycles; `entered` says whether one has been run. -/
  | reach (cycle : Nat) (entered : Bool)
  | remaining (count : Nat)
  deriving DecidableEq, Repr

/-- The goal of a run that is about to start. -/
def Goal.ofMode : Mode → Goal
  | .free => .endless
  | .until cycle => .reach cycle false
  | .steps count => .remaining (count.getD 1)

/-- Whether the goal is met after the given number of cycles, and how to say so. -/
def Goal.met? (goal : Goal) (cycle : Nat) : Option StopReason :=
  match goal with
  | .endless => none
  | .reach awaited entered =>
    if entered && awaited ≤ cycle then some (.reached awaited) else none
  | .remaining count => if count = 0 then some .stepsDone else none

def Goal.afterCycle : Goal → Goal
  | .endless => .endless
  | .reach awaited _ => .reach awaited true
  | .remaining count => .remaining (count - 1)

/-- Runs until the goal is met, the program exits, a breakpoint is hit or a
cycle fails.  Nothing comes back if the budget does not suffice. -/
def pursue {β : Type} (options : Options) (observe : Observer β) (budget : Nat) (goal : Goal)
    (simulator : Simulator) (seen : β) : Option (RunEnd × Simulator × β) :=
  match goal.met? simulator.cycle with
  | some reason =>
    let (ending, simulator) := simulator.stop options reason
    some (ending, simulator, seen)
  | none =>
    match budget with
    | 0 => none
    | budget + 1 =>
      match simulator.advance with
      | (.error _, simulator) =>
        let (ending, simulator) := simulator.stop options .failed
        some (ending, simulator, seen)
      | (.ok (trace, flow), simulator) =>
        let seen := if options.tracing then observe simulator.processor trace seen else seen
        match flow, options.breakpoints.hit? trace.cycle trace.executed with
        | .exit, _ => some (.exited, simulator, seen)
        | .proceed, some breakpoint =>
          let (ending, simulator) := simulator.stop options (.breakpoint breakpoint.id)
          some (ending, simulator, seen)
        | .proceed, none => pursue options observe budget goal.afterCycle simulator seen

/-- Runs as the options ask.  The observer sees the cycles only if they are
traced.  After a fault nothing runs any more. -/
def run {β : Type} (options : Options) (observe : Observer β) (budget : Nat)
    (simulator : Simulator) (seen : β) : Option (RunEnd × Simulator × β) :=
  match simulator.failure with
  | some _ =>
    let (ending, simulator) := simulator.stop options .cannotRestart
    some (ending, simulator, seen)
  | none => pursue options observe budget (.ofMode options.mode) simulator seen

/-- Runs to the end of the program and shows every cycle to the observer. -/
def pursueExit {β : Type} (observe : Observer β) (budget : Nat) (simulator : Simulator)
    (seen : β) : Option (Except String BranchRecord × Simulator × β) :=
  match budget with
  | 0 => none
  | budget + 1 =>
    match simulator.advance with
    | (.error fault, simulator) => some (.error fault.message, simulator, seen)
    | (.ok (trace, flow), simulator) =>
      let seen := observe simulator.processor trace seen
      match flow with
      | .exit => some (.ok simulator.processor.record, simulator, seen)
      | .proceed => pursueExit observe budget simulator seen

/-- Runs to the end of the program, unless an earlier cycle has failed. -/
def runToExit {β : Type} (observe : Observer β) (budget : Nat) (simulator : Simulator)
    (seen : β) : Option (Except String BranchRecord × Simulator × β) :=
  match simulator.failure with
  | some fault => some (.error s!"cannot restart after: {fault.message}", simulator, seen)
  | none => pursueExit observe budget simulator seen

/-- The number of cycles after which the program exited, zero before that. -/
def cycleReport (simulator : Simulator) : StatisticsSection where
  header := "simulator stat"
  width := 33
  body := "  cycles total: " ++ Text.padLeft 10 s!"#{simulator.exitCycle.getD 0}" ++ "\n"

def report (simulator : Simulator) (lineWidth : Nat) : List StatisticsSection :=
  simulator.cycleReport :: simulator.processor.report lineWidth

end Simulator
end BranchPipeline
