import BranchPipeline.Prediction.Predictor
import BranchPipeline.Processor.InFlight
import BranchPipeline.Processor.Machine
import BranchPipeline.Processor.Stage
import BranchPipeline.Processor.Trace

namespace BranchPipeline

/-!
# The pipelined processor

In every cycle the processor executes one micro-operation, decodes one
instruction and fetches another, as far as the three stages are not stalled.
Fetch follows the predictor and hands the instruction over in the register
`cir`, with a star behind it if the fetch left the straight path.  Decode
issues the whole group or, if the buffers are too full, holds the instruction
and stalls fetch for one cycle.  Execute takes the oldest micro-operation; a
branch whose successor was fetched from the wrong place empties the pipeline
and redirects fetch.

A cycle that fails leaves the processor as far as it had come.
-/

/-- The cycles in which branches were resolved, by how they were predicted. -/
structure BranchRecord where
  predicted : Array Nat := #[]
  mispredicted : Array Nat := #[]
  deriving DecidableEq, Repr

namespace BranchRecord

/-- The number of resolved branches. -/
def branches (record : BranchRecord) : Nat :=
  record.predicted.size + record.mispredicted.size

/-- The share of branches that were predicted well, if there was any branch. -/
def accuracy? (record : BranchRecord) : Option Float :=
  if record.branches = 0 then none
  else some (record.predicted.size.toFloat / record.branches.toFloat)

def note (record : BranchRecord) (cycle : Nat) (mispredicted : Bool) : BranchRecord :=
  if mispredicted then { record with mispredicted := record.mispredicted.push cycle }
  else { record with predicted := record.predicted.push cycle }

end BranchRecord

/-- The whole state of the simulated processor. -/
structure Processor where
  machine : Machine
  inFlight : InFlight
  predictor : Predictor
  running : Bool
  stalled : StageSet
  /-- The number of completed cycles. -/
  cycle : Nat
  cycleLimit : Option Nat
  record : BranchRecord
  events : EventTally

namespace Processor

/-- The mark behind an instruction that was fetched off the straight path. -/
def speculativeMark : Char := '*'

/-- What is fetched from an address outside the text section. -/
def idleToken : String := "noop"

/-- The registers of a program that is about to start. -/
def startRegisters (textSection : Section) (machine : Machine) : Machine :=
  ((machine.writeRegister (.full .cs) textSection.start.toUInt64).writeRegister
    (.full .ds) textSection.stop.toUInt64).writeRegister
      (.full .rip) textSection.start.toUInt64

/-- Loads an executable at address zero and points fetch at its first
instruction. -/
def load (configuration : Configuration) (kind : PredictorKind) (executable : Executable)
    (output : Output) : Except Fault Processor := do
  configuration.check.mapError Fault.configuration
  if configuration.memorySize < executable.size then
    throw (.load (.tooLarge executable.size configuration.memorySize))
  let memory ← ((Memory.blank configuration.memorySize).load executable.cells
    executable.textSection).mapError Fault.memory
  let inFlight ← (InFlight.create configuration.reorderCapacity
    configuration.pipelineCapacity).mapError Fault.buffer
  let predictor ← (Predictor.create kind configuration).mapError Fault.buffer
  return {
    machine := startRegisters executable.textSection { registers := {}, memory, output }
    inFlight
    predictor
    running := true
    stalled := .initial
    cycle := 0
    cycleLimit := configuration.cycleLimit
    record := {}
    events := {} }

def onMachine {α : Type} (operation : Attempt Machine Fault α) : Attempt Processor Fault α :=
  Attempt.onPart Processor.machine (fun machine processor => { processor with machine })
    id operation

def onPredictor {α : Type} (operation : Attempt Predictor BufferFault α) :
    Attempt Processor Fault α :=
  Attempt.onPart Processor.predictor
    (fun predictor processor => { processor with predictor }) Fault.buffer operation

/-- Runs an operation of the two buffers. -/
def onInFlight {α : Type} (operation : Attempt InFlight BufferFault α) :
    Attempt Processor Fault α :=
  Attempt.onPart Processor.inFlight
    (fun inFlight processor => { processor with inFlight }) Fault.buffer operation

/-- Empties both buffers and the fetch registers and stalls every stage. -/
def flush (processor : Processor) : Processor :=
  { processor with
    machine := ((processor.machine.writeRegister (.full .mar) 0).writeText .mbr "").writeText
      .cir ""
    inFlight := processor.inFlight.flush
    stalled := .all
    events := processor.events.flushed }

/-- Resolves the branch at the head of the buffers.  It was predicted well
exactly if its successor was fetched from where execution goes on. -/
def resolveBranch (op : MicroOp) (entry : ReorderEntry) (successor : Successor) :
    Attempt Processor Fault BranchOutcome := do
  let resolution ← onMachine (Machine.resolve op entry.location)
  let mispredicted := successor.location != resolution.next
  onPredictor (Predictor.update entry.location resolution.target resolution.taken)
  if mispredicted then
    modify flush
    modify fun processor =>
      { processor with machine := processor.machine.writeRegister (.full .rip) resolution.next }
    onPredictor Predictor.stall
  modify fun processor =>
    { processor with
      record := processor.record.note processor.cycle mispredicted
      events := processor.events.branchResolved resolution.taken (!mispredicted) }
  return {
    location := entry.location
    target := resolution.next
    taken := resolution.taken
    mispredicted }

/-- Makes a system call; the one that ends the program empties the pipeline. -/
def systemCall : Attempt Processor Fault Flow := do
  let exits ← onMachine Machine.systemCall
  if exits then
    modify fun processor => { processor with running := false }
    modify flush
    return .exit
  else return .proceed

/-- What the execute stage did. -/
structure Execution where
  flow : Flow := .proceed
  op : Option MicroOp := none
  branch : Option BranchOutcome := none

/-- Counts an executed micro-operation and drops it from the buffers, which
have already lost it if it emptied the pipeline. -/
def retire (op : MicroOp) (processor : Processor) : Processor :=
  { processor with
    inFlight := processor.inFlight.retire
    events := processor.events.microOpExecuted op.opcode }

/-- Executes the oldest micro-operation.  A branch that does not know its
successor yet waits; without any micro-operation the stage stalls. -/
def execute : Attempt Processor Fault Execution := do
  match (← get).inFlight.head? with
  | none =>
    modify fun processor =>
      { processor with stalled := { processor.stalled with execute := true } }
    return {}
  | some (op, entry) =>
    match op.opcode, entry.successor with
    | .jump, none => return {}
    | .jump, some successor =>
      let branch ← resolveBranch op entry successor
      modify (retire op)
      return { op := some op, branch := some branch }
    | .systemCall, _ =>
      let flow ← systemCall
      modify (retire op)
      return { flow, op := some op }
    | _, _ =>
      onMachine (Machine.operate op)
      modify (retire op)
      return { op := some op }

/-- The instruction in `cir` without its mark, and whether it had one. -/
def splitMark (text : String) : String × Bool :=
  match Text.stripLast speculativeMark text.toList with
  | some token => (String.ofList token, true)
  | none => (text, false)

/-- Decodes the fetched instruction and issues its group.  If the buffers
cannot take the whole group, the instruction is held and fetch stalls. -/
def decode : Attempt Processor Fault (Option Decoded) := do
  let processor ← get
  let (token, speculative) := splitMark ((processor.machine.registers.text? .cir).getD "")
  let group ← Attempt.ofExcept Fault.decode (Instruction.expand token speculative)
  if processor.inFlight.free < group.length then
    set { processor with
      stalled := { processor.stalled with fetch := true }
      events := processor.events.fetchStalled }
    return none
  else
    let location ← onMachine (Machine.readRegister (.full .mar))
    onInFlight (InFlight.issue group location)
    modify fun processor =>
      { processor with stalled := { fetch := false, decode := true, execute := false } }
    return some { location, instruction := token, group }

/-- The instruction at an address: outside the text section there is only the
one that does nothing. -/
def instructionAt (location : UInt64) : Attempt Machine Fault String := do
  let textStart ← Machine.readRegister (.full .cs)
  let dataStart ← Machine.readRegister (.full .ds)
  if textStart ≤ location && location < dataStart then
    let address ← Attempt.ofExcept Fault.memory (Address.ofInt64 location.toInt64)
    Machine.readToken address
  else return idleToken

/-- Fetches the instruction that the predictor asks for.  The first fetch
after a redirect goes to the resolved target and is never speculative. -/
def fetch : Attempt Processor Fault Fetched := do
  let current ← onMachine (Machine.readRegister (.full .rip))
  let passThrough := (← get).predictor.stalled
  let location ← onPredictor (Predictor.predict current)
  let speculative := !passThrough && location != current + 1
  let token ← onMachine do
    modify fun machine =>
      (machine.writeRegister (.full .rip) location).writeRegister (.full .mar) location
    let token ← instructionAt location
    let handedOver := if speculative then token.push speculativeMark else token
    modify fun machine => (machine.writeText .mbr token).writeText .cir handedOver
    return token
  modify fun processor =>
    { processor with stalled := { processor.stalled with decode := false } }
  return { location, token, speculative }

/-- Runs a stage unless it is stalled. -/
def unlessStalled {α : Type} (stalled : StageSet → Bool) (idle : α)
    (stage : Attempt Processor Fault α) : Attempt Processor Fault α := do
  if stalled (← get).stalled then return idle else stage

/-- Ends a cycle; a stall of fetch lasts for one cycle only. -/
def finish (processor : Processor) : Processor :=
  { processor with
    stalled := { processor.stalled with fetch := false }
    cycle := processor.cycle + 1 }

/-- Runs execute, decode and fetch once, in this order.  A processor that has
stopped does nothing more, not even count the cycle. -/
def step : Attempt Processor Fault (CycleTrace × Flow) := do
  let processor ← get
  if !processor.running then return ({ cycle := processor.cycle }, .exit)
  match processor.cycleLimit with
  | some limit => if limit ≤ processor.cycle then throw (.cycleLimit limit)
  | none => pure ()
  let execution ← unlessStalled StageSet.execute {} execute
  let decoded ← unlessStalled StageSet.decode none decode
  let fetched ← unlessStalled StageSet.fetch none (some <$> fetch)
  modify finish
  return (
    { cycle := processor.cycle
      fetched
      fetchStalled := fetched.isNone
      decoded
      executed := execution.op
      branch := execution.branch },
    execution.flow)

/-- One cycle: its trace or its fault, and the processor after it. -/
def runCycle (processor : Processor) : Except Fault (CycleTrace × Flow) × Processor :=
  step.perform processor

end Processor
end BranchPipeline
