import BranchPipeline.Instruction

namespace BranchPipeline

/-!
# Configuration

A configuration gives the size of every structure in the simulated processor
and, if wanted, a bound on the number of cycles.  `Configuration.check` says
which sizes work together: nothing is empty, a branch at the head of the
buffers still leaves room for the next group, every branch in flight and the
one being fetched have a place among the outstanding predictions, and the
history fits a machine word with a bit to spare.

Sizes are given as machine words of 64 bits, and a sum of them is formed as such
a word.
-/

/-- The sizes of a configuration, in the order of their declaration. -/
inductive Dimension where
  | reorder
  | pipeline
  | memory
  | target
  | direction
  | history
  | outstanding
  deriving DecidableEq, Repr

namespace Dimension

/-- All sizes in order. -/
def all : List Dimension :=
  [reorder, pipeline, memory, target, direction, history, outstanding]

/-- The name that configuration files and messages use. -/
def key : Dimension → String
  | reorder => "rob_capacity"
  | pipeline => "pipeline_capacity"
  | memory => "memory_size"
  | target => "btb_capacity"
  | direction => "direction_capacity"
  | history => "ghr_length"
  | outstanding => "obq_capacity"

end Dimension

/-- The sizes of a simulated processor. -/
structure Configuration where
  reorderCapacity : Nat := 16
  pipelineCapacity : Nat := 16
  memorySize : Nat := 256
  targetCapacity : Nat := 16
  directionCapacity : Nat := 16
  historyLength : Nat := 8
  outstandingCapacity : Nat := 32
  cycleLimit : Option Nat := none
  deriving DecidableEq, Repr

/-- Why a configuration is refused. -/
inductive ConfigurationFault where
  | zero (dimension : Dimension)
  | tooSmall (dimension : Dimension) (least : Nat)
  | historyTooLong (length : Nat)
  deriving DecidableEq, Repr

def ConfigurationFault.message : ConfigurationFault → String
  | .zero dimension => s!"`{dimension.key}` must be positive"
  | .tooSmall dimension least => s!"`{dimension.key}` must be at least {least}"
  | .historyTooLong length => s!"`ghr_length` must be at most 63, got {length}"

namespace Configuration

def get (configuration : Configuration) : Dimension → Nat
  | .reorder => configuration.reorderCapacity
  | .pipeline => configuration.pipelineCapacity
  | .memory => configuration.memorySize
  | .target => configuration.targetCapacity
  | .direction => configuration.directionCapacity
  | .history => configuration.historyLength
  | .outstanding => configuration.outstandingCapacity

def set (configuration : Configuration) (dimension : Dimension) (size : Nat) : Configuration :=
  match dimension with
  | .reorder => { configuration with reorderCapacity := size }
  | .pipeline => { configuration with pipelineCapacity := size }
  | .memory => { configuration with memorySize := size }
  | .target => { configuration with targetCapacity := size }
  | .direction => { configuration with directionCapacity := size }
  | .history => { configuration with historyLength := size }
  | .outstanding => { configuration with outstandingCapacity := size }

/-- How many micro-operations can be in flight. -/
def inFlightCapacity (configuration : Configuration) : Nat :=
  min configuration.reorderCapacity configuration.pipelineCapacity

/-- Room for one outstanding prediction per branch in flight, and one more for
the branch being fetched.  A branch takes two micro-operations.  The sums wrap,
where a build that checks its arithmetic halts; this matters for the largest
machine word alone. -/
def leastOutstanding (configuration : Configuration) : Nat :=
  ((configuration.inFlightCapacity.toUInt64 + 1) / 2 + 1).toNat

/-- The longest history whose index leaves a bit of a machine word free. -/
def longestHistory : Nat := 63

/-- The first rule that the sizes break. -/
def fault? (configuration : Configuration) : Option ConfigurationFault :=
  match Dimension.all.find? fun dimension => configuration.get dimension == 0 with
  | some dimension => some (.zero dimension)
  | none =>
    match [Dimension.reorder, .pipeline].find? fun dimension =>
        configuration.get dimension ≤ maxGroupLength with
    | some dimension => some (.tooSmall dimension (maxGroupLength + 1))
    | none =>
      if configuration.outstandingCapacity < configuration.leastOutstanding then
        some (.tooSmall .outstanding configuration.leastOutstanding)
      else if longestHistory < configuration.historyLength then
        some (.historyTooLong configuration.historyLength)
      else none

/-- Accepts a configuration whose sizes work together. -/
def check (configuration : Configuration) : Except ConfigurationFault Unit :=
  match configuration.fault? with
  | some fault => .error fault
  | none => .ok ()

end Configuration
end BranchPipeline
