import BranchPipeline.Attempt
import BranchPipeline.Buffer.Ring
import BranchPipeline.MicroOp

namespace BranchPipeline

/-!
# Micro-operations in flight

Decoded micro-operations wait in the pipeline buffer.  The reorder buffer
moves in step with it and remembers for each one where its instruction came
from.  A branch learns from the next group that is issued where its successor
was fetched; by that the branch is later found to have been predicted well or
badly.
-/

/-- Where the instruction behind a branch was fetched, and whether on a path
that was predicted to be taken. -/
structure Successor where
  location : UInt64
  speculative : Bool
  deriving DecidableEq, Repr

/-- What the reorder buffer knows of a micro-operation. -/
structure ReorderEntry where
  opcode : MicroOpcode
  /-- The address of the instruction that the micro-operation belongs to. -/
  location : UInt64
  speculative : Bool
  successor : Option Successor
  deriving DecidableEq, Repr

namespace ReorderEntry

/-- The entry of a micro-operation that has just been issued. -/
def ofMicroOp (op : MicroOp) (location : UInt64) : ReorderEntry where
  opcode := op.opcode
  location := location
  speculative := op.speculative
  successor := none

/-- The successor as an entry shows it. -/
def successorText : Option Successor → String
  | none => ""
  | some successor =>
    s!" -> {successor.location}" ++ (if successor.speculative then " (taken)" else "")

/-- The entry as reports show it. -/
def text (entry : ReorderEntry) : String :=
  s!"{entry.opcode.name} @{entry.location}" ++
    (if entry.speculative then " *" else "") ++ successorText entry.successor

/-- Whether the entry is a branch that does not know its successor yet. -/
def awaitsSuccessor (entry : ReorderEntry) : Bool :=
  entry.opcode == .jump && entry.successor.isNone

end ReorderEntry

/-- The two buffers of micro-operations in flight. -/
structure InFlight where
  reorder : Ring ReorderEntry
  pipeline : Ring MicroOp

namespace InFlight

/-- Two empty buffers, whose sizes are bounded by nothing but the memory. -/
def create (reorderCapacity pipelineCapacity : Nat) : Except BufferFault InFlight := do
  let reorder ← Ring.allocate "reorder buffer" reorderCapacity
  let pipeline ← Ring.allocate "pipeline buffer" pipelineCapacity
  return { reorder, pipeline }

/-- How many micro-operations both buffers still have room for. -/
def free (inFlight : InFlight) : Nat :=
  min inFlight.reorder.free inFlight.pipeline.free

/-- The number of micro-operations in flight. -/
def size (inFlight : InFlight) : Nat := inFlight.pipeline.size

def isEmpty (inFlight : InFlight) : Bool := inFlight.pipeline.isEmpty

/-- Tells the youngest entry its successor, if it is a branch without one. -/
def annotate (inFlight : InFlight) (successor : Successor) : InFlight :=
  match inFlight.reorder.youngest? with
  | some entry =>
    if entry.awaitsSuccessor then
      { inFlight with
        reorder := inFlight.reorder.replace (inFlight.reorder.size - 1)
          { entry with successor := some successor } }
    else inFlight
  | none => inFlight

/-- Appends one micro-operation, to the reorder buffer first. -/
def append (op : MicroOp) (location : UInt64) : Attempt InFlight BufferFault Unit := do
  let inFlight ← get
  let reorder ← Attempt.ofExcept id (inFlight.reorder.add (.ofMicroOp op location))
  set { inFlight with reorder }
  let pipeline ← Attempt.ofExcept id (inFlight.pipeline.add op)
  set { reorder, pipeline : InFlight }

/-- Appends a group that was fetched at `location`, after the branch in front
of it has learned that this is its successor. -/
def issue (group : List MicroOp) (location : UInt64) : Attempt InFlight BufferFault Unit := do
  match group with
  | [] => return
  | first :: _ =>
    modify fun inFlight => inFlight.annotate ⟨location, first.speculative⟩
    group.forM fun op => append op location

/-- The oldest micro-operation and its entry. -/
def head? (inFlight : InFlight) : Option (MicroOp × ReorderEntry) := do
  let op ← inFlight.pipeline.oldest?
  let entry ← inFlight.reorder.oldest?
  return (op, entry)

/-- Drops the oldest micro-operation. -/
def retire (inFlight : InFlight) : InFlight where
  reorder := inFlight.reorder.remove.2
  pipeline := inFlight.pipeline.remove.2

/-- Drops everything. -/
def flush (inFlight : InFlight) : InFlight where
  reorder := inFlight.reorder.flush
  pipeline := inFlight.pipeline.flush

end InFlight
end BranchPipeline
