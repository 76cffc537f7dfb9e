import BranchPipeline.AddressExpression.Evaluation
import BranchPipeline.Buffer.Fault
import BranchPipeline.Configuration
import BranchPipeline.Executable

namespace BranchPipeline

/-!
# Faults of a run

Whatever goes wrong while a program is loaded or run ends up in one type, so
that a cycle has one kind of failure.
-/

/-- Why a program could not be loaded or a cycle not be completed. -/
inductive Fault where
  | memory (fault : MemoryFault)
  | register (fault : RegisterFault)
  | decode (fault : DecodeFault)
  | address (fault : AddressFault)
  | buffer (fault : BufferFault)
  | load (fault : LoadFault)
  | configuration (fault : ConfigurationFault)
  | unexpectedOperand (op : MicroOp)
  | cycleLimit (limit : Nat)
  /-- The output refused what was written to it. -/
  | output (refusal : String)
  deriving DecidableEq, Repr

def Fault.message : Fault → String
  | .memory fault => fault.message
  | .register fault => fault.message
  | .decode fault => fault.message
  | .address fault => fault.message
  | .buffer fault => fault.message
  | .load fault => fault.message
  | .configuration fault => fault.message
  | .unexpectedOperand op => s!"`{op.text}` has no operand it can act on"
  | .cycleLimit limit => s!"cycle limit of {limit} reached before exit"
  | .output refusal => refusal

end BranchPipeline
