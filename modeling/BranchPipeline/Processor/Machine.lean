import BranchPipeline.Attempt
import BranchPipeline.Processor.Fault
import BranchPipeline.Processor.Output
import BranchPipeline.Processor.Tally

namespace BranchPipeline

/-!
# The machine that programs see

Registers, flags, memory and output are all that a program can change.  This
module says what each micro-operation does to them.  It knows nothing of
stages, buffers or predictions, so a machine that takes one instruction after
the other can use the same definitions as the pipeline.
-/

/-- Registers, memory and output, and the counts of accesses to them. -/
structure Machine where
  registers : RegisterFile
  memory : Memory
  output : Output
  accesses : AccessTally := {}

namespace Machine

def accumulator (width : Width) : RegisterRef := ⟨.rax, width⟩

def writeRegister (machine : Machine) (ref : RegisterRef) (value : UInt64) : Machine :=
  { machine with
    registers := machine.registers.write ref value
    accesses := machine.accesses.registerWritten ref.register }

/-- Writes an instruction text into a register. -/
def writeText (machine : Machine) (register : Register) (token : String) : Machine :=
  { machine with
    registers := machine.registers.writeText register token
    accesses := machine.accesses.registerWritten register }

def setFlags (machine : Machine) (flags : Flags) : Machine :=
  { machine with registers := machine.registers.setFlags flags }

def countReads (machine : Machine) (registers : List Register) : Machine :=
  { machine with accesses := registers.foldl AccessTally.registerRead machine.accesses }

def readRegister (ref : RegisterRef) : Attempt Machine Fault UInt64 := do
  modify fun machine => machine.countReads [ref.register]
  Attempt.ofExcept Fault.register ((← get).registers.read ref)

/-- Reads a memory cell; an address outside memory is not counted. -/
def readCell (address : Address) : Attempt Machine Fault Cell := do
  let machine ← get
  let cell ← Attempt.ofExcept Fault.memory (machine.memory.get address)
  set { machine with
    accesses := machine.accesses.cellRead (machine.memory.textSection.contains address.index) }
  return cell

/-- Reads a memory cell that must hold a word. -/
def readWord (address : Address) : Attempt Machine Fault Int64 := do
  let cell ← readCell address
  Attempt.ofExcept Fault.memory (Memory.asWord address cell)

/-- Reads a memory cell that must hold an instruction. -/
def readToken (address : Address) : Attempt Machine Fault String := do
  let cell ← readCell address
  Attempt.ofExcept Fault.memory (Memory.asToken address cell)

/-- Writes a memory cell; an address outside memory is not counted. -/
def writeCell (address : Address) (cell : Cell) : Attempt Machine Fault Unit := do
  let machine ← get
  let memory ← Attempt.ofExcept Fault.memory (machine.memory.set address cell)
  set { machine with
    memory
    accesses := machine.accesses.cellWritten
      (machine.memory.textSection.contains address.index) }

/-- The address that an expression denotes; the registers in it are read. -/
def effectiveAddress (expression : String) : Attempt Machine Fault Address := do
  let machine ← get
  set (machine.countReads (AddressExpression.consulted machine.registers expression))
  let value ← Attempt.ofExcept Fault.address (machine.registers.address expression)
  Attempt.ofExcept Fault.memory (Address.ofInt64 value)

/-- The value of an operand.  A register is read no wider than the
micro-operation is. -/
def readOperand (op : MicroOp) : Attempt Machine Fault Int64 :=
  match op.operand with
  | some (.register ref) => do
    let value ← readRegister ⟨ref.register, ref.width.narrower op.width⟩
    return value.toInt64
  | some (.memory expression) => do
    let address ← effectiveAddress expression
    readWord address
  | some (.immediate value) => return value
  | some (.condition _) | none => throw (.unexpectedOperand op)

/-- Writes a value to an operand.  A register is written at its own width, a
memory cell always whole. -/
def writeOperand (op : MicroOp) (value : UInt64) : Attempt Machine Fault Unit :=
  match op.operand with
  | some (.register ref) => modify fun machine => machine.writeRegister ref value
  | some (.memory expression) => do
    let address ← effectiveAddress expression
    writeCell address (.word value.toInt64)
  | some (.immediate _) | some (.condition _) | none => throw (.unexpectedOperand op)

/-- Replaces the whole accumulator. -/
def setAccumulator (value : Int64) : Attempt Machine Fault Unit :=
  modify fun machine => machine.writeRegister (accumulator .quad) value.toUInt64

/-- Runs a micro-operation that only moves and combines values; the others do
nothing here. -/
def operate (op : MicroOp) : Attempt Machine Fault Unit :=
  match op.opcode with
  | .load => do
    let value ← readOperand op
    setAccumulator value
  | .store => do
    let value ← readRegister (accumulator op.width)
    writeOperand op value
  | .add => do
    let value ← readOperand op
    let current ← readRegister (accumulator .quad)
    setAccumulator (current.toInt64 + value)
  | .subtract => do
    let value ← readOperand op
    let current ← readRegister (accumulator .quad)
    setAccumulator (current.toInt64 - value)
  | .compare => do
    let value ← readOperand op
    let current ← readRegister (accumulator .quad)
    modify fun machine => machine.setFlags (Flags.of (current.toInt64 - value))
  | .jump | .systemCall | .idle => return

/-- Where a branch goes. -/
structure Resolution where
  taken : Bool
  /-- Where the branch goes if it is taken. -/
  target : UInt64
  /-- Where execution goes on. -/
  next : UInt64
  deriving DecidableEq, Repr

/-- Resolves the branch at `location`: its target is in the accumulator, even
if it is not taken. -/
def resolve (op : MicroOp) (location : UInt64) : Attempt Machine Fault Resolution :=
  match op.operand with
  | some (.condition condition) => do
    let taken := condition.isMet (← get).registers.flags
    let value ← readRegister (accumulator .quad)
    let address ← Attempt.ofExcept Fault.memory (Address.ofInt64 value.toInt64)
    let target := address.index.toUInt64
    return { taken, target, next := if taken then target else location + 1 }
  | _ => throw (.unexpectedOperand op)

/-- The number of the system call that writes cells. -/
def writeCall : UInt64 := 1

/-- The number of the system call that ends the program. -/
def exitCall : UInt64 := 60

/-- Writes the cells of which `rsi` holds the first address and `rdx` the
number. -/
def writeCells : Attempt Machine Fault Unit := do
  let start ← readRegister (.full .rsi)
  let address ← Attempt.ofExcept Fault.memory (Address.ofInt64 start.toInt64)
  let length ← readRegister (.full .rdx)
  let machine ← get
  let cells ← Attempt.ofExcept Fault.memory (machine.memory.slice address length.toNat)
  let output ← Attempt.ofExcept Fault.output (machine.output.write cells)
  set { machine with output }

/-- Makes the system call whose number is in the low byte of the accumulator.
An unknown number does nothing. -/
def systemCall : Attempt Machine Fault Bool := do
  let number ← readRegister (accumulator .byte)
  if number == writeCall then
    writeCells
    return false
  else return number == exitCall

end Machine
end BranchPipeline
