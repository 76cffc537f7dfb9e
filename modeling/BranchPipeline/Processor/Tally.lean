import BranchPipeline.MicroOp

namespace BranchPipeline

/-!
# Tallies

Two kinds of count are kept apart.  Accesses to registers and memory are
counted wherever they are made, so a debugger that looks at a register through
the counted path shows up in them.  Events in the pipeline happen in a cycle
and nowhere else.  No program can observe either.
-/

def increment {size : Nat} (counts : Vector Nat size) (place : Fin size) : Vector Nat size :=
  counts.set place (counts[place] + 1)

/-- Reads and writes of each register. -/
structure RegisterTally where
  reads : Vector Nat Register.count := Vector.replicate Register.count 0
  writes : Vector Nat Register.count := Vector.replicate Register.count 0
  deriving DecidableEq, Repr

/-- Reads and writes of memory cells, apart for the text section. -/
structure MemoryTally where
  textReads : Nat := 0
  textWrites : Nat := 0
  dataReads : Nat := 0
  dataWrites : Nat := 0
  deriving DecidableEq, Repr

namespace MemoryTally

def read (tally : MemoryTally) (inText : Bool) : MemoryTally :=
  if inText then { tally with textReads := tally.textReads + 1 }
  else { tally with dataReads := tally.dataReads + 1 }

def write (tally : MemoryTally) (inText : Bool) : MemoryTally :=
  if inText then { tally with textWrites := tally.textWrites + 1 }
  else { tally with dataWrites := tally.dataWrites + 1 }

end MemoryTally

/-- Branches by direction and by whether they were predicted. -/
structure BranchTally where
  takenCorrect : Nat := 0
  takenWrong : Nat := 0
  untakenCorrect : Nat := 0
  untakenWrong : Nat := 0
  deriving DecidableEq, Repr

/-- Counts a resolved branch. -/
def BranchTally.record (tally : BranchTally) (taken correct : Bool) : BranchTally :=
  match taken, correct with
  | true, true => { tally with takenCorrect := tally.takenCorrect + 1 }
  | true, false => { tally with takenWrong := tally.takenWrong + 1 }
  | false, true => { tally with untakenCorrect := tally.untakenCorrect + 1 }
  | false, false => { tally with untakenWrong := tally.untakenWrong + 1 }

/-- Accesses to registers and memory, whoever makes them. -/
structure AccessTally where
  registers : RegisterTally := {}
  memory : MemoryTally := {}
  deriving DecidableEq, Repr

namespace AccessTally

def registerRead (tally : AccessTally) (register : Register) : AccessTally :=
  { tally with
    registers := { tally.registers with
      reads := increment tally.registers.reads register.index } }

def registerWritten (tally : AccessTally) (register : Register) : AccessTally :=
  { tally with
    registers := { tally.registers with
      writes := increment tally.registers.writes register.index } }

/-- Counts a read of a memory cell. -/
def cellRead (tally : AccessTally) (inText : Bool) : AccessTally :=
  { tally with memory := tally.memory.read inText }

/-- Counts a write of a memory cell. -/
def cellWritten (tally : AccessTally) (inText : Bool) : AccessTally :=
  { tally with memory := tally.memory.write inText }

end AccessTally

structure EventTally where
  executed : Vector Nat MicroOpcode.count := Vector.replicate MicroOpcode.count 0
  branches : BranchTally := {}
  flushes : Nat := 0
  fetchStalls : Nat := 0
  deriving DecidableEq, Repr

namespace EventTally

/-- Counts an executed micro-operation. -/
def microOpExecuted (tally : EventTally) (opcode : MicroOpcode) : EventTally :=
  { tally with executed := increment tally.executed opcode.index }

def branchResolved (tally : EventTally) (taken correct : Bool) : EventTally :=
  { tally with branches := tally.branches.record taken correct }

/-- Counts a flush of the pipeline. -/
def flushed (tally : EventTally) : EventTally :=
  { tally with flushes := tally.flushes + 1 }

/-- Counts a group that found no room. -/
def fetchStalled (tally : EventTally) : EventTally :=
  { tally with fetchStalls := tally.fetchStalls + 1 }

end EventTally
end BranchPipeline
