import BranchPipeline.Decimal.Fixed
import BranchPipeline.Processor.Cycle
import BranchPipeline.Report.Statistics

namespace BranchPipeline

/-!
# Reports of a processor

The counts of a processor as sections of the statistics.
-/

namespace MemoryTally

/-- Reads and writes, one line for each kind of section. -/
def report (tally : MemoryTally) : StatisticsSection where
  header := "memory access (format: `# of read / # of write`)"
  width := 31
  body := line "text" tally.textReads tally.textWrites ++
    line "data" tally.dataReads tally.dataWrites
where
  /-- One line of the body. -/
  line (name : String) (reads writes : Nat) : String :=
    "  " ++ name ++ ": " ++ Text.padLeft 10 (toString reads) ++ " / " ++
      Text.padLeft 10 (toString writes) ++ "\n"

end MemoryTally

namespace RegisterTally

/-- The width of a register's cell. -/
def cellWidth : Nat := 27

/-- Reads and writes of one register. -/
def cell (tally : RegisterTally) (register : Register) : String :=
  Text.padLeft 4 register.name ++ ":" ++
    Text.padLeft 10 (toString (tally.reads.get register.index)) ++ " /" ++
    Text.padLeft 10 (toString (tally.writes.get register.index))

/-- Reads and writes of all registers. -/
def report (tally : RegisterTally) (lineWidth : Nat) : StatisticsSection :=
  StatisticsSection.table "register load (format: `# of read / # of write`)"
    cellWidth lineWidth (Register.all.map tally.cell)

end RegisterTally

namespace BranchTally

def taken (tally : BranchTally) : Nat := tally.takenCorrect + tally.takenWrong

/-- Branches that were not taken. -/
def untaken (tally : BranchTally) : Nat := tally.untakenCorrect + tally.untakenWrong

/-- Branches that were predicted well. -/
def correct (tally : BranchTally) : Nat := tally.takenCorrect + tally.untakenCorrect

/-- Branches by direction, and those predicted well, with their shares. -/
def report (tally : BranchTally) : StatisticsSection where
  header := "branch count"
  width := 33
  body := line "       taken" tally.taken ++ line "     untaken" tally.untaken ++
    line "pred correct" tally.correct
where
  /-- One line of the body. -/
  line (name : String) (count : Nat) : String :=
    let share := Decimal.fixed 6 (Statistics.percent count (tally.taken + tally.untaken))
    "  " ++ name ++ ": " ++ Text.padLeft 10 (toString count) ++ " (" ++
      Text.padLeft 10 share ++ "%)\n"

end BranchTally

namespace EventTally

/-- The width of a micro-operation's cell. -/
def cellWidth : Nat := 21

/-- How often one operation code was executed. -/
def cell (tally : EventTally) (opcode : MicroOpcode) : String :=
  Text.padLeft 8 opcode.name ++ ": " ++
    Text.padLeft 11 (toString (tally.executed.get opcode.index))

/-- How often each operation code was executed. -/
def microOpReport (tally : EventTally) (lineWidth : Nat) : StatisticsSection :=
  StatisticsSection.table "executed micro-ops" cellWidth lineWidth
    (MicroOpcode.all.map tally.cell)

/-- Flushes and stalls. -/
def pipelineReport (tally : EventTally) : StatisticsSection where
  header := "pipeline events"
  width := 33
  body := "       flushes: " ++ Text.padLeft 10 (toString tally.flushes) ++ "\n" ++
    "  fetch stalls: " ++ Text.padLeft 10 (toString tally.fetchStalls) ++ "\n"

end EventTally

def Processor.report (processor : Processor) (lineWidth : Nat) : List StatisticsSection :=
  [processor.machine.accesses.memory.report,
    processor.machine.accesses.registers.report lineWidth,
    processor.events.microOpReport lineWidth,
    processor.events.branches.report,
    processor.events.pipelineReport]

/-- The line that sums up a run under one prediction scheme. -/
def BranchRecord.summary (record : BranchRecord) (kind : PredictorKind) (cycles : Nat) :
    String :=
  let accuracy := match record.accuracy? with
    | some share => Decimal.fixed 2 (share * 100) ++ "%"
    | none => "-"
  Text.padRight 18 kind.name ++ " cycles: " ++ Text.padLeft 8 (toString cycles) ++
    ", predicted: " ++ Text.padLeft 6 (toString record.predicted.size) ++
    ", mispredicted: " ++ Text.padLeft 6 (toString record.mispredicted.size) ++
    ", accuracy: " ++ Text.padLeft 7 accuracy

end BranchPipeline
