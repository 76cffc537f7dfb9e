import BranchPipeline.AddressExpression.Evaluation
import BranchPipeline.AddressExpression.Token
import BranchPipeline.Attempt
import BranchPipeline.Buffer.Fault
import BranchPipeline.Buffer.ProbeTable
import BranchPipeline.Buffer.Ring
import BranchPipeline.Buffer.Ring.Contents
import BranchPipeline.CommandLine.Arguments
import BranchPipeline.CommandLine.Program
import BranchPipeline.Configuration
import BranchPipeline.Debugger.Command
import BranchPipeline.Debugger.Grammar
import BranchPipeline.Debugger.Session
import BranchPipeline.Decimal.Binary
import BranchPipeline.Decimal.Fixed
import BranchPipeline.Decimal.Scientific
import BranchPipeline.Decimal.Shortest
import BranchPipeline.Executable
import BranchPipeline.Flags
import BranchPipeline.Format.BranchRecordFile
import BranchPipeline.Format.ConfigurationFile
import BranchPipeline.Format.ExecutableFile
import BranchPipeline.Instruction
import BranchPipeline.Json.Number
import BranchPipeline.Json.Quotation
import BranchPipeline.Json.Value
import BranchPipeline.Json.Writer
import BranchPipeline.Main
import BranchPipeline.Memory
import BranchPipeline.MicroOp
import BranchPipeline.Prediction.Gshare
import BranchPipeline.Prediction.History
import BranchPipeline.Prediction.Predictor
import BranchPipeline.Prediction.Table
import BranchPipeline.Processor.Cycle
import BranchPipeline.Processor.Fault
import BranchPipeline.Processor.InFlight
import BranchPipeline.Processor.Machine
import BranchPipeline.Processor.Output
import BranchPipeline.Processor.Report
import BranchPipeline.Processor.Stage
import BranchPipeline.Processor.Tally
import BranchPipeline.Processor.Trace
import BranchPipeline.Register
import BranchPipeline.RegisterFile
import BranchPipeline.Report.Statistics
import BranchPipeline.Simulation.Console
import BranchPipeline.Simulation.Options
import BranchPipeline.Simulation.Simulator
import BranchPipeline.Text.Blank
import BranchPipeline.Text.Combining
import BranchPipeline.Text.Layout
import BranchPipeline.Text.Numeral
import BranchPipeline.Text.Quoted
import BranchPipeline.Text.Unprintable
import BranchPipeline.Proofs.Buffer.Capacity
import BranchPipeline.Proofs.Buffer.Pointers
import BranchPipeline.Proofs.Buffer.Queue
import BranchPipeline.Proofs.AddressExpression.Reading
import BranchPipeline.Proofs.AddressExpression.Value
import BranchPipeline.Proofs.Operation
import BranchPipeline.Proofs.Prediction.HistoryShift
import BranchPipeline.Proofs.Prediction.Confirmed
import BranchPipeline.Proofs.Prediction.HistoryRepair
import BranchPipeline.Proofs.Prediction.Consulted
import BranchPipeline.Proofs.Instruction.Groups
import BranchPipeline.Proofs.Instruction.Mark
import BranchPipeline.Proofs.Instruction.Operands
import BranchPipeline.Proofs.Buffer.Stored
import BranchPipeline.Proofs.Buffer.ProbePath
import BranchPipeline.Proofs.Buffer.BoundedMap
import BranchPipeline.Proofs.Buffer.MapRefinement
import BranchPipeline.Proofs.Buffer.MapCalls
import BranchPipeline.Proofs.Buffer.Learned
import BranchPipeline.Proofs.Prediction.Trained
import BranchPipeline.Proofs.Prediction.Learned
import BranchPipeline.Proofs.Pipeline.Packets
import BranchPipeline.Proofs.Machine.Effects
import BranchPipeline.Proofs.Machine.FailedEffects
import BranchPipeline.Proofs.Pipeline.Stages
import BranchPipeline.Proofs.Pipeline.Cycle
import BranchPipeline.Proofs.Pipeline.Run
import BranchPipeline.Proofs.Pipeline.CycleCount
import BranchPipeline.Proofs.Pipeline.Origin
import BranchPipeline.Proofs.Pipeline.Program
import BranchPipeline.Proofs.Machine.Faults
import BranchPipeline.Proofs.Pipeline.Outstanding
import BranchPipeline.Proofs.Pipeline.Overflow
import BranchPipeline.Proofs.Machine.Agreement
import BranchPipeline.Proofs.Machine.FaultAgreement
import BranchPipeline.Proofs.Pipeline.Sequential
import BranchPipeline.Proofs.Pipeline.Refinement
import BranchPipeline.Proofs.Pipeline.Stopping
import BranchPipeline.Proofs.Pipeline.Draining
import BranchPipeline.Proofs.Pipeline.Fetching
import BranchPipeline.Proofs.Pipeline.Successors
import BranchPipeline.Proofs.Prediction.Naming
import BranchPipeline.Proofs.Pipeline.LockStep
import BranchPipeline.Proofs.Pipeline.Expansion
import BranchPipeline.Proofs.Pipeline.FailingCycle
import BranchPipeline.Proofs.Pipeline.FaultRefinement
import BranchPipeline.Proofs.Pipeline.FetchOrder
import BranchPipeline.Proofs.Pipeline.Retirement
import BranchPipeline.Proofs.Pipeline.ControlFlow
import BranchPipeline.Proofs.Pipeline.Accounting
import BranchPipeline.Proofs.Machine.Accesses
import BranchPipeline.Proofs.Pipeline.Accesses
import BranchPipeline.Proofs.Simulation.Undisturbed
import BranchPipeline.Proofs.Simulation.Frozen
import BranchPipeline.Proofs.Pipeline.CycleLimit
import BranchPipeline.Proofs.Simulation.CutOff
import BranchPipeline.Proofs.Simulation.StopReasons
import BranchPipeline.Proofs.Machine.Numeric
import BranchPipeline.Proofs.Pipeline.OperandFaults
import BranchPipeline.Proofs.Json.Quotation
import BranchPipeline.Proofs.Json.Number
import BranchPipeline.Proofs.Format.ExecutableFile
import BranchPipeline.Proofs.Text.Words
import BranchPipeline.Proofs.AddressExpression.Spelling
import BranchPipeline.Proofs.Debugger.Rules
import BranchPipeline.Proofs.Debugger.Vocabulary
import BranchPipeline.Proofs.Instruction.OperandWords
import BranchPipeline.Proofs.Instruction.Language
import BranchPipeline.Proofs.Machine.RegisterBytes
import BranchPipeline.Proofs.Machine.Assignment
import BranchPipeline.Proofs.Machine.Comparison
import BranchPipeline.Proofs.Executable.Sections
import BranchPipeline.Proofs.Executable.Validation
import BranchPipeline.Proofs.Debugger.Sentences
import BranchPipeline.Proofs.Debugger.Leads
import BranchPipeline.Proofs.Debugger.Language
import BranchPipeline.Proofs.Debugger.OperandTexts
import BranchPipeline.Proofs.Debugger.Bookkeeping
import BranchPipeline.Proofs.Pipeline.WriteCall
import BranchPipeline.Proofs.Text.Rows
import BranchPipeline.Proofs.Prediction.HistoryIndex
import BranchPipeline.Proofs.Format.ConfigurationFile
import BranchPipeline.Proofs.CommandLine.Overrides
import BranchPipeline.Proofs.Simulation.Looks
import BranchPipeline.Proofs.Simulation.Unseen
import BranchPipeline.Proofs.Debugger.Deeds
import BranchPipeline.Proofs.Debugger.Counts
