import BranchPipeline.CommandLine.Arguments
import BranchPipeline.Debugger.Session
import BranchPipeline.Format.BranchRecordFile
import BranchPipeline.Format.ConfigurationFile
import BranchPipeline.Format.ExecutableFile

namespace BranchPipeline

/-!
# The command line program

`list` prints the micro-operations of every instruction.  `run` runs a program
under one prediction scheme after the other, prints what the program writes
and one line that sums up each run, and can write the records of all runs to a
file.  What was printed before a failure stays printed.
-/

/-- Why the program ended without success. -/
inductive ProgramFault where
  | usage (fault : UsageFault)
  | noFile (path : String)
  | executable (fault : Json.Fault)
  | configurationFile (fault : Json.Fault)
  | configuration (fault : ConfigurationFault)
  | load (fault : Fault)
  | decode (fault : DecodeFault)
  | run (message : String)
  deriving DecidableEq, Repr

def ProgramFault.message : ProgramFault → String
  | .usage fault => fault.message
  | .noFile path => s!"cannot read {path}"
  | .executable fault | .configurationFile fault => fault.message
  | .configuration fault => fault.message
  | .load fault => fault.message
  | .decode fault => fault.message
  | .run message => message

/-- What the program has done. -/
structure ProgramResult where
  printed : String := ""
  failure : Option ProgramFault := none
  /-- The path and the content of the file that it writes. -/
  written : Option (String × String) := none
  deriving DecidableEq, Repr

/-- Sizes that take the place of those in a configuration. -/
structure Overrides where
  sizes : List (Dimension × UInt64) := []
  maxCycles : Option UInt64 := none
  deriving DecidableEq, Repr

namespace Overrides

/-- Puts the given sizes into a configuration. -/
def apply (overrides : Overrides) (configuration : Configuration) : Configuration :=
  let sized := overrides.sizes.foldl
    (fun configuration (dimension, size) => configuration.set dimension size.toNat)
    configuration
  match overrides.maxCycles with
  | some limit => { sized with cycleLimit := some limit.toNat }
  | none => sized

/-- The configuration of a file, or the default one, with the given sizes.  The
sizes of the file must work together by themselves, and so must the final ones. -/
def resolve (overrides : Overrides) (file : Option String) :
    Except ConfigurationFileFault Configuration := do
  let base ← match file with
    | some text => Configuration.read text
    | none => .ok {}
  let configuration := overrides.apply base
  configuration.check.mapError ConfigurationFileFault.refused
  return configuration

end Overrides

namespace Program

/-- A bound on the cycles of a run that no run on real time reaches. -/
def budget : Nat := 0x4000000000000000

def configurationFault : ConfigurationFileFault → ProgramFault
  | .unreadable fault => .configurationFile fault
  | .refused fault => .configuration fault

def contentOf (files : String → Option String) (path : String) : Except ProgramFault String :=
  match files path with
  | some text => .ok text
  | none => .error (.noFile path)

def readExecutable (files : String → Option String) (path : String) :
    Except ProgramFault Executable := do
  let text ← contentOf files path
  (Executable.read text).mapError .executable

def listingLine (index : Nat) (token : String) (group : List MicroOp) : String :=
  Text.padLeft 5 (toString index) ++ ": " ++ Text.padRight 24 token ++ " " ++
    MicroOp.groupText group ++ "\n"

/-- Lists instructions up to the first one that has no expansion. -/
def listInstructions (printed : String) : List (Nat × String) → ProgramResult
  | [] => { printed }
  | (index, token) :: rest =>
    match Instruction.expand token false with
    | .ok group => listInstructions (printed ++ listingLine index token group) rest
    | .error fault => { printed, failure := some (.decode fault) }

/-- What one run has come to. -/
structure Finished where
  printed : String
  result : Except ProgramFault (BranchRecord × Nat)

/-- Runs a loaded program to its end. -/
def runOut (trace : Bool) (budget : Nat) (simulator : Simulator) (printed : String) :
    Option Finished := do
  let observe : Observer Console :=
    if trace then Console.observe else fun _ _ console => console
  let (result, simulator, console) ←
    simulator.runToExit observe budget ({ text := printed } : Console)
  let printed := (console.catchUp simulator.processor).text
  match result with
  | .ok record => return ⟨printed, .ok (record, simulator.cycle)⟩
  | .error message => return ⟨printed, .error (.run message)⟩

/-- Runs a loaded program in a debugger. -/
def debug (budget : Nat) (simulator : Simulator) (lines : List String) (printed : String) :
    Option Finished := do
  let session ← Session.hold budget simulator lines
  return ⟨printed ++ session.console.text,
    .ok (session.simulator.processor.record, session.simulator.cycle)⟩

/-- What all runs have in common. -/
structure Plan where
  configuration : Configuration
  executable : Executable
  trace : Bool
  /-- The path of the file for the records of all runs. -/
  json : Option String
  budget : Nat

/-- Runs the schemes in order.  Only the first one may be run in a debugger,
whose input lines are given then. -/
def runKinds (plan : Plan) (debugLines : Option (List String)) (printed : String)
    (records : List (String × BranchRecord)) : List PredictorKind → Option ProgramResult
  | [] => some { printed, written := plan.json.map fun path => (path, recordsFile records) }
  | kind :: rest =>
    match Simulator.load plan.configuration kind plan.executable .accepting with
    | .error fault => some { printed, failure := some (.load fault) }
    | .ok simulator => do
      let finished ← match debugLines with
        | some lines => debug plan.budget simulator lines printed
        | none => runOut plan.trace plan.budget simulator printed
      match finished.result with
      | .error fault => return { printed := finished.printed, failure := some fault }
      | .ok (record, cycles) =>
        runKinds plan none (finished.printed ++ record.summary kind cycles ++ "\n")
          (insertRecord kind.name record records) rest

/-- Reads all files that a run needs. -/
def prepare (files : String → Option String) (budget : Nat) (input : String)
    (arguments : Arguments) : Except ProgramFault Plan := do
  let executable ← readExecutable files input
  let file ← match arguments.configuration with
    | some path => some <$> contentOf files path
    | none => .ok none
  let overrides : Overrides := { sizes := arguments.sizes, maxCycles := arguments.maxCycles }
  let configuration ← (overrides.resolve file).mapError configurationFault
  return { configuration, executable, trace := arguments.trace, json := arguments.json, budget }

/-- Carries out a request.  `input` holds the lines for a debugger.  There is
no result if a run uses up the budget of cycles. -/
def carryOut (files : String → Option String) (input : List String) (budget : Nat) :
    Request → Option ProgramResult
  | .list path =>
    match readExecutable files path with
    | .ok executable => some (listInstructions "" executable.instructions)
    | .error fault => some { failure := some fault }
  | .run path arguments =>
    match prepare files budget path arguments with
    | .error fault => some { failure := some fault }
    | .ok plan =>
      let kinds := if arguments.predictors.isEmpty then PredictorKind.all else arguments.predictors
      runKinds plan (if arguments.interactive then some input else none) "" [] kinds

/-- Runs the program with the given arguments. -/
def run (files : String → Option String) (input : List String) (budget : Nat)
    (arguments : List String) : Option ProgramResult :=
  match Request.read arguments with
  | .ok request => carryOut files input budget request
  | .error fault => some { failure := some (.usage fault) }

end Program
end BranchPipeline
