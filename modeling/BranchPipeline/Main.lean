import BranchPipeline.CommandLine.Program

/-!
# The executable `bpsim`

Reads the files that the arguments name, runs the program on their contents
and puts its result out: what it prints to standard output, its fault to
standard error and the records of its runs to a file.  Everything that is
decided is decided in the pure program.
-/

namespace BranchPipeline
namespace Program

/-- The contents of those files that can be read, by path. -/
def readFiles (paths : List String) : IO (List (String × String)) :=
  paths.filterMapM fun (path : String) => do
    try
      let content ← IO.FS.readFile path
      return some (path, content)
    catch _ =>
      return none

/-- Puts a result out and gives the exit code. -/
def deliver (result : ProgramResult) : IO UInt32 := do
  IO.print result.printed
  if let some (path, content) := result.written then
    IO.FS.writeFile path content
  match result.failure with
  | none => return 0
  | some fault =>
    IO.eprintln s!"Error: {fault.message}"
    return 1

/-- Answers arguments that ask for no run and no listing. -/
def explain (fault : UsageFault) : IO UInt32 := do
  if fault.isAnswer then
    IO.println fault.message
    return 0
  else
    IO.eprintln fault.message
    return 2

end Program
end BranchPipeline

open BranchPipeline in
/-- Runs the program with the arguments of the command line. -/
def main (arguments : List String) : IO UInt32 := do
  match Request.read arguments with
  | .error fault => Program.explain fault
  | .ok request =>
    let files ← Program.readFiles request.paths
    let input ← if request.isInteractive then (← IO.getStdin).readToEnd else pure ""
    match Program.carryOut (fun path => files.lookup path) (Session.inputLines input)
        Program.budget request with
    | some result => Program.deliver result
    | none =>
      IO.eprintln "Error: the program does not end"
      return 1
