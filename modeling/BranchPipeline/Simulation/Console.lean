import BranchPipeline.Simulation.Simulator

namespace BranchPipeline

/-!
# Consoles

A console shows the program's own output, line by line, among the lines that
the simulation prints.  The processor keeps all of its output, so a console
remembers how much of it has been shown and catches up before anything that
happened later is printed.
-/

/-- What has been printed, and how many of the ranges that the program wrote
are part of it. -/
structure Console where
  text : String := ""
  rangesShown : Nat := 0
  deriving DecidableEq, Repr

namespace Console

def print (console : Console) (text : String) : Console :=
  { console with text := console.text ++ text }

def printLine (console : Console) (text : String) : Console :=
  console.print (text ++ "\n")

/-- Prints what the program has written since the last time. -/
def catchUp (console : Console) (processor : Processor) : Console :=
  let output := processor.machine.output
  { text := console.text ++ output.linesAfter console.rangesShown
    rangesShown := output.latestFirst.length }

/-- Prints the output of a cycle and then its trace. -/
def observe : Observer Console := fun processor trace console =>
  (console.catchUp processor).printLine trace.text

end Console
end BranchPipeline
