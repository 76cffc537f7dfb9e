import BranchPipeline.Debugger.Command
import BranchPipeline.Simulation.Console

namespace BranchPipeline

/-!
# Debugger sessions

A session reads one command after the other and answers on a console, on which
the program's own output appears too, in the order in which things happen.  A
command that changes what the session is asked to do is answered by showing
what has changed.  The session ends when the program exits, at the command for
it, or when the input ends.

A command that runs the program may never come to an end, so a session is
given the budget of cycles of each such command.
-/

/-- A debugger at work. -/
structure Session where
  simulator : Simulator
  options : Options := {}
  /-- The number of the next breakpoint; numbers are never used again. -/
  nextBreakpoint : Nat := 0
  console : Console := {}

namespace Session

/-- Writes on the console. -/
def print (session : Session) (text : String) : Session :=
  { session with console := session.console.print text }

/-- Writes a line on the console. -/
def printLine (session : Session) (text : String) : Session :=
  session.print (text ++ "\n")

def registersPerRow : Nat := 2

def statisticsWidth : Nat := 60

/-- The watched registers and addresses. -/
def watchingsText (watchings : Watchings) : String :=
  if watchings.registers.isEmpty && watchings.addresses.isEmpty then "nothing to watch."
  else
    "watching these values:" ++
      (if watchings.registers.isEmpty then ""
        else "\n\tregisters: " ++
          String.intercalate ", " (watchings.registers.map RegisterRef.text)) ++
      (if watchings.addresses.isEmpty then ""
        else "\n\tmemory: " ++ String.intercalate ", " (watchings.addresses.map Address.text))

def breakpointsText (breakpoints : Breakpoints) : String :=
  if breakpoints.isEmpty then "no breakpoints set."
  else "breakpoints: [" ++ String.intercalate ", " (breakpoints.map Breakpoint.text) ++ "]"

/-- What a register holds, or why it cannot be read. -/
def registerText (ref : RegisterRef) : Except RegisterFault UInt64 → String
  | .ok value => s!"{ref.text} == {value}"
  | .error fault => fault.message

/-- The text of what is to be shown.  Only a register is read through the
counted path, and so may change the simulator's counts. -/
def shownText (session : Session) (shown : Shown) : String × Simulator :=
  let simulator := session.simulator
  let processor := simulator.processor
  match shown with
  | .cycle =>
    (s!"cycle #{simulator.cycle}, rip == " ++
      (processor.machine.registers.content .rip).shown, simulator)
  | .stalls => ("stalled: " ++ processor.stalled.text, simulator)
  | .statistics => (Statistics.view (simulator.report statisticsWidth), simulator)
  | .breakpoints => (breakpointsText session.options.breakpoints, simulator)
  | .tracing =>
    ("trace " ++ (if session.options.tracing then "enabled" else "disabled"), simulator)
  | .watchings => (watchingsText session.options.watchings, simulator)
  | .lastTrace =>
    (match simulator.lastTrace with
      | some trace => trace.text
      | none => "no cycle has run yet.", simulator)
  | .reorder => (processor.inFlight.reorder.view ReorderEntry.text, simulator)
  | .pipeline => (processor.inFlight.pipeline.view MicroOp.text, simulator)
  | .predictor => (processor.predictor.view, simulator)
  | .memory address length => (processor.machine.memory.view address length, simulator)
  | .registers => (processor.machine.registers.view registersPerRow, simulator)
  | .register ref =>
    let (value, simulator) := simulator.readRegister ref
    (registerText ref value, simulator)

/-- Shows something on the console. -/
def show? (session : Session) (shown : Shown) : Session :=
  let (text, simulator) := session.shownText shown
  { session with simulator }.printLine text

def modeText : Mode → String
  | .free => "run "
  | .until cycle => s!"until #{cycle} "
  | .steps count => s!"step {count.getD 1} "

/-- Asks for a command. -/
def prompt (session : Session) : Session :=
  session.print
    (modeText session.options.mode ++ (if session.options.tracing then "[trace] " else "") ++ "> ")

def watchedRegistersText (values : List (RegisterRef × Except RegisterFault UInt64)) : String :=
  String.intercalate ", " (values.map fun (ref, value) =>
    match value with
    | .ok value => s!"{ref.text} == {value}"
    | .error fault => s!"{ref.text}: {fault.message}")

def watchedCellsText (values : List (Address × Option Cell)) : String :=
  String.intercalate ", " (values.map fun (address, cell) =>
    match cell with
    | some cell => s!"M[{address.text}] == {cell.text}"
    | none => s!"M[{address.text}] is out of bounds")

def printWatched (session : Session) (watched : WatchedValues) : Session :=
  let session :=
    if watched.registers.isEmpty then session
    else session.printLine (watchedRegistersText watched.registers)
  if watched.cells.isEmpty then session
  else session.printLine (watchedCellsText watched.cells)

/-- Writes why a run has stopped. -/
def printReason (session : Session) : StopReason → Session
  | .reached _ | .stepsDone => session
  | .breakpoint id =>
    match session.options.breakpoints.withId? id with
    | some breakpoint => session.printLine s!"reached {breakpoint.text}"
    | none => session.printLine s!"reached breakpoint #{id}"
  | .cannotRestart =>
    session.printLine s!"cannot restart simulator due to previous error: {failureText session}"
  | .failed =>
    session.printLine s!"failed at #{session.simulator.cycle}: {failureText session}"
where
  /-- The fault of the simulator. -/
  failureText (session : Session) : String :=
    (session.simulator.failure.map Fault.message).getD ""

/-- Whether a session goes on after a command. -/
inductive Progress where
  | ongoing
  | over
  deriving DecidableEq, Repr

/-- Runs the program as the options ask and reports how the run ended. -/
def runProgram (budget : Nat) (session : Session) : Option (Session × Progress) := do
  let (ending, simulator, console) ←
    session.simulator.run session.options Console.observe budget session.console
  let session := { session with
    simulator
    console := console.catchUp simulator.processor }
  match ending with
  | .stopped reason watched => return ((session.printReason reason).printWatched watched, .ongoing)
  | .exited =>
    return (session.printLine s!"program halts at cycle #{simulator.cycle}", .over)

/-- Begins to watch a value, unless it is watched already. -/
def beginWatching (watchings : Watchings) : Watched → Watchings
  | .register ref =>
    if ref ∈ watchings.registers then watchings
    else { watchings with registers := watchings.registers ++ [ref] }
  | .cell address =>
    if address ∈ watchings.addresses then watchings
    else { watchings with addresses := watchings.addresses ++ [address] }

/-- Stops watching a value. -/
def endWatching (watchings : Watchings) : Watched → Watchings
  | .register ref =>
    { watchings with registers := watchings.registers.filter fun other => other != ref }
  | .cell address =>
    { watchings with addresses := watchings.addresses.filter fun other => other != address }

def withOptions (session : Session) (change : Options → Options) : Session :=
  { session with options := change session.options }

/-- Carries out a command.  It says whether the session goes on. -/
def carryOut (budget : Nat) (session : Session) : Command → Option (Session × Progress)
  | .exit => some (session, .over)
  | .again => session.runProgram budget
  | .mode chosen =>
    ((session.printLine s!"mode: {chosen.text}").withOptions fun options =>
      { options with mode := chosen }).runProgram budget
  | .trace enabled =>
    some ((session.withOptions fun options =>
      { options with tracing := enabled }).show? .tracing, .ongoing)
  | .addBreakpoint condition =>
    let added := session.withOptions fun options =>
      { options with
        breakpoints := options.breakpoints.insert ⟨session.nextBreakpoint, condition⟩ }
    some ({ added with nextBreakpoint := session.nextBreakpoint + 1 }.show? .breakpoints, .ongoing)
  | .removeBreakpoint id =>
    let told :=
      if session.options.breakpoints.has id then session
      else session.printLine s!"no breakpoint #{id}"
    some ((told.withOptions fun options =>
      { options with breakpoints := options.breakpoints.erase id }).show? .breakpoints, .ongoing)
  | .watch watched =>
    some ((session.withOptions fun options =>
      { options with watchings := beginWatching options.watchings watched }).show?
        .watchings, .ongoing)
  | .unwatch watched =>
    some ((session.withOptions fun options =>
      { options with watchings := endWatching options.watchings watched }).show?
        .watchings, .ongoing)
  | .display shown => some (session.show? shown, .ongoing)

/-- Answers one line.  A line that is no command is explained and changes
nothing else. -/
def answer (budget : Nat) (session : Session) (line : String) : Option (Session × Progress) :=
  match Command.read line with
  | .ok command => session.carryOut budget command
  | .error missed => some (session.printLine s!"parse error: expected {missed.text}", .ongoing)

/-- Answers the lines in order, asking for each one. -/
def answerAll (budget : Nat) (session : Session) : List String → Option Session
  | [] => some session.prompt
  | line :: rest => do
    match ← session.prompt.answer budget line with
    | (session, .over) => return session
    | (session, .ongoing) => session.answerAll budget rest

/-- Holds a whole session with the given input lines.  There is no result if
a run uses up its budget. -/
def hold (budget : Nat) (simulator : Simulator) (lines : List String) : Option Session := do
  let opened := ({ simulator } : Session).printLine
    s!"entering interactive ({simulator.kind.name})."
  let session ← opened.answerAll budget lines
  return session.printLine "exiting interactive."

/-- The lines of an input, each with its line end. -/
def inputLines (input : String) : List String :=
  match (input.splitOn "\n").reverse with
  | [] => []
  | last :: ended =>
    let whole := ended.reverse.map fun line => line ++ "\n"
    if last.isEmpty then whole else whole ++ [last]

end Session
end BranchPipeline
