import BranchPipeline.MicroOp
import BranchPipeline.Memory

namespace BranchPipeline

/-!
# What a simulation is asked to do

A mode says how far to run.  Breakpoints stop a run early, and watched
registers and cells are read whenever it stops.
-/

/-- How far to run. -/
inductive Mode where
  /-- Until the program exits or fails. -/
  | free
  /-- Until so many cycles have been completed, but at least one more. -/
  | until (cycle : Nat)
  /-- So many cycles; one if no number is given. -/
  | steps (count : Option Nat)
  deriving DecidableEq, Repr

/-- The mode as a debugger announces it. -/
def Mode.text : Mode → String
  | .free => "running simply"
  | .until cycle => s!"running until cycle #{cycle}"
  | .steps count => s!"step execution by {count.getD 1}"

/-- What a breakpoint waits for. -/
inductive BreakCondition where
  | opcode (opcode : MicroOpcode)
  /-- The text of the executed micro-operation's operand. -/
  | operand (text : String)
  | cycle (number : Nat)
  deriving DecidableEq, Repr

namespace BreakCondition

/-- Whether a cycle with the given number, in which the given micro-operation
was executed, is waited for. -/
def hits (condition : BreakCondition) (number : Nat) (executed : Option MicroOp) : Bool :=
  match condition with
  | opcode awaited => executed.any fun op => op.opcode == awaited
  | operand text => executed.any fun op => op.operandText == text
  | cycle awaited => awaited == number

/-- The condition as a debugger shows it. -/
def text : BreakCondition → String
  | opcode awaited => s!"opcode {awaited.name}"
  | operand awaited => s!"operand {awaited}"
  | cycle awaited => s!"cycle #{awaited}"

end BreakCondition

/-- A numbered condition. -/
structure Breakpoint where
  id : Nat
  condition : BreakCondition
  deriving DecidableEq, Repr

/-- The breakpoint as a debugger shows it. -/
def Breakpoint.text (breakpoint : Breakpoint) : String :=
  s!"#{breakpoint.id}: {breakpoint.condition.text}"

/-- Breakpoints, kept in the order of their numbers. -/
abbrev Breakpoints := List Breakpoint

namespace Breakpoints

/-- Adds a breakpoint, in place of one with the same number. -/
def insert (added : Breakpoint) : Breakpoints → Breakpoints
  | [] => [added]
  | first :: rest =>
    if added.id < first.id then added :: first :: rest
    else if added.id = first.id then added :: rest
    else first :: insert added rest

/-- Whether there is a breakpoint with the given number. -/
def has (breakpoints : Breakpoints) (id : Nat) : Bool :=
  breakpoints.any fun breakpoint => breakpoint.id == id

/-- The breakpoint with the given number. -/
def withId? (breakpoints : Breakpoints) (id : Nat) : Option Breakpoint :=
  breakpoints.find? fun breakpoint => breakpoint.id == id

/-- Removes the breakpoint with the given number. -/
def erase (breakpoints : Breakpoints) (id : Nat) : Breakpoints :=
  breakpoints.filter fun breakpoint => breakpoint.id != id

/-- The first breakpoint that a cycle hits. -/
def hit? (breakpoints : Breakpoints) (number : Nat) (executed : Option MicroOp) :
    Option Breakpoint :=
  breakpoints.find? fun breakpoint => breakpoint.condition.hits number executed

end Breakpoints

/-- What is read whenever a run stops. -/
structure Watchings where
  registers : List RegisterRef := []
  addresses : List Address := []
  deriving DecidableEq, Repr

/-- Everything that a simulation is asked to do. -/
structure Options where
  tracing : Bool := false
  mode : Mode := .free
  watchings : Watchings := {}
  breakpoints : Breakpoints := []
  deriving DecidableEq, Repr

end BranchPipeline
