import BranchPipeline.Debugger.Grammar
import BranchPipeline.Simulation.Options
import BranchPipeline.Text.Numeral

namespace BranchPipeline

/-!
# Debugger commands

A line holds one command; blanks around it and between its words do not
matter.  An empty line stands for running on in the mode set before.  Cycle
numbers and breakpoint numbers are decimal, step counts and addresses may also
be hexadecimal.
-/

/-- A value that is read whenever a run stops. -/
inductive Watched where
  | register (ref : RegisterRef)
  | cell (address : Address)
  deriving DecidableEq, Repr

/-- Something that the debugger can show. -/
inductive Shown where
  | cycle
  | stalls
  | statistics
  | breakpoints
  | tracing
  | watchings
  | lastTrace
  | reorder
  | pipeline
  | predictor
  | memory (address : Address) (length : Nat)
  | registers
  | register (ref : RegisterRef)
  deriving DecidableEq, Repr

inductive Command where
  | exit
  /-- Run on in the mode set before. -/
  | again
  | mode (chosen : Mode)
  | trace (enabled : Bool)
  | addBreakpoint (condition : BreakCondition)
  | removeBreakpoint (id : Nat)
  | watch (watched : Watched)
  | unwatch (watched : Watched)
  | display (shown : Shown)
  deriving DecidableEq, Repr

namespace Command

open Rule

def isDigit (c : Char) : Bool := (Text.decimalDigit? c).isSome

def isHexDigit (c : Char) : Bool := (Text.hexDigit? c).isSome

/-- Takes a character of a class without saying that it is missed. -/
def quietly (member : Char → Bool) : Rule Char := do
  let cursor ← get
  match cursor.rest with
  | c :: rest =>
    if member c then
      set { rest, offset := cursor.offset + c.utf8Size : Cursor }
      return c
    else failure
  | [] => failure

/-- A decimal count of at most 64 bits. -/
def count : Rule Nat := do
  let digits ← takeSome isDigit "usize"
  accept (Text.decimal? digits >>= Text.fitting?) "number fitting in usize"

/-- A hexadecimal count of at most 64 bits. -/
def hexadecimal : Rule Nat := do
  let _ ← quietly (· == '0')
  let _ ← quietly fun c => c == 'x' || c == 'X'
  let first ← quietly isHexDigit
  let digits ← takeAll isHexDigit
  accept (Text.natural? 16 Text.hexDigit? (first :: digits) >>= Text.fitting?) "hexadecimal"

/-- A count in either notation. -/
def anyCount : Rule Nat := hexadecimal <|> count

def address : Rule Address := do
  return ⟨← anyCount⟩

/-- A letter and the letters and digits behind it. -/
def identifier : Rule String := do
  let cursor ← get
  if cursor.rest.head?.any Char.isAlpha then
    return String.ofList (← takeAll Char.isAlphanum)
  else expected "identifier"

/-- Everything up to the next blank. -/
def word : Rule String := do
  return String.ofList (← takeSome (fun c => !Text.isAsciiBlank c) "word")

/-- A register name with an optional width letter. -/
def register : Rule RegisterRef := do
  accept (RegisterRef.read? (← identifier)) "register name"

/-- The name of a micro-operation. -/
def opcode : Rule MicroOpcode := do
  accept (MicroOpcode.named? (← identifier)) "micro-opcode"

def spelled (first second : String) : Rule Unit := literal first <|> literal second

def modeRule : Rule Mode :=
  (do literal "until"; gap; return .until (← count)) <|>
  (do literal "run"; return .free) <|>
  (do literal "step"; return .steps (← optional (do gap; anyCount)))

/-- What a breakpoint waits for. -/
def conditionRule : Rule BreakCondition :=
  (do spelled "opcode" "op"; gap; return .opcode (← opcode)) <|>
  (do literal "operand"; gap; return .operand (← word)) <|>
  (do literal "cycle"; gap; return .cycle (← count))

def watchedRule : Rule Watched :=
  (do spelled "memory" "mem"; gap; return .cell (← address)) <|>
  (do spelled "register" "reg"; gap; return .register (← register)) <|>
  (do return .register (← register))

def shownRule : Rule Shown :=
  (do spelled "registers" "regs"; return .registers) <|>
  (do literal "rob"; return .reorder) <|>
  (do literal "pipeline"; return .pipeline) <|>
  (do
    spelled "memory" "mem"; gap
    let start ← address
    let length ← optional (do gap; count)
    return .memory start (length.getD 1)) <|>
  (do literal "predictor"; return .predictor) <|>
  (do literal "trace"; return .lastTrace) <|>
  (do spelled "break" "bp"; return .breakpoints) <|>
  (do literal "stat"; return .statistics) <|>
  (do literal "cycle"; return .cycle) <|>
  (do literal "stall"; return .stalls) <|>
  (do spelled "watchings" "watch"; return .watchings) <|>
  (do return .register (← register))

/-- Whether to begin or to stop watching, and what. -/
def watchRule : Rule Command := do
  let begins ← (do literal "watch"; return true) <|> (do literal "unwatch"; return false)
  gap
  let watched ← watchedRule
  return if begins then .watch watched else .unwatch watched

/-- A command that does not run the program. -/
def staticRule : Rule Command :=
  (do literal "trace"; gap; literal "off"; return .trace false) <|>
  (do
    literal "trace"
    let _ ← optional (do gap; literal "on")
    return .trace true) <|>
  (do spelled "break" "bp"; gap; spelled "rm" "remove"; gap; return .removeBreakpoint (← count)) <|>
  (do spelled "break" "bp"; gap; return .addBreakpoint (← conditionRule)) <|>
  watchRule <|>
  (do literal "show"; gap; return .display (← shownRule))

/-- A command that runs the program. -/
def dynamicRule : Rule Command := do
  match ← optional modeRule with
  | some chosen => return .mode chosen
  | none => return .again

/-- A command with the blanks around it. -/
def rule : Rule Command :=
  (do blanks; let command ← staticRule; blanks; return command) <|>
  (do blanks; literal "exit"; blanks; return .exit) <|>
  (do blanks; let command ← dynamicRule; blanks; return command)

def read (line : String) : Except Missed Command := rule.parse line

end Command
end BranchPipeline
