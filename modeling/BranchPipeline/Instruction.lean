import BranchPipeline.MicroOp
import BranchPipeline.Text.Blank
import BranchPipeline.Text.Numeral

namespace BranchPipeline

/-!
# Instructions

An instruction is a line of text: a mnemonic and its operands, separated by
blanks or commas.  `Instruction.expand` turns it into a group of
micro-operations.  All micro-operations of a group have one width, the
narrowest that a register among the operands asks for.
-/

/-- The longest group that an instruction expands into. -/
def maxGroupLength : Nat := 3

/-- Why an instruction text has no expansion. -/
inductive DecodeFault where
  | invalidOpcode (text : String)
  | operandCount (mnemonic : String) (expected found : Nat)
  | malformedOperand (token : String)
  | invalidDestination (token : String)
  deriving DecidableEq, Repr

def DecodeFault.message : DecodeFault → String
  | .invalidOpcode text => s!"invalid opcode found: `{text}`"
  | .operandCount mnemonic expected found =>
    s!"`{mnemonic}` takes {expected} operand(s), found {found}"
  | .malformedOperand token => s!"malformed operand `{token}`"
  | .invalidDestination token => s!"`{token}` cannot be written to"

namespace Operand

/-- Reads an operand: a nonempty text in brackets, a signed literal, or a
register name.  A text that opens a bracket is never tried as anything else. -/
def read (token : String) : Except DecodeFault Operand :=
  match Text.stripLead '[' token.toList with
  | some inner =>
    match Text.stripLast ']' inner with
    | some (c :: expression) => .ok (.memory (String.ofList (c :: expression)))
    | _ => .error (.malformedOperand token)
  | none =>
    match Text.literal? token with
    | some value => .ok (.immediate value)
    | none =>
      match RegisterRef.read? token with
      | some ref => .ok (.register ref)
      | none => .error (.malformedOperand token)

/-- Reads an operand that is to be written: neither a literal nor a register
of the pipeline. -/
def readDestination (token : String) : Except DecodeFault Operand := do
  match ← read token with
  | .immediate _ => .error (.invalidDestination token)
  | .register ref =>
    if ref.register.isInternal then .error (.invalidDestination token)
    else .ok (.register ref)
  | operand => .ok operand

end Operand

namespace Instruction

/-- What separates the words of an instruction. -/
def isSeparator (c : Char) : Bool :=
  Text.isBlank c || c == ','

/-- The narrowest width among register operands, and the full one without any. -/
def groupWidth (operands : List Operand) : Width :=
  (operands.filterMap Operand.width?).foldl Width.narrower .quad

/-- Gives every step of a group the common width and the speculative mark. -/
def group (operands : List Operand) (speculative : Bool)
    (steps : List (MicroOpcode × Option Operand)) : List MicroOp :=
  steps.map fun (opcode, operand) =>
    ⟨opcode, operand, groupWidth operands, speculative⟩

/-- A word that starts with `j` is a jump on the condition named by the rest. -/
def jumpCondition? (mnemonic : String) : Option Condition :=
  match Text.stripLead 'j' mnemonic.toList with
  | some suffix => Condition.ofSuffix? (String.ofList suffix)
  | none => none

/-- What a mnemonic does with its operands. -/
inductive Mnemonic where
  | move
  | compare
  | increment
  | decrement
  | systemCall
  | idle
  | jump (condition : Condition)
  deriving DecidableEq, Repr

/-- The meaning of a lowercase mnemonic. -/
def Mnemonic.named? : String → Option Mnemonic
  | "mov" => some .move
  | "cmp" => some .compare
  | "inc" => some .increment
  | "dec" => some .decrement
  | "syscall" => some .systemCall
  | "noop" | "nop" => some .idle
  | other => (jumpCondition? other).map .jump

/-- How many operands a mnemonic takes. -/
def Mnemonic.arity : Mnemonic → Nat
  | .move | .compare => 2
  | .increment | .decrement | .jump _ => 1
  | .systemCall | .idle => 0

/-- The group of a mnemonic with its operand words; `name` is the mnemonic as
it was written.  The number of words is checked before any of them is read. -/
def expandOperands (name : String) (mnemonic : Mnemonic) (tokens : List String)
    (speculative : Bool) : Except DecodeFault (List MicroOp) :=
  match mnemonic, tokens with
  | .move, [first, second] => do
    let target ← Operand.readDestination first
    let source ← Operand.read second
    return group [target, source] speculative
      [(.load, some source), (.store, some target)]
  | .compare, [first, second] => do
    let left ← Operand.read first
    let right ← Operand.read second
    return group [left, right] speculative
      [(.load, some right), (.compare, some left)]
  | .increment, [first] => do
    let target ← Operand.readDestination first
    return group [target] speculative
      [(.load, some target), (.add, some (.immediate 1)), (.store, some target)]
  | .decrement, [first] => do
    let target ← Operand.readDestination first
    return group [target] speculative
      [(.load, some target), (.subtract, some (.immediate 1)), (.store, some target)]
  | .jump condition, [first] => do
    let target ← Operand.read first
    return group [target] speculative
      [(.load, some target), (.jump, some (.condition condition))]
  | .systemCall, [] => .ok (group [] speculative [(.systemCall, none)])
  | .idle, [] => .ok (group [] speculative [(.idle, none)])
  | mnemonic, tokens => .error (.operandCount name mnemonic.arity tokens.length)

/-- Expands the words of an instruction.  A wrong mnemonic is found before a
wrong number of operands, and that before a wrong operand. -/
def expandWords (text : String) (speculative : Bool) :
    List String → Except DecodeFault (List MicroOp)
  | [] => .error (.invalidOpcode text)
  | first :: tokens =>
    let name := first.map Char.toLower
    match Mnemonic.named? name with
    | none => .error (.invalidOpcode name)
    | some mnemonic => expandOperands name mnemonic tokens speculative

/-- Expands an instruction text into its micro-operations, all of which get
the speculative mark. -/
def expand (text : String) (speculative : Bool) : Except DecodeFault (List MicroOp) :=
  expandWords text speculative (Text.words isSeparator text)

end Instruction
end BranchPipeline
