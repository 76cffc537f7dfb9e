import BranchPipeline.Flags
import BranchPipeline.Register

namespace BranchPipeline

/-!
# Micro-operations

An instruction expands into at most three micro-operations, which pass every
value through the accumulator `rax`.  Each carries its operand, the width of
the whole instruction and a mark that says whether the instruction was fetched
on a path that was predicted to be taken.
-/

/-- The operation codes, in the order in which reports list them. -/
inductive MicroOpcode where
  | load
  | store
  | add
  | subtract
  | compare
  | jump
  | systemCall
  | idle
  deriving DecidableEq, Repr

namespace MicroOpcode

/-- How many operation codes there are. -/
abbrev count : Nat := 8

/-- All operation codes in report order. -/
def all : List MicroOpcode :=
  [load, store, add, subtract, compare, jump, systemCall, idle]

/-- The place of an operation code in report order. -/
def index : MicroOpcode → Fin count
  | load => 0 | store => 1 | add => 2 | subtract => 3
  | compare => 4 | jump => 5 | systemCall => 6 | idle => 7

def name : MicroOpcode → String
  | load => "LOAD"
  | store => "STO"
  | add => "ADD"
  | subtract => "SUB"
  | compare => "CMP"
  | jump => "JMP"
  | systemCall => "SYSCALL"
  | idle => "NOOP"

/-- The operation code with the given name, whatever the case of its ASCII
letters. -/
def named? (name : String) : Option MicroOpcode :=
  all.find? fun opcode => opcode.name.toList == name.toList.map Char.toUpper

/-- What to say of a name that no operation code has. -/
def unknownMessage (name : String) : String :=
  s!"unknown micro-opcode `{name}`"

end MicroOpcode

/-- What a micro-operation acts on. -/
inductive Operand where
  | register (ref : RegisterRef)
  /-- The address expression inside the brackets. -/
  | memory (expression : String)
  | immediate (value : Int64)
  | condition (met : Condition)
  deriving DecidableEq, Repr

namespace Operand

/-- The written form. -/
def text : Operand → String
  | register ref => ref.text
  | memory expression => "[" ++ expression ++ "]"
  | immediate value => toString value.toInt
  | condition met => met.suffix

/-- The width that the operand asks for, if it is a register. -/
def width? : Operand → Option Width
  | register ref => some ref.width
  | _ => none

end Operand

structure MicroOp where
  opcode : MicroOpcode
  operand : Option Operand
  width : Width
  speculative : Bool
  deriving DecidableEq, Repr

namespace MicroOp

/-- The operand's text, empty when there is none. -/
def operandText (op : MicroOp) : String :=
  match op.operand with
  | some operand => operand.text
  | none => ""

/-- Name, operand, width in bytes unless it is the full one, and a star on a
path that was predicted to be taken. -/
def text (op : MicroOp) : String :=
  op.opcode.name ++
    (if op.operand.isSome then " " ++ op.operandText else "") ++
    (if op.width == .quad then "" else s!" ({op.width.bytes}B)") ++
    (if op.speculative then " *" else "")

/-- The micro-operations of a group, as listings show them. -/
def groupText (group : List MicroOp) : String :=
  String.intercalate "; " (group.map text)

end MicroOp
end BranchPipeline
