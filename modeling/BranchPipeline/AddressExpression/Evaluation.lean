import BranchPipeline.AddressExpression.Token
import BranchPipeline.RegisterFile

namespace BranchPipeline
namespace AddressExpression

/-!
# Evaluation of an address expression

The tokens are put into postfix order by a stack of waiting operators, and the
postfix sequence is run on a stack of words.  Since operators of one
precedence leave the stack before the next one enters it, all operators group
to the left.  An operand word is a signed literal if it can be read as one and
a register otherwise.

An evaluation reads registers, and the processor counts register reads.
`consulted` lists the registers in the order in which an evaluation reads
them, up to the point where it fails.
-/

/-- Puts the tokens into postfix order, with the operators that are already
waiting, the latest first. -/
def toPostfixFrom (waiting : List Operator) : List Token → List Token
  | [] => waiting.map .operator
  | .operand word :: rest => .operand word :: toPostfixFrom waiting rest
  | .operator operator :: rest =>
    let bindsFirst := fun (top : Operator) => decide (operator.precedence ≤ top.precedence)
    (waiting.takeWhile bindsFirst).map .operator ++
      toPostfixFrom (operator :: waiting.dropWhile bindsFirst) rest

/-- Puts the tokens into postfix order. -/
def toPostfix (tokens : List Token) : List Token :=
  toPostfixFrom [] tokens

def operandValue (file : RegisterFile) (word : String) : Except Reason Int64 :=
  match Text.literal? word with
  | some value => .ok value
  | none =>
    match RegisterRef.read word with
    | .error fault => .error (.register fault)
    | .ok ref =>
      match file.read ref with
      | .error fault => .error (.register fault)
      | .ok value => .ok value.toInt64

def operandRegister? (word : String) : Option Register :=
  match Text.literal? word with
  | some _ => none
  | none => (RegisterRef.read? word).map (·.register)

/-- Runs one token of a postfix sequence on the stack, whose top is first. -/
def runToken (file : RegisterFile) (stack : List Int64) : Token → Except Reason (List Int64)
  | .operand word => do
    let value ← operandValue file word
    return value :: stack
  | .operator operator =>
    match stack with
    | second :: first :: rest =>
      match operator.apply first second with
      | some value => .ok (value :: rest)
      | none => .error .divisionByZero
    | _ => .error .missingOperand

/-- Runs a postfix sequence, which must leave one word. -/
def runPostfix (file : RegisterFile) (tokens : List Token) : Except Reason Int64 := do
  match ← tokens.foldlM (runToken file) [] with
  | [value] => .ok value
  | _ => .error .danglingOperand

/-- The registers that a postfix run reads before it ends or fails. -/
def consultedFrom (file : RegisterFile) (stack : List Int64) : List Token → List Register
  | [] => []
  | token :: rest =>
    let here := match token with
      | .operand word => (operandRegister? word).toList
      | .operator _ => []
    match runToken file stack token with
    | .ok stack => here ++ consultedFrom file stack rest
    | .error _ => here

/-- The value of an expression, given as text. -/
def evaluate (file : RegisterFile) (expression : String) : Except Reason Int64 := do
  let tokens ← parse expression
  runPostfix file (toPostfix tokens)

/-- The registers that the evaluation of an expression reads, in order. -/
def consulted (file : RegisterFile) (expression : String) : List Register :=
  match parse expression with
  | .ok tokens => consultedFrom file [] (toPostfix tokens)
  | .error _ => []

end AddressExpression

/-- An address expression without a value, and why. -/
structure AddressFault where
  expression : String
  reason : AddressExpression.Reason
  deriving DecidableEq, Repr

def AddressFault.message (fault : AddressFault) : String :=
  s!"malformed address expression `{fault.expression}`: {fault.reason.message}"

/-- The value of an address expression under a register file. -/
def RegisterFile.address (file : RegisterFile) (expression : String) :
    Except AddressFault Int64 :=
  match AddressExpression.evaluate file expression with
  | .ok value => .ok value
  | .error reason => .error ⟨expression, reason⟩

end BranchPipeline
