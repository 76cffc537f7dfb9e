import BranchPipeline.Register
import BranchPipeline.Text.Blank
import BranchPipeline.Text.Numeral
import BranchPipeline.Text.Quoted

namespace BranchPipeline
namespace AddressExpression

/-!
# Tokens of an address expression

A memory operand holds an arithmetic expression.  Its tokens are operand words
(maximal runs of ASCII letters, digits and underscores) and the four
operators; ASCII blanks may stand around a token, never inside one.  Brackets
around the whole expression are ignored, however many there are on either
side.  Operand words and operators must alternate, with a word at both ends.

The scanner is put together from parts of a library, and follows what is
documented of them.  A run takes as many characters of its class as there are
and gives none of them back, so that two words never touch.  Tokens with the
blanks around them are repeated, at least once, as long as there is another
one; the first text that is none ends the repetition without a failure of its
own, and only then it is asked whether anything is left.
-/

inductive Operator where
  | add | subtract | multiply | divide
  deriving DecidableEq, Repr

namespace Operator

/-- How tightly an operator binds. -/
def precedence : Operator → Nat
  | add | subtract => 1
  | multiply | divide => 2

def ofChar? : Char → Option Operator
  | '+' => some add
  | '-' => some subtract
  | '*' => some multiply
  | '/' => some divide
  | _ => none

/-- The result on signed words.  Sums, differences and products wrap; a
quotient drops its fraction, and there is none for a zero divisor or when it
would not fit. -/
def apply (operator : Operator) (first second : Int64) : Option Int64 :=
  match operator with
  | add => some (first + second)
  | subtract => some (first - second)
  | multiply => some (first * second)
  | divide =>
    if second == 0 || (first == Int64.minValue && second == -1) then none
    else some (first / second)

end Operator

inductive Token where
  | operand (word : String)
  | operator (operator : Operator)
  deriving DecidableEq, Repr

/-- Why an address expression has no value. -/
inductive Reason where
  /-- No token could be read; the text from where one should start. -/
  | unreadable (rest : String)
  /-- Something behind the last token is no token. -/
  | trailing (rest : String)
  | operatorAt (position : Nat)
  | missingOperator (word : String)
  | missingOperand
  | register (fault : RegisterFault)
  | divisionByZero
  | danglingOperand
  deriving DecidableEq, Repr

def Reason.message : Reason → String
  | .unreadable rest => scanFailure rest "OneOf"
  | .trailing rest => scanFailure rest "Eof"
  | .operatorAt position => s!"operator at token {position}"
  | .missingOperator word => s!"missing operator before `{word}`"
  | .missingOperand => "missing operand"
  | .register fault => fault.message
  | .divisionByZero => "division by zero"
  | .danglingOperand => "dangling operand"
where
  /-- Shows the text that could not be read, and what was looked for there. -/
  scanFailure (rest sought : String) : String :=
    "Parsing Error: Error \x7b input: " ++ Text.quoted rest ++ ", code: " ++ sought ++ " \x7d"

def isWordChar (c : Char) : Bool :=
  c.isAlphanum || c == '_'

theorem length_dropWhile_le (drops : Char → Bool) (chars : List Char) :
    (chars.dropWhile drops).length ≤ chars.length :=
  (List.dropWhile_sublist drops).length_le

/-- The tokens from the front on, and the text that is left where no further
token starts, without the blanks in front of it. -/
def scan (chars : List Char) : List Token × List Char :=
  match _unread : chars.dropWhile Text.isAsciiBlank with
  | [] => ([], [])
  | c :: rest =>
    match Operator.ofChar? c with
    | some operator =>
      let (tokens, left) := scan rest
      (.operator operator :: tokens, left)
    | none =>
      if isWordChar c then
        let (tokens, left) := scan (rest.dropWhile isWordChar)
        (.operand (String.ofList (c :: rest.takeWhile isWordChar)) :: tokens, left)
      else ([], c :: rest)
termination_by chars.length
decreasing_by
  all_goals
    have shorter := length_dropWhile_le Text.isAsciiBlank chars
    rw [_unread, List.length_cons] at shorter
  · omega
  · have within := length_dropWhile_le isWordChar rest
    omega

/-- The expression without blanks at its ends and without its brackets. -/
def strip (expression : String) : List Char :=
  Text.dropTail (· == ']') ((Text.trim expression.toList).dropWhile (· == '['))

/-- Reads all tokens of a stripped expression. -/
def tokenize (chars : List Char) : Except Reason (List Token) :=
  match scan chars with
  | ([], left) => .error (.unreadable (String.ofList left))
  | (tokens, []) => .ok tokens
  | (_, left) => .error (.trailing (String.ofList left))

/-- Checks that words and operators alternate from the given position on,
where words belong to even positions. -/
def checkFrom (position : Nat) : List Token → Except Reason Unit
  | [] => if position % 2 = 0 then .error .missingOperand else .ok ()
  | .operator _ :: rest =>
    if position % 2 = 0 then .error (.operatorAt position) else checkFrom (position + 1) rest
  | .operand word :: rest =>
    if position % 2 = 0 then checkFrom (position + 1) rest else .error (.missingOperator word)

/-- Checks that words and operators alternate, with a word at both ends. -/
def check (tokens : List Token) : Except Reason Unit :=
  checkFrom 0 tokens

def parse (expression : String) : Except Reason (List Token) := do
  let tokens ← tokenize (strip expression)
  check tokens
  return tokens

end AddressExpression
end BranchPipeline
