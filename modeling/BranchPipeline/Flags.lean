namespace BranchPipeline

/-!
# Flags and branch conditions

A comparison leaves three flags that describe one signed word.  A conditional
jump looks at two of them.  The comparison `cmp a, b` describes the difference
`b - a`, so that "greater" asks for a negative difference: `a` is greater than
`b` when `b - a` is below zero.
-/

/-- What is known of the last compared difference. -/
structure Flags where
  sign : Bool := false
  zero : Bool := false
  parity : Bool := false
  deriving DecidableEq, Repr

namespace Flags

/-- The flags of a signed word; the parity is that of the whole value. -/
def of (value : Int64) : Flags where
  sign := value < 0
  zero := value == 0
  parity := value % 2 == 0

def bit (flag : Bool) : String := if flag then "1" else "0"

/-- The three flags as a report shows them. -/
def text (flags : Flags) : String :=
  "SF=" ++ bit flags.sign ++ " ZF=" ++ bit flags.zero ++ " PF=" ++ bit flags.parity

end Flags

/-- When a jump is taken. -/
inductive Condition where
  | always
  | equal
  | notEqual
  | greater
  | less
  | greaterEqual
  | lessEqual
  deriving DecidableEq, Repr

namespace Condition

/-- All conditions, in the order of their declaration. -/
def all : List Condition :=
  [always, equal, notEqual, greater, less, greaterEqual, lessEqual]

/-- What follows `j` in the mnemonic of the jump. -/
def suffix : Condition → String
  | always => "mp"
  | equal => "e"
  | notEqual => "ne"
  | greater => "g"
  | less => "l"
  | greaterEqual => "ge"
  | lessEqual => "le"

def ofSuffix? (suffix : String) : Option Condition :=
  all.find? fun condition => condition.suffix == suffix

/-- Whether the flags let the jump be taken. -/
def isMet (condition : Condition) (flags : Flags) : Bool :=
  match condition with
  | always => true
  | equal => flags.zero
  | notEqual => !flags.zero
  | greater => flags.sign
  | less => !flags.sign
  | greaterEqual => flags.sign || flags.zero
  | lessEqual => !flags.sign || flags.zero

end Condition
end BranchPipeline
