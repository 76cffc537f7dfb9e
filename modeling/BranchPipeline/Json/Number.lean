import BranchPipeline.Text.Numeral

namespace BranchPipeline
namespace Json

/-!
# Numbers in JSON texts

A number without a fraction and an exponent is an integer if it fits a 64-bit
word, signed or not; every other number is a double.  The digits of a double
are gathered into an unsigned 64-bit word as long as they fit; later digits
only move the exponent, and the word is then scaled by one power of ten.  A
number whose scaled value is too large for a double is no number.

A reader takes the text from where it stands and gives, with what it has
read, the text behind it.
-/

/-- Why a text could not be read. -/
inductive Fault where
  /-- The text is no JSON. -/
  | malformed
  /-- The text ended too early. -/
  | ended
  /-- The text is JSON so far, but not of the wanted shape. -/
  | unfit (message : String)
  deriving DecidableEq, Repr

def Fault.message : Fault → String
  | .malformed => "the text is no JSON"
  | .ended => "the JSON text ends too early"
  | .unfit message => message

/-- A number as it was read. -/
inductive Number where
  | integer (value : Int)
  | double (value : Float)

/-- The parts of a written number. -/
structure Written where
  negative : Bool
  whole : List Nat
  fraction : List Nat := []
  exponent : Option Int := none

/-- The digits at the front of a text, and the text behind them. -/
def takeDigits : List Char → List Nat × List Char
  | [] => ([], [])
  | c :: rest =>
    match Text.decimalDigit? c with
    | some digit =>
      let (digits, left) := takeDigits rest
      (digit :: digits, left)
    | none => ([], c :: rest)

def readDigits (input : List Char) : Except Fault (List Nat × List Char) :=
  match takeDigits input with
  | ([], []) => .error .ended
  | ([], _) => .error .malformed
  | (digits, rest) => .ok (digits, rest)

/-- Reads the digits in front of the point; a zero stands alone. -/
def readWhole (input : List Char) : Except Fault (List Nat × List Char) := do
  match ← readDigits input with
  | (0 :: _ :: _, _) => .error .malformed
  | (digits, rest) => .ok (digits, rest)

/-- Reads the point and the digits behind it, if there is a point. -/
def readFraction : List Char → Except Fault (Option (List Nat) × List Char)
  | '.' :: rest => do
    let (digits, rest) ← readDigits rest
    return (some digits, rest)
  | input => .ok (none, input)

def readSignedDigits : List Char → Except Fault (Int × List Char)
  | '-' :: rest => do
    let (digits, rest) ← readDigits rest
    return (-(Text.ofDigits 10 digits : Int), rest)
  | '+' :: rest | rest => do
    let (digits, rest) ← readDigits rest
    return ((Text.ofDigits 10 digits : Int), rest)

/-- Reads an exponent, if there is one. -/
def readExponent : List Char → Except Fault (Option Int × List Char)
  | 'e' :: rest | 'E' :: rest => do
    let (exponent, rest) ← readSignedDigits rest
    return (some exponent, rest)
  | input => .ok (none, input)

/-- The largest number that an unsigned 64-bit word holds. -/
def largestWord : Nat := 0xFFFFFFFFFFFFFFFF

/-- Appends digits to a word as long as it does not overflow.  Gives the word
and how many digits it took. -/
def gather (word : Nat) : List Nat → Nat × Nat
  | [] => (word, 0)
  | digit :: rest =>
    if word * 10 + digit ≤ largestWord then
      let (gathered, taken) := gather (word * 10 + digit) rest
      (gathered, taken + 1)
    else (word, 0)

/-- The largest power of ten that a double holds. -/
def largestPower : Nat := 308

/-- A power of ten that a double holds. -/
def powerOfTen (exponent : Nat) : Float :=
  Float.ofScientific 1 false exponent

/-- Divides by ten to the given power, in steps that a double holds.  Zero is
reached after a few steps, whatever the power. -/
def scaleDown (value : Float) (exponent : Nat) : Float :=
  if exponent ≤ largestPower then value / powerOfTen exponent
  else if value == 0 then value
  else scaleDown (value / powerOfTen largestPower) (exponent - largestPower)
termination_by exponent
decreasing_by simp only [largestPower] at *; omega

/-- A word times a power of ten, unless that is too large. -/
def scale (word : Nat) (exponent : Int) : Option Float :=
  let value := word.toUInt64.toFloat
  if exponent < 0 then some (scaleDown value exponent.natAbs)
  else if exponent.natAbs ≤ largestPower then
    let scaled := value * powerOfTen exponent.natAbs
    if scaled.isInf then none else some scaled
  else if value == 0 then some value else none

/-- The largest exponent that is taken at its value. -/
def largestExponent : Nat := 0x7FFFFFFF

/-- The double that a written number denotes.  An exponent beyond all bounds
makes every number but zero too large, or zero. -/
def Written.double? (written : Written) : Option Float :=
  let (word, taken) := gather 0 written.whole
  let skipped := written.whole.length - taken
  let (word, places) := gather word written.fraction
  let exponent := written.exponent.getD 0
  let magnitude :=
    if largestExponent < exponent.natAbs then
      if word != 0 && 0 < exponent then none else some 0
    else scale word (exponent + skipped - places)
  magnitude.map fun value => if written.negative then -value else value

/-- The integer that a written number denotes, if it has the form of one and
fits a word.  Minus zero is no integer. -/
def Written.integer? (written : Written) : Option Int :=
  let magnitude := Text.ofDigits 10 written.whole
  if written.negative then
    if magnitude != 0 && magnitude ≤ Text.signBound then some (-(magnitude : Int)) else none
  else if magnitude ≤ largestWord then some magnitude else none

def readNumber (input : List Char) : Except Fault (Number × List Char) := do
  let (negative, input) := match input with
    | '-' :: rest => (true, rest)
    | _ => (false, input)
  let (whole, input) ← readWhole input
  let (fraction, input) ← readFraction input
  let (exponent, input) ← readExponent input
  let written : Written := { negative, whole, fraction := fraction.getD [], exponent }
  let plain := fraction.isNone && exponent.isNone
  match (if plain then written.integer? else none), written.double? with
  | some value, _ => return (.integer value, input)
  | none, some value => return (.double value, input)
  | none, none => .error .malformed

end Json
end BranchPipeline
