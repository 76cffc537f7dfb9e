namespace BranchPipeline
namespace Text

/-!
# Numerals

A numeral is a nonempty run of digits in some radix; nothing else, neither a
group separator nor a blank, may stand in it.  Signed literals put one
optional sign in front and must fit a signed 64-bit word; counts must fit an
unsigned one.  A text that is a numeral but does not fit is no literal at all,
so that the reader can go on and try another reading of it.
-/

def decimalDigit? (c : Char) : Option Nat :=
  if '0' ≤ c && c ≤ '9' then some (c.toNat - '0'.toNat) else none

/-- The value of an ASCII hexadecimal digit, in either case. -/
def hexDigit? (c : Char) : Option Nat :=
  if '0' ≤ c && c ≤ '9' then some (c.toNat - '0'.toNat)
  else if 'a' ≤ c && c ≤ 'f' then some (c.toNat - 'a'.toNat + 10)
  else if 'A' ≤ c && c ≤ 'F' then some (c.toNat - 'A'.toNat + 10)
  else none

/-- The digits of a text, most significant first, if all of it is digits. -/
def digits? (digit? : Char → Option Nat) : List Char → Option (List Nat)
  | [] => some []
  | c :: rest => do
    let digit ← digit? c
    let digits ← digits? digit? rest
    some (digit :: digits)

/-- The number that a digit sequence denotes, most significant digit first. -/
def ofDigits (radix : Nat) (digits : List Nat) : Nat :=
  digits.foldl (fun number digit => number * radix + digit) 0

/-- Reads a nonempty run of digits that makes up the whole text. -/
def natural? (radix : Nat) (digit? : Char → Option Nat) (chars : List Char) : Option Nat :=
  if chars.isEmpty then none else (digits? digit? chars).map (ofDigits radix)

/-- Reads a decimal numeral. -/
def decimal? (chars : List Char) : Option Nat :=
  natural? 10 decimalDigit? chars

/-- One more than the largest count that an unsigned 64-bit word holds. -/
def countBound : Nat := 0x10000000000000000

/-- One more than the largest signed 64-bit word. -/
def signBound : Nat := 0x8000000000000000

/-- Keeps a number that fits an unsigned 64-bit word. -/
def fitting? (number : Nat) : Option Nat :=
  if number < countBound then some number else none

/-- Reads a decimal count of at most 64 bits, with an optional plus sign. -/
def count? (text : String) : Option UInt64 :=
  match text.toList with
  | '+' :: digits => (decimal? digits >>= fitting?).map Nat.toUInt64
  | digits => (decimal? digits >>= fitting?).map Nat.toUInt64

/-- Reads a signed decimal literal that fits a 64-bit word. -/
def literal? (text : String) : Option Int64 :=
  match text.toList with
  | '+' :: digits => decimal? digits >>= positive?
  | '-' :: digits => decimal? digits >>= negative?
  | digits => decimal? digits >>= positive?
where
  /-- A magnitude without a minus sign reaches up to `2 ^ 63 - 1`. -/
  positive? (magnitude : Nat) : Option Int64 :=
    if magnitude < signBound then some (Int64.ofNat magnitude) else none
  /-- A magnitude behind a minus sign reaches up to `2 ^ 63`. -/
  negative? (magnitude : Nat) : Option Int64 :=
    if magnitude ≤ signBound then some (Int64.ofInt (-(magnitude : Int))) else none

end Text
end BranchPipeline
