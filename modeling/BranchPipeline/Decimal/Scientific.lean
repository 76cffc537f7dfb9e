import BranchPipeline.Decimal.Shortest

namespace BranchPipeline
namespace Decimal

/-!
# Shortest decimal text of a double

The digits come from `shortest`.  A number whose leading digit stands between
the fifth place behind the point and the sixteenth in front of it is written
positionally, always with a point; any other with an exponent that always has
a sign and no leading zeros.
-/

/-- Drops zeros at the end of a digit sequence. -/
def dropTrailingZeros (digits : List Char) : List Char :=
  (digits.reverse.dropWhile (· == '0')).reverse

/-- Digits with the point behind the digit of weight `10 ^ 0`, where the first
digit has weight `10 ^ leading`. -/
def positional (digits : List Char) (leading : Int) : String :=
  if leading < 0 then
    "0." ++ String.ofList (List.replicate (leading.natAbs - 1) '0' ++ digits)
  else
    let whole := digits.take (leading.toNat + 1)
    let zeros := List.replicate (leading.toNat + 1 - whole.length) '0'
    let fraction := digits.drop (leading.toNat + 1)
    String.ofList (whole ++ zeros) ++ "." ++
      (if fraction.isEmpty then "0" else String.ofList fraction)

/-- Digits with the point behind the first one and an exponent. -/
def exponential (digits : List Char) (leading : Int) : String :=
  let fraction := digits.drop 1
  String.ofList (digits.take 1) ++
    (if fraction.isEmpty then "" else "." ++ String.ofList fraction) ++
    (if leading < 0 then "e-" else "e+") ++ toString leading.natAbs

/-- The shortest decimal text of a finite double. -/
def scientific (value : Float) : String :=
  let binary := Binary.ofFloat value
  let sign := if binary.negative then "-" else ""
  if binary.mantissa == 0 then sign ++ "0.0"
  else
    let short := shortest binary
    let all := Nat.toDigits 10 short.digits
    let leading := (all.length : Int) - 1 + short.exponent
    let digits := dropTrailingZeros all
    sign ++ (if -5 ≤ leading && leading ≤ 15 then positional digits leading
      else exponential digits leading)

end Decimal
end BranchPipeline
