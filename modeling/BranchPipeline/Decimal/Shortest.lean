import BranchPipeline.Decimal.Binary

namespace BranchPipeline
namespace Decimal

/-!
# The fewest digits that read back

The reals that round to a given double form an interval around it, whose ends
belong to it exactly when the mantissa is even.  For one digit, two digits and
so on, the two neighbours of the value on the decimal grid of that many digits
are tested against the interval in exact arithmetic.  The first grid with a
hit gives the digits, and of two hits the nearer one is taken.  If any grid
point lies in the interval, so does one of the two neighbours, which is why
the search is complete.
-/

/-- A positive decimal number `digits * 10 ^ exponent`. -/
structure Digits where
  digits : Nat
  exponent : Int
  deriving Repr, DecidableEq

/-- The interval of reals that round to a double, as numerators over one
common denominator. -/
structure Interval where
  lower : Nat
  value : Nat
  upper : Nat
  denominator : Nat
  closed : Bool

/-- The rounding interval of a positive double.  Below a power of two the
neighbouring double is only half as far away. -/
def Interval.ofBinary (binary : Binary) : Interval :=
  let narrowBelow := binary.mantissa == Nat.pow 2 52 && binary.exponent != -1074
  let lower := if narrowBelow then 4 * binary.mantissa - 1 else 4 * binary.mantissa - 2
  let upper := 4 * binary.mantissa + 2
  let exponent := binary.exponent - 2
  let scale := if exponent < 0 then 1 else Nat.pow 2 exponent.toNat
  let denominator := if exponent < 0 then Nat.pow 2 exponent.natAbs else 1
  ⟨lower * scale, 4 * binary.mantissa * scale, upper * scale, denominator,
    binary.mantissa % 2 == 0⟩

/-- The interval with the unit `10 ^ exponent`. -/
def Interval.inUnits (interval : Interval) (exponent : Int) : Interval :=
  if exponent < 0 then
    let scale := Nat.pow 10 exponent.natAbs
    { interval with
      lower := interval.lower * scale
      value := interval.value * scale
      upper := interval.upper * scale }
  else { interval with denominator := interval.denominator * Nat.pow 10 exponent.toNat }

/-- Whether an integer number of units lies in the interval. -/
def Interval.contains (interval : Interval) (units : Nat) : Bool :=
  let point := units * interval.denominator
  if interval.closed then interval.lower ≤ point && point ≤ interval.upper
  else interval.lower < point && point < interval.upper

/-- The neighbour of the value on the grid of whole units that lies in the
interval and is nearest to the value; a tie goes to the even one. -/
def Interval.nearestUnit? (interval : Interval) : Option Nat :=
  let below := interval.value / interval.denominator
  let nearest := roundDiv interval.value interval.denominator
  let other := if nearest == below then below + 1 else below
  if nearest != 0 && interval.contains nearest then some nearest
  else if other != 0 && interval.contains other then some other
  else none

/-- The exponent of the leading decimal digit of a positive ratio.  For a ratio
below one it is the number of digits of the reciprocal, rounded up and less
one, with the sign changed: `10 ^ -k` itself still belongs to `-k`. -/
def leadingExponent (numerator denominator : Nat) : Int :=
  if denominator ≤ numerator then
    Int.ofNat (Nat.toDigits 10 (numerator / denominator)).length - 1
  else
    let reciprocal := (denominator + numerator - 1) / numerator
    Int.negOfNat (Nat.toDigits 10 (reciprocal - 1)).length

/-- The shortest digits that read back as the given positive double. -/
def shortest (binary : Binary) : Digits :=
  let interval := Interval.ofBinary binary
  let leading := leadingExponent interval.value interval.denominator
  let candidates := (List.range 17).filterMap fun (more : Nat) =>
    let exponent := leading - Int.ofNat more
    (interval.inUnits exponent).nearestUnit?.map fun units => Digits.mk units exponent
  candidates.headD ⟨binary.mantissa, 0⟩

end Decimal
end BranchPipeline
