namespace BranchPipeline
namespace Decimal

/-!
# The value of a double

A finite double is an integer times a power of two.  Every decimal text of a
double in this library is computed from that pair in exact integer
arithmetic, so that no step of the conversion rounds twice.
-/

/-- A finite double, taken apart: `(-1) ^ negative * mantissa * 2 ^ exponent`. -/
structure Binary where
  negative : Bool
  mantissa : Nat
  exponent : Int
  deriving Repr, DecidableEq

/-- Takes a double apart by its bit pattern.  Infinities and the results of
undefined operations have the largest exponent field and are read as if it
were an ordinary one; no caller produces them. -/
def Binary.ofFloat (value : Float) : Binary :=
  let bits := value.toBits.toNat
  let field : Nat := bits / Nat.pow 2 52 % Nat.pow 2 11
  let fraction : Nat := bits % Nat.pow 2 52
  let negative := bits / Nat.pow 2 63 == 1
  if field == 0 then ⟨negative, fraction, -1074⟩
  else ⟨negative, Nat.pow 2 52 + fraction, (field : Int) - 1075⟩

/-- Numerator and denominator of the magnitude. -/
def Binary.ratio (value : Binary) : Nat × Nat :=
  if value.exponent < 0 then (value.mantissa, Nat.pow 2 value.exponent.natAbs)
  else (value.mantissa * Nat.pow 2 value.exponent.toNat, 1)

/-- The nearest integer to `numerator / denominator`; a half goes to the even
neighbour. -/
def roundDiv (numerator denominator : Nat) : Nat :=
  let floor := numerator / denominator
  let twice := 2 * (numerator % denominator)
  if twice < denominator then floor
  else if denominator < twice then floor + 1
  else if floor % 2 == 0 then floor else floor + 1

end Decimal
end BranchPipeline
