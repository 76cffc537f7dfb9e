import BranchPipeline.Decimal.Binary

namespace BranchPipeline
namespace Decimal

/-!
# A fixed number of places

`fixed` writes a double with a given number of places behind the point.  The
exact value is rounded once, and a half goes to the even neighbour.
-/

/-- The digits of a number, with leading zeros up to `width` of them. -/
def paddedDigits (width number : Nat) : String :=
  let digits := Nat.toDigits 10 number
  String.ofList (List.replicate (width - digits.length) '0' ++ digits)

/-- A double with `places` digits behind the point; `places` is positive. -/
def fixed (places : Nat) (value : Float) : String :=
  let binary := Binary.ofFloat value
  let (numerator, denominator) := binary.ratio
  let unit := Nat.pow 10 places
  let scaled := roundDiv (numerator * unit) denominator
  (if binary.negative then "-" else "") ++ toString (scaled / unit) ++ "." ++
    paddedDigits places (scaled % unit)

end Decimal
end BranchPipeline
