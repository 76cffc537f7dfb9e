import BranchPipeline.Attempt
import BranchPipeline.Buffer.Ring

namespace BranchPipeline

/-!
# Global branch history

The history is a shift register of branch directions.  It starts full of
"taken", and each new direction pushes the oldest one out.  Its index is the
number whose binary digits are the directions, the oldest one first.
-/

/-- The directions of the latest branches, oldest first. -/
structure History where
  bits : Ring Bool

namespace History

/-- Fills up the free slots of a ring with "taken". -/
def fill (ring : Ring Bool) : Nat → Ring Bool
  | 0 => ring
  | missing + 1 =>
    match ring.add true with
    | .ok added => fill added missing
    | .error _ => ring

/-- A history of the given length, all of it "taken". -/
def create (length : Nat) : Except BufferFault History := do
  let ring ← Ring.create "global history" length
  return ⟨fill ring length⟩

/-- The number of directions that the history has room for. -/
def length (history : History) : Nat := history.bits.capacity

/-- The directions, oldest first. -/
def toList (history : History) : List Bool := history.bits.toList

/-- Shifts a direction in and gives the one that falls out. -/
def push (history : History) (taken : Bool) : Except BufferFault (Bool × History) := do
  let (evicted, rest) := history.bits.remove
  let bits ← rest.add taken
  return (evicted.getD true, ⟨bits⟩)

/-- Replaces the directions by the first ones given, as many as there is room
for. -/
def reset (history : History) (directions : List Bool) : Except BufferFault History := do
  let bits ← (directions.take history.length).foldlM Ring.add history.bits.flush
  return ⟨bits⟩

/-- The number with the given binary digits, most significant first; digits
beyond the last 64 fall off. -/
def indexOf (directions : List Bool) : UInt64 :=
  directions.foldl (fun index taken => (index <<< 1) ||| (if taken then 1 else 0)) 0

/-- The number with the directions as its binary digits. -/
def index (history : History) : UInt64 := indexOf history.toList

/-- The directions as binary digits. -/
def digits (history : History) : String :=
  String.ofList (history.toList.map fun taken => if taken then '1' else '0')

/-- The history as reports show it. -/
def text (history : History) : String :=
  "GHR " ++ history.digits ++ s!" (index {history.index})"

end History
end BranchPipeline
