import BranchPipeline.Memory

namespace BranchPipeline

/-!
# Output of the write system call

A program writes ranges of memory cells.  The output keeps every range that it
has taken, in order; what a reader sees is computed from that record, either
as one sequence of cells or as one line per range.  An output may also refuse a
range that it is handed.  Whether it does, and what it then says, is a matter of
what lies behind it, and may depend on what has been written before: a file
takes some lines and refuses the next one when its disk is full.
-/

/-- The ranges written so far, and what is behind the output. -/
structure Output where
  /-- Why a range cannot be written behind others, of which the latest comes
  first; none if it can. -/
  refusal? : List (List Cell) → List Cell → Option String
  latestFirst : List (List Cell)

namespace Output

/-- An output that takes everything and has nothing yet. -/
def accepting : Output := ⟨fun _ _ => none, []⟩

/-- An output that refuses everything. -/
def refusing : Output := ⟨fun _ _ => some "write called", []⟩

/-- Hands a range of cells to the output. -/
def write (output : Output) (cells : List Cell) : Except String Output :=
  match output.refusal? output.latestFirst cells with
  | none => .ok { output with latestFirst := cells :: output.latestFirst }
  | some refusal => .error refusal

/-- The ranges in the order in which they were written. -/
def ranges (output : Output) : List (List Cell) := output.latestFirst.reverse

/-- All written cells in order. -/
def cells (output : Output) : List Cell := output.ranges.flatten

def line (range : List Cell) : String :=
  String.intercalate " " (range.map Cell.text) ++ "\n"

/-- All ranges, one line each. -/
def lines (output : Output) : String := String.join (output.ranges.map line)

/-- The lines of the ranges behind the first `seen` ones. -/
def linesAfter (output : Output) (seen : Nat) : String :=
  String.join ((output.ranges.drop seen).map line)

end Output
end BranchPipeline
