import BranchPipeline.Executable
import BranchPipeline.Json.Value
import BranchPipeline.Json.Writer

namespace BranchPipeline

/-!
# Executable files

An executable file is a JSON array with one item per cell: an integer that
fits a signed word, or a string for an instruction.  A cell of any other form
ends the reading, and so does a layout that is not that of an executable; both
are found before anything behind the array is looked at.
-/

namespace Cell

/-- The complaint about a value that is no cell. -/
def unfitMessage : String := "data did not match any variant of untagged enum Cell"

def ofJson? : Json → Option Cell
  | .number (.integer value) =>
    if Int64.minValue.toInt ≤ value && value ≤ Int64.maxValue.toInt then
      some (.word (Int64.ofInt value))
    else none
  | .string text => some (.token text)
  | _ => none

def json : Cell → String
  | .word value => toString value.toInt
  | .token text => Json.written text

end Cell

namespace Executable

/-- Reads one cell in an array that is itself one level deep. -/
def readCell (input : List Char) : Except Json.Fault (Cell × List Char) := do
  let (value, rest) ← Json.readValue (Json.deepest - 1) input
  match Cell.ofJson? value with
  | some cell => return (cell, rest)
  | none => .error (.unfit Cell.unfitMessage)

def readCells (input : List Char) : Except Json.Fault (List Cell × List Char) :=
  match Json.skipBlanks input with
  | '[' :: rest => do
    let (cells, rest) ← Json.readItems ']' (fun cells input => do
      let (cell, left) ← readCell input
      return (cell :: cells, left)) [] rest
    return (cells.reverse, rest)
  | input => Json.refuse "a sequence" input

def read (text : String) : Except Json.Fault Executable := do
  let (cells, rest) ← readCells text.toList
  let executable ← (ofCells cells).mapError fun fault => .unfit fault.message
  Json.readEnd rest
  return executable

/-- The executable as a file without blanks. -/
def json (executable : Executable) : String :=
  Json.compactArray (executable.cells.map Cell.json)

end Executable
end BranchPipeline
