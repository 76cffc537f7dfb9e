import BranchPipeline.Json.Writer
import BranchPipeline.Processor.Cycle

namespace BranchPipeline

/-!
# Branch records as files

A branch record is written as an object with two arrays of cycle numbers.  The
records of several schemes make an object by the names of the schemes, in the
order of the names, and are written with one item per line.
-/

namespace BranchRecord

/-- The two arrays of a record with their names. -/
def parts (record : BranchRecord) : List (String × List String) :=
  [("Predicted", record.predicted.toList.map toString),
    ("Mispredicted", record.mispredicted.toList.map toString)]

/-- The record without blanks. -/
def json (record : BranchRecord) : String :=
  Json.compactObject (record.parts.map fun (name, items) => (name, Json.compactArray items))

/-- The record with one item per line, `level` levels deep. -/
def prettyJson (level : Nat) (record : BranchRecord) : String :=
  Json.prettyObject level
    (record.parts.map fun (name, items) => (name, Json.prettyArray (level + 1) items))

end BranchRecord

/-- Puts a record under a name, in place of an earlier one and in the order of
the names. -/
def insertRecord (name : String) (record : BranchRecord) :
    List (String × BranchRecord) → List (String × BranchRecord)
  | [] => [(name, record)]
  | (other, kept) :: rest =>
    if name < other then (name, record) :: (other, kept) :: rest
    else if name = other then (name, record) :: rest
    else (other, kept) :: insertRecord name record rest

/-- The records of several schemes as a file. -/
def recordsFile (records : List (String × BranchRecord)) : String :=
  Json.prettyObject 0 (records.map fun (name, record) => (name, record.prettyJson 1))

end BranchPipeline
