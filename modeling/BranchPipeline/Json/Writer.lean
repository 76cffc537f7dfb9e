import BranchPipeline.Json.Quotation

namespace BranchPipeline
namespace Json

/-!
# Writing JSON

Values that are already written are put together, either without any blank or
with one item per line and two blanks of indent for each level.
-/

/-- Written items as an array without blanks. -/
def compactArray (items : List String) : String :=
  "[" ++ String.intercalate "," items ++ "]"

/-- Written members as an object without blanks. -/
def compactObject (members : List (String × String)) : String :=
  "\x7b" ++ String.intercalate "," (members.map fun (key, value) => written key ++ ":" ++ value) ++
    "\x7d"

/-- As many levels of indent as given. -/
def indent (level : Nat) : String :=
  String.ofList (List.replicate (2 * level) ' ')

/-- Written items between brackets, each on a line of its own; `level` is that
of the line on which the opening bracket stands. -/
def block (opening closing : String) (level : Nat) (items : List String) : String :=
  if items.isEmpty then opening ++ closing
  else
    opening ++ "\n" ++
      String.intercalate ",\n" (items.map fun item => indent (level + 1) ++ item) ++
      "\n" ++ indent level ++ closing

/-- Written items as an array with one item per line. -/
def prettyArray (level : Nat) (items : List String) : String :=
  block "[" "]" level items

/-- Written members as an object with one member per line. -/
def prettyObject (level : Nat) (members : List (String × String)) : String :=
  block "\x7b" "\x7d" level (members.map fun (key, value) => written key ++ ": " ++ value)

end Json
end BranchPipeline
