import BranchPipeline.Text.Blank
import BranchPipeline.Text.Quoted

namespace BranchPipeline

/-!
# Rules with ordered choice

The commands of the debugger are given as a parsing expression grammar.  What
such a grammar means is not a rule of the simulator, which leaves it to a
library; the definitions here follow the documented meaning.  A rule reads from
a cursor and either matches or fails, and one that fails leaves the cursor where
it was.  The parts of a sequence match one behind the other.  A choice takes its
first alternative that matches and never comes back to it, even if what stands
behind the choice then fails.  A repetition takes as much as it can and gives
nothing back.  A line is accepted if a rule matches all of it.

A line that is refused is explained by the furthest place at which something
was looked for in vain, and by everything that was looked for there; so each
rule notes what it misses, even if another alternative then matches.
-/

/-- A place in a line: the text from there on, and its offset in bytes. -/
structure Cursor where
  rest : List Char
  offset : Nat

/-- What was looked for in vain at the furthest place. -/
structure Missed where
  offset : Nat := 0
  names : List String := []
  deriving DecidableEq, Repr

namespace Missed

/-- Notes that something was looked for at a place.  Only the furthest place
is remembered, and every name there once. -/
def note (missed : Missed) (offset : Nat) (name : String) : Missed :=
  if missed.offset < offset then ⟨offset, [name]⟩
  else if missed.offset = offset then
    if name ∈ missed.names then missed else { missed with names := missed.names ++ [name] }
  else missed

/-- What was looked for, in the order of the texts. -/
def text (missed : Missed) : String :=
  match missed.names.mergeSort fun first second => decide (first ≤ second) with
  | [name] => name
  | names => "one of " ++ String.intercalate ", " names

end Missed

/-- A rule that reads a value of a line. -/
abbrev Rule (α : Type) := StateT Cursor (OptionT (StateM Missed)) α

namespace Rule

/-- Notes what is looked for at the cursor. -/
def note (name : String) : Rule Unit := do
  let cursor ← get
  monadLift (modify (fun missed => missed.note cursor.offset name) : StateM Missed Unit)

/-- Fails, having looked for something at the cursor. -/
def expected {α : Type} (name : String) : Rule α := do
  note name
  failure

/-- Takes the characters at the cursor that belong to a class. -/
def takeAll (member : Char → Bool) : Rule (List Char) := do
  let cursor ← get
  let taken := cursor.rest.takeWhile member
  set { rest := cursor.rest.drop taken.length
        offset := taken.foldl (fun offset c => offset + c.utf8Size) cursor.offset : Cursor }
  return taken

/-- Takes characters of a class, at least one; misses `name` otherwise. -/
def takeSome (member : Char → Bool) (name : String) : Rule (List Char) := do
  let cursor ← get
  if cursor.rest.head?.any member then takeAll member else expected name

/-- Takes a fixed text, which is missed in quotes. -/
def literal (text : String) : Rule Unit := do
  let cursor ← get
  if text.toList.isPrefixOf cursor.rest then
    set { rest := cursor.rest.drop text.length
          offset := cursor.offset + text.utf8ByteSize : Cursor }
  else expected (Text.quoted text)

/-- Takes blanks, if there are any.  Where they end one more is missed. -/
def blanks : Rule Unit := do
  let _ ← takeAll Text.isAsciiBlank
  note "whitespace"

/-- Takes blanks, at least one. -/
def gap : Rule Unit := do
  let _ ← takeSome Text.isAsciiBlank "whitespace"
  note "whitespace"

/-- The value of what has been read, or else it is missed behind it. -/
def accept {α : Type} (value : Option α) (name : String) : Rule α :=
  match value with
  | some value => return value
  | none => expected name

/-- Reads a whole line, to its end. -/
def parse {α : Type} (rule : Rule α) (line : String) : Except Missed α :=
  let whole : Rule α := do
    let value ← rule
    if (← get).rest.isEmpty then return value else expected "EOF"
  match (whole.run ⟨line.toList, 0⟩).run.run {} with
  | (some (value, _), _) => .ok value
  | (none, missed) => .error missed

end Rule
end BranchPipeline
