import BranchPipeline.Flags
import BranchPipeline.Register
import BranchPipeline.Text.Layout
import BranchPipeline.Text.Quoted

namespace BranchPipeline

/-!
# The register file

A register holds eight bytes or, in the two registers that pass an instruction
from fetch to decode, the instruction's text.  Reading takes the low bytes
that the operand names and extends them by zeros; writing replaces only those
bytes.  A number written over a text starts from eight zero bytes.
-/

/-- What one register holds. -/
inductive Content where
  | number (value : UInt64)
  | text (token : String)
  deriving DecidableEq, Repr

namespace Content

/-- A number in signed decimal, an instruction text in quotes. -/
def shown : Content → String
  | number value => toString value.toInt64.toInt
  | text token => Text.quoted token

/-- The eight bytes under a narrow write; a text counts as zeros. -/
def bytes : Content → UInt64
  | number value => value
  | text _ => 0

end Content

/-- All registers and the flags. -/
structure RegisterFile where
  contents : Vector Content Register.count := Vector.replicate Register.count (.number 0)
  flags : Flags := {}
  deriving DecidableEq

namespace RegisterFile

def content (file : RegisterFile) (register : Register) : Content :=
  file.contents[register.index]

/-- Replaces what a register holds. -/
def put (file : RegisterFile) (register : Register) (content : Content) : RegisterFile :=
  { file with contents := file.contents.set register.index content }

@[simp]
theorem content_put_self (file : RegisterFile) (register : Register) (content : Content) :
    (file.put register content).content register = content := by
  simp [put, RegisterFile.content]

theorem content_put_of_ne (file : RegisterFile) (register other : Register)
    (content : Content) (different : other ≠ register) :
    (file.put register content).content other = file.content other := by
  have places : register.index.val ≠ other.index.val := fun same =>
    different (Register.index_injective (Fin.ext same)).symm
  simp [put, RegisterFile.content, places]

/-- The low bytes of a register, extended by zeros. -/
def read (file : RegisterFile) (ref : RegisterRef) : Except RegisterFault UInt64 :=
  match file.content ref.register with
  | .number value => .ok (ref.width.truncate value)
  | .text _ => .error (.notNumeric ref.register)

/-- Replaces the low bytes of a register and keeps the others. -/
def write (file : RegisterFile) (ref : RegisterRef) (value : UInt64) : RegisterFile :=
  file.put ref.register
    (.number (ref.width.overwrite (file.content ref.register).bytes value))

/-- Puts an instruction text into a register. -/
def writeText (file : RegisterFile) (register : Register) (token : String) : RegisterFile :=
  file.put register (.text token)

/-- The instruction text in a register, if it holds one. -/
def text? (file : RegisterFile) (register : Register) : Option String :=
  match file.content register with
  | .number _ => none
  | .text token => some token

def setFlags (file : RegisterFile) (flags : Flags) : RegisterFile :=
  { file with flags }

/-- The register file as a table of `perRow` registers to a row. -/
def view (file : RegisterFile) (perRow : Nat) : String :=
  let cells := Register.all.map fun register =>
    Text.padLeft 4 register.name ++ ": " ++ Text.padLeft 20 (file.content register).shown
  let rows := (Text.runs perRow cells).map fun row =>
    "  " ++ String.intercalate ", " row ++ ",\n"
  "RegFile \x7b\n" ++ String.join rows ++ "  flags: " ++ file.flags.text ++ "\n\x7d"

end RegisterFile
end BranchPipeline
