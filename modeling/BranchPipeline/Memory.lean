import BranchPipeline.Text.Layout

namespace BranchPipeline

/-!
# Memory

Memory is a fixed number of cells.  A cell holds a signed word or an
instruction text.  The text section is marked at load time; it decides how
accesses are counted and shown, not what may be done to a cell.
-/

inductive Cell where
  | word (value : Int64)
  | token (text : String)
  deriving DecidableEq, Repr

/-- The cell as output shows it. -/
def Cell.text : Cell → String
  | .word value => toString value.toInt
  | .token text => text

/-- A cell number. -/
structure Address where
  index : Nat
  deriving DecidableEq, Repr

/-- Why a memory access failed. -/
inductive MemoryFault where
  | outOfBounds (index size : Nat)
  | negativeAddress (value : Int64)
  | notAWord (address : Address) (found : String)
  | notAToken (address : Address) (found : Int64)
  deriving DecidableEq, Repr

namespace Address

/-- The address as reports show it. -/
def text (address : Address) : String := s!"[{address.index}]"

/-- A signed word as an address; a negative one is none. -/
def ofInt64 (value : Int64) : Except MemoryFault Address :=
  if value < 0 then .error (.negativeAddress value) else .ok ⟨value.toInt.toNat⟩

/-- The address so many cells further on. -/
def displaced (address : Address) (distance : Nat) : Address :=
  ⟨address.index + distance⟩

end Address

def MemoryFault.message : MemoryFault → String
  | .outOfBounds index size => s!"address {index} out of range for memory of {size} cells"
  | .negativeAddress value => s!"negative address {value.toInt}"
  | .notAWord address found =>
    s!"expected a data word at {address.text}, found instruction `{found}`"
  | .notAToken address found =>
    s!"expected an instruction at {address.text}, found word {found.toInt}"

/-- A run of cell numbers, from `start` up to but without `stop`. -/
structure Section where
  start : Nat
  stop : Nat
  deriving DecidableEq, Repr

/-- Whether a cell number lies in the section. -/
def Section.contains (range : Section) (index : Nat) : Bool :=
  range.start ≤ index && index < range.stop

/-- The largest length of a slice that is still told apart in a fault. -/
def maxSliceEnd : Nat := 0xFFFFFFFFFFFFFFFF

/-- The cells and the section of instructions among them. -/
structure Memory where
  cells : Array Cell
  textSection : Section := ⟨0, 0⟩
  deriving DecidableEq

namespace Memory

/-- Memory of the given size, all of whose cells hold the word zero. -/
def blank (size : Nat) : Memory where
  cells := Array.replicate size (.word 0)

/-- The number of cells. -/
def size (memory : Memory) : Nat := memory.cells.size

/-- Copies an image to the lowest cells and marks its text section.  An image
that does not fit is refused whole. -/
def load (memory : Memory) (image : List Cell) (textSection : Section) :
    Except MemoryFault Memory :=
  if memory.size < image.length then .error (.outOfBounds (image.length - 1) memory.size)
  else .ok ⟨image.toArray ++ memory.cells.extract image.length, textSection⟩

def get (memory : Memory) (address : Address) : Except MemoryFault Cell :=
  match memory.cells[address.index]? with
  | some cell => .ok cell
  | none => .error (.outOfBounds address.index memory.size)

/-- A cell that must hold a word. -/
def asWord (address : Address) : Cell → Except MemoryFault Int64
  | .word value => .ok value
  | .token text => .error (.notAWord address text)

/-- A cell that must hold an instruction. -/
def asToken (address : Address) : Cell → Except MemoryFault String
  | .token text => .ok text
  | .word value => .error (.notAToken address value)

def set (memory : Memory) (address : Address) (cell : Cell) : Except MemoryFault Memory :=
  if bound : address.index < memory.cells.size then
    .ok { memory with cells := memory.cells.set address.index cell }
  else .error (.outOfBounds address.index memory.size)

/-- The cells from `start` on, as many as asked for.  A length that would
reach beyond the largest cell number is taken to end there. -/
def slice (memory : Memory) (start : Address) (length : Nat) :
    Except MemoryFault (List Cell) :=
  let stop := min (start.index + length) maxSliceEnd
  if memory.size < stop then .error (.outOfBounds (stop - 1) memory.size)
  else .ok (memory.cells.extract start.index stop).toList

/-- One line for each of the asked cells that exist: its address, the kind of
section it lies in and what it holds. -/
def view (memory : Memory) (start : Address) (length : Nat) : String :=
  let first := min start.index memory.size
  let lines := (memory.cells.extract first (first + length)).toList.mapIdx fun offset cell =>
    let address : Address := ⟨first + offset⟩
    let marker := if memory.textSection.contains address.index then "t" else "d"
    address.text ++ " " ++ marker ++ " " ++ cell.text ++ "\n"
  String.join lines

end Memory
end BranchPipeline
