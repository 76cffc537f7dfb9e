import BranchPipeline.Memory

namespace BranchPipeline

/-!
# Executables

An executable is a list of cells.  Its first two cells are words that say
where the instructions start and where the data start; whatever lies between
this header and the instructions is free.  The structure keeps, as a proof,
that the sections are in order and hold the right kind of cell, so that a
loader has nothing left to check but the size.
-/

/-- Why a list of cells is no executable, or could not be loaded. -/
inductive LoadFault where
  | missingHeader
  | invalidBounds (textStart dataStart : Int64) (length : Nat)
  | expectedInstruction (index : Nat)
  | expectedWord (index : Nat)
  | tooLarge (length capacity : Nat)
  deriving DecidableEq, Repr

def LoadFault.message : LoadFault → String
  | .missingHeader => "executable is missing its `[textStart, dataStart]` header"
  | .invalidBounds textStart dataStart length =>
    "invalid section bounds: text starts at " ++ toString textStart.toInt ++
      ", data at " ++ toString dataStart.toInt ++ s!", {length} cells in total"
  | .expectedInstruction index =>
    s!"cell {index} lies in the text section but is not an instruction"
  | .expectedWord index =>
    s!"cell {index} lies in the data section but is not an integer"
  | .tooLarge length capacity =>
    s!"executable has {length} cells but memory holds only {capacity}"

namespace Executable

/-- What a cell of the text or the data section must be.  The offset is that
of the cell, and `dataStart` the first cell of the data section. -/
def cellFault? (dataStart index : Nat) : Cell → Option LoadFault
  | .word _ => if index < dataStart then some (.expectedInstruction index) else none
  | .token _ => if index < dataStart then none else some (.expectedWord index)

/-- The first fault among the given cells, of which the first has the given
number. -/
def firstFault? (dataStart index : Nat) : List Cell → Option LoadFault
  | [] => none
  | cell :: rest =>
    match cellFault? dataStart index cell with
    | some fault => some fault
    | none => firstFault? dataStart (index + 1) rest

/-- Checks sections whose bounds are known to be in order. -/
def sectionFault? (cells : List Cell) (textSection : Section) : Option LoadFault :=
  firstFault? textSection.stop textSection.start (cells.drop textSection.start)

/-- The sections are in order behind the two header cells and inside the cell
list, and each holds its own kind of cell. -/
structure Layout (cells : List Cell) (textSection : Section) : Prop where
  afterHeader : 2 ≤ textSection.start
  ordered : textSection.start ≤ textSection.stop
  bounded : textSection.stop ≤ cells.length
  sound : sectionFault? cells textSection = none

end Executable

/-- A list of cells with a checked text section; the data section runs from
its end to the end of the list. -/
structure Executable where
  cells : List Cell
  textSection : Section
  layout : Executable.Layout cells textSection

namespace Executable

/-- The number of cells. -/
def size (executable : Executable) : Nat := executable.cells.length

/-- Checks a list of cells and finds its sections. -/
def ofCells (cells : List Cell) : Except LoadFault Executable :=
  match cells with
  | .word textStart :: .word dataStart :: _ =>
    let textSection : Section := ⟨textStart.toInt.toNat, dataStart.toInt.toNat⟩
    if bounds : 0 ≤ textStart.toInt ∧ 0 ≤ dataStart.toInt ∧ 2 ≤ textSection.start ∧
        textSection.start ≤ textSection.stop ∧ textSection.stop ≤ cells.length then
      match sound : sectionFault? cells textSection with
      | some fault => .error fault
      | none =>
        .ok ⟨cells, textSection, ⟨bounds.2.2.1, bounds.2.2.2.1, bounds.2.2.2.2, sound⟩⟩
    else .error (.invalidBounds textStart dataStart cells.length)
  | _ => .error .missingHeader

/-- Instructions alone have no fault where instructions belong. -/
theorem firstFault?_tokens (texts : List String) (rest : List Cell) (dataStart index : Nat)
    (fits : index + texts.length ≤ dataStart) :
    firstFault? dataStart index (texts.map Cell.token ++ rest) =
      firstFault? dataStart (index + texts.length) rest := by
  induction texts generalizing index with
  | nil => rfl
  | cons text texts step =>
    have inText : index < dataStart := by simp only [List.length_cons] at fits; omega
    simp only [List.map_cons, List.cons_append, firstFault?, cellFault?, if_pos inText]
    rw [step (index + 1) (by simp only [List.length_cons] at fits; omega)]
    simp only [List.length_cons, Nat.add_comm, Nat.add_left_comm]

/-- Words alone have no fault where data belong. -/
theorem firstFault?_words (values : List Int64) (dataStart index : Nat)
    (behind : dataStart ≤ index) :
    firstFault? dataStart index (values.map Cell.word) = none := by
  induction values generalizing index with
  | nil => rfl
  | cons value values step =>
    simp only [List.map_cons, firstFault?, cellFault?, if_neg (Nat.not_lt.mpr behind)]
    exact step (index + 1) (by omega)

/-- The header, the instructions right behind it, and the data. -/
def partCells (texts : List String) (data : List Int64) : List Cell :=
  .word 2 :: .word (Int64.ofNat (2 + texts.length)) ::
    (texts.map Cell.token ++ data.map Cell.word)

theorem layout_partCells (texts : List String) (data : List Int64) :
    Layout (partCells texts data) ⟨2, 2 + texts.length⟩ where
  afterHeader := Nat.le_refl 2
  ordered := Nat.le_add_right 2 _
  bounded := by simp only [partCells, List.length_cons, List.length_append, List.length_map]; omega
  sound := by
    show firstFault? (2 + texts.length) 2 (texts.map Cell.token ++ data.map Cell.word) = none
    rw [firstFault?_tokens texts _ _ 2 (Nat.le_refl _)]
    exact firstFault?_words data _ _ (Nat.le_refl _)

/-- Lays out instructions and data behind a header. -/
def ofParts (texts : List String) (data : List Int64) : Executable where
  cells := partCells texts data
  textSection := ⟨2, 2 + texts.length⟩
  layout := layout_partCells texts data

/-- The instructions among numbered cells. -/
def numberedTokens (index : Nat) : List Cell → List (Nat × String)
  | [] => []
  | .token text :: rest => (index, text) :: numberedTokens (index + 1) rest
  | .word _ :: rest => numberedTokens (index + 1) rest

/-- The instructions of the text section with their cell numbers. -/
def instructions (executable : Executable) : List (Nat × String) :=
  let range := executable.textSection
  numberedTokens range.start
    ((executable.cells.drop range.start).take (range.stop - range.start))

end Executable
end BranchPipeline
