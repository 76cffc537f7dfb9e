import BranchPipeline.Proofs.Executable.Sections
import BranchPipeline.Proofs.Format.ExecutableFile

namespace BranchPipeline
namespace Executable

/-!
# Which lists of cells are executables

A list of cells is an executable if its header announces two sections that lie
behind the header, in order and inside the list, and if every cell of a section is
of the kind that the section holds.  Cells between the header and the instructions
may be anything.  A list that is refused is refused for the first of these reasons
that there is, and of the cells of a wrong kind the first one is named.
-/

/-! ## What is asked of a list of cells -/

/-- The list starts with two words, which say where the instructions and where the
data begin. -/
def Header (cells : List Cell) (textStart dataStart : Int64) : Prop :=
  ∃ others, cells = .word textStart :: .word dataStart :: others

/-- The sections lie behind the header, in order and inside the list. -/
structure InBounds (textStart dataStart : Int64) (length : Nat) : Prop where
  afterHeader : 2 ≤ textStart.toInt
  ordered : textStart.toInt ≤ dataStart.toInt
  bounded : dataStart.toInt ≤ length

/-- Every cell from the start of the instructions on is of its kind. -/
structure Valid (cells : List Cell) (textStart dataStart : Int64) : Prop where
  header : Header cells textStart dataStart
  bounds : InBounds textStart dataStart cells.length
  instructions : ∀ index : Nat, textStart.toInt ≤ index → index < dataStart.toInt →
    ∃ text, cells[index]? = some (.token text)
  data : ∀ index : Nat, dataStart.toInt ≤ index → index < cells.length →
    ∃ value, cells[index]? = some (.word value)

/-- The cell with this number is not of the kind that its section holds, and the
fault says so. -/
inductive Misplaced (cells : List Cell) (textStart dataStart : Int64) (index : Nat) :
    LoadFault → Prop
  | word {value : Int64} (behind : textStart.toInt ≤ index) (before : index < dataStart.toInt)
      (found : cells[index]? = some (.word value)) :
      Misplaced cells textStart dataStart index (.expectedInstruction index)
  | token {text : String} (behind : dataStart.toInt ≤ index)
      (found : cells[index]? = some (.token text)) :
      Misplaced cells textStart dataStart index (.expectedWord index)

/-- Why the list is refused. -/
inductive Refused (cells : List Cell) : LoadFault → Prop
  | header (headless : ∀ textStart dataStart, ¬Header cells textStart dataStart) :
      Refused cells .missingHeader
  | bounds {textStart dataStart : Int64} (header : Header cells textStart dataStart)
      (outside : ¬InBounds textStart dataStart cells.length) :
      Refused cells (.invalidBounds textStart dataStart cells.length)
  | cell {textStart dataStart : Int64} {index : Nat} {fault : LoadFault}
      (header : Header cells textStart dataStart)
      (bounds : InBounds textStart dataStart cells.length)
      (misplaced : Misplaced cells textStart dataStart index fault)
      (first : ∀ earlier < index, ∀ other, ¬Misplaced cells textStart dataStart earlier other) :
      Refused cells fault

variable {cells : List Cell} {textStart dataStart : Int64} {fault : LoadFault}

theorem Header.unique {otherText otherData : Int64} (header : Header cells textStart dataStart)
    (again : Header cells otherText otherData) : otherText = textStart ∧ otherData = dataStart := by
  rcases header with ⟨others, rfl⟩
  rcases again with ⟨_, same⟩
  cases same
  exact ⟨rfl, rfl⟩

/-! ## The first fault -/

/-- There is a fault at the cells of a wrong kind, and nowhere else. -/
theorem faultAt?_eq_some_iff {index : Nat} (bounds : InBounds textStart dataStart cells.length)
    (behind : textStart.toInt ≤ index) :
    faultAt? dataStart.toInt.toNat cells index = some fault ↔
      Misplaced cells textStart dataStart index fault := by
  rcases bounds with ⟨afterHeader, ordered, bounded⟩
  constructor
  · intro faulty
    rcases Option.bind_eq_some_iff.mp faulty with ⟨cell, found, faulty⟩
    cases cell with
    | word value =>
      rw [cellFault?] at faulty
      split at faulty
      · cases faulty
        exact .word behind (by omega) found
      · cases faulty
    | token text =>
      rw [cellFault?] at faulty
      split at faulty
      · cases faulty
      · cases faulty
        exact .token (by omega) found
  · intro misplaced
    cases misplaced with
    | word behind before found =>
      rw [faultAt?, found, Option.bind_some, cellFault?, if_pos (by omega)]
    | token inData found =>
      rw [faultAt?, found, Option.bind_some, cellFault?, if_neg (by omega)]

theorem faultAt?_eq_none_iff {index : Nat} (bounds : InBounds textStart dataStart cells.length)
    (behind : textStart.toInt ≤ index) :
    faultAt? dataStart.toInt.toNat cells index = none ↔
      ∀ fault, ¬Misplaced cells textStart dataStart index fault := by
  rw [Option.eq_none_iff_forall_not_mem]
  exact forall_congr' fun fault => not_congr (faultAt?_eq_some_iff bounds behind)

theorem Misplaced.inside {index : Nat} (bounds : InBounds textStart dataStart cells.length)
    (misplaced : Misplaced cells textStart dataStart index fault) :
    textStart.toInt ≤ index ∧ index < cells.length := by
  have ordered := bounds.ordered
  cases misplaced with
  | word behind before found => exact ⟨behind, (List.getElem?_eq_some_iff.mp found).1⟩
  | token behind found => exact ⟨by omega, (List.getElem?_eq_some_iff.mp found).1⟩

theorem Misplaced.unique {index : Nat} {other : LoadFault}
    (misplaced : Misplaced cells textStart dataStart index fault)
    (again : Misplaced cells textStart dataStart index other) : other = fault := by
  cases misplaced with
  | word behind before found =>
    cases again with
    | word _ _ _ => rfl
    | token after _ => omega
  | token behind found =>
    cases again with
    | word _ before _ => omega
    | token _ _ => rfl

/-- The cells that are looked through. -/
theorem sectionFault?_eq (textStart dataStart : Int64) (cells : List Cell) :
    sectionFault? cells ⟨textStart.toInt.toNat, dataStart.toInt.toNat⟩ =
      (List.range' textStart.toInt.toNat (cells.length - textStart.toInt.toNat)).findSome?
        (faultAt? dataStart.toInt.toNat cells) :=
  firstFault?_drop _ _ _

theorem sectionFault?_eq_none_iff (bounds : InBounds textStart dataStart cells.length) :
    sectionFault? cells ⟨textStart.toInt.toNat, dataStart.toInt.toNat⟩ = none ↔
      ∀ index fault, ¬Misplaced cells textStart dataStart index fault := by
  have least := bounds.afterHeader
  rw [sectionFault?_eq, List.findSome?_eq_none_iff]
  constructor
  · intro fine index fault misplaced
    rcases misplaced.inside bounds with ⟨behind, inside⟩
    have none := fine index (List.mem_range'_1.mpr (by omega))
    exact (faultAt?_eq_none_iff bounds behind).mp none fault misplaced
  · intro fine index member
    have behind := (List.mem_range'_1.mp member).1
    exact (faultAt?_eq_none_iff bounds (by omega)).mpr (fine index)

theorem sectionFault?_eq_some (bounds : InBounds textStart dataStart cells.length)
    (faulty : sectionFault? cells ⟨textStart.toInt.toNat, dataStart.toInt.toNat⟩ = some fault) :
    ∃ index, Misplaced cells textStart dataStart index fault ∧
      ∀ earlier < index, ∀ other, ¬Misplaced cells textStart dataStart earlier other := by
  have least := bounds.afterHeader
  rw [sectionFault?_eq, List.findSome?_eq_some_iff] at faulty
  rcases faulty with ⟨passed, index, left, numbers, faulty, fine⟩
  rcases List.range'_eq_append_iff.mp numbers with ⟨count, few, rfl, more⟩
  rcases List.range'_eq_cons_iff.mp more.symm with ⟨rfl, -, -⟩
  refine ⟨_, (faultAt?_eq_some_iff bounds (by omega)).mp faulty, ?_⟩
  intro earlier less other misplaced
  have behind := (misplaced.inside bounds).1
  have none := fine earlier (List.mem_range'_1.mpr (by omega))
  exact (faultAt?_eq_none_iff bounds behind).mp none other misplaced

/-! ## What is accepted -/

/-- The cells are of their kinds if none of them is misplaced. -/
theorem valid_iff : Valid cells textStart dataStart ↔
    Header cells textStart dataStart ∧ InBounds textStart dataStart cells.length ∧
      ∀ index fault, ¬Misplaced cells textStart dataStart index fault := by
  constructor
  · rintro ⟨header, bounds, instructions, data⟩
    refine ⟨header, bounds, fun index fault misplaced => ?_⟩
    have inside := (misplaced.inside bounds).2
    cases misplaced with
    | word behind before found =>
      rcases instructions index behind before with ⟨text, holds⟩
      cases found.symm.trans holds
    | token behind found =>
      rcases data index behind inside with ⟨value, holds⟩
      cases found.symm.trans holds
  · rintro ⟨header, bounds, fine⟩
    have bounded := bounds.bounded
    refine ⟨header, bounds, fun index behind before => ?_, fun index behind inside => ?_⟩
    · have inside : index < cells.length := by omega
      have found := List.getElem?_eq_getElem inside
      cases cell : cells[index] with
      | token text => exact ⟨text, found.trans (congrArg some cell)⟩
      | word value =>
        exact absurd (.word behind before (found.trans (congrArg some cell))) (fine index _)
    · have found := List.getElem?_eq_getElem inside
      cases cell : cells[index] with
      | word value => exact ⟨value, found.trans (congrArg some cell)⟩
      | token text =>
        exact absurd (.token behind (found.trans (congrArg some cell))) (fine index _)

theorem Refused.not_valid (refused : Refused cells fault) : ¬Valid cells textStart dataStart := by
  intro valid
  rcases valid_iff.mp valid with ⟨header, bounds, fine⟩
  cases refused with
  | header headless => exact headless _ _ header
  | bounds again outside =>
    rcases header.unique again with ⟨rfl, rfl⟩
    exact outside bounds
  | cell again _ misplaced _ =>
    rcases header.unique again with ⟨rfl, rfl⟩
    exact fine _ _ misplaced

/-- There is one reason for a list to be refused. -/
theorem Refused.unique {other : LoadFault} (refused : Refused cells fault)
    (again : Refused cells other) : other = fault := by
  cases refused with
  | header headless =>
    cases again with
    | header _ => rfl
    | bounds header _ => exact absurd header (headless _ _)
    | cell header _ _ _ => exact absurd header (headless _ _)
  | bounds header outside =>
    cases again with
    | header headless => exact absurd header (headless _ _)
    | bounds again _ =>
      rcases header.unique again with ⟨rfl, rfl⟩
      rfl
    | cell again bounds _ _ =>
      rcases header.unique again with ⟨rfl, rfl⟩
      exact absurd bounds outside
  | @cell textStart dataStart index fault header bounds misplaced first =>
    cases again with
    | header headless => exact absurd header (headless _ _)
    | bounds again outside =>
      rcases header.unique again with ⟨rfl, rfl⟩
      exact absurd bounds outside
    | @cell _ _ otherIndex _ again _ misplacedToo firstToo =>
      rcases header.unique again with ⟨rfl, rfl⟩
      have same : otherIndex = index := by
        refine Nat.le_antisymm (Nat.le_of_not_lt fun less => ?_) (Nat.le_of_not_lt fun less => ?_)
        · exact firstToo index less fault misplaced
        · exact first otherIndex less other misplacedToo
      subst same
      exact misplaced.unique misplacedToo

theorem inBounds_iff {length : Nat} : InBounds textStart dataStart length ↔
    0 ≤ textStart.toInt ∧ 0 ≤ dataStart.toInt ∧ 2 ≤ textStart.toInt.toNat ∧
      textStart.toInt.toNat ≤ dataStart.toInt.toNat ∧ dataStart.toInt.toNat ≤ length := by
  constructor
  · rintro ⟨afterHeader, ordered, bounded⟩
    omega
  · rintro ⟨_, _, afterHeader, ordered, bounded⟩
    exact ⟨by omega, by omega, by omega⟩

theorem valid_or_refused (cells : List Cell) :
    (∃ executable textStart dataStart, ofCells cells = .ok executable ∧
      Valid cells textStart dataStart ∧ executable.cells = cells ∧
      executable.textSection = ⟨textStart.toInt.toNat, dataStart.toInt.toNat⟩) ∨
    ∃ fault, ofCells cells = .error fault ∧ Refused cells fault := by
  unfold ofCells
  split
  · rename_i textStart dataStart others
    have header : Header (.word textStart :: .word dataStart :: others) textStart dataStart :=
      ⟨others, rfl⟩
    simp only
    split
    · rename_i bounds
      have bounds := inBounds_iff.mpr bounds
      split
      · rename_i fault faulty
        rcases sectionFault?_eq_some bounds faulty with ⟨index, misplaced, first⟩
        exact Or.inr ⟨fault, rfl, .cell header bounds misplaced first⟩
      · rename_i sound
        have fine := (sectionFault?_eq_none_iff bounds).mp sound
        exact Or.inl ⟨_, textStart, dataStart, rfl, valid_iff.mpr ⟨header, bounds, fine⟩, rfl, rfl⟩
    · rename_i outside
      exact Or.inr ⟨_, rfl, .bounds header fun bounds => outside (inBounds_iff.mp bounds)⟩
  · rename_i headless
    refine Or.inr ⟨_, rfl, .header ?_⟩
    rintro textStart dataStart ⟨others, rfl⟩
    exact headless _ _ _ rfl

/-- The check of a list of cells is exact.

A list is accepted exactly if its header announces sections that are in order and
of which every cell is of its kind.  The executable then has these cells and these
sections, and its instructions are the cells of the text section in their order.
Every other list is refused: for its header if it has none, else for the sections
that the header announces if these are out of order or out of range, and else for
the first cell of a wrong kind.  What is laid out from instructions and data is
accepted as it is; a list of instructions is never so long that the header could not
say where it ends. -/
theorem validates_exactly (cells : List Cell) :
    ((∃ executable, ofCells cells = .ok executable) ↔
      ∃ textStart dataStart, Valid cells textStart dataStart) ∧
    (∀ executable, ofCells cells = .ok executable → executable.cells = cells ∧
      (∀ textStart dataStart, Header cells textStart dataStart →
        executable.textSection.start = textStart.toInt ∧
        executable.textSection.stop = dataStart.toInt) ∧
      executable.instructions.map Prod.fst = List.range' executable.textSection.start
        (executable.textSection.stop - executable.textSection.start) ∧
      ∀ index text, (index, text) ∈ executable.instructions ↔
        executable.textSection.start ≤ index ∧ index < executable.textSection.stop ∧
        cells[index]? = some (.token text)) ∧
    (∀ fault, ofCells cells = .error fault ↔ Refused cells fault) ∧
    ∀ texts data, 2 + texts.length < Text.signBound →
      ofCells (ofParts texts data).cells = .ok (ofParts texts data) := by
  refine ⟨?_, ?_, ?_, fun texts data short => ofCells_partCells short data⟩
  · rcases valid_or_refused cells with
      ⟨executable, textStart, dataStart, accepted, valid, -⟩ | ⟨fault, refuses, refused⟩
    · exact iff_of_true ⟨executable, accepted⟩ ⟨textStart, dataStart, valid⟩
    · refine iff_of_false ?_ ?_
      · rintro ⟨executable, accepted⟩
        cases refuses.symm.trans accepted
      · rintro ⟨textStart, dataStart, valid⟩
        exact refused.not_valid valid
  · intro executable accepted
    rcases valid_or_refused cells with
      ⟨same, textStart, dataStart, made, valid, rfl, sections⟩ | ⟨fault, refuses, -⟩
    · cases accepted.symm.trans made
      refine ⟨rfl, ?_, map_fst_instructions executable, fun index text => mem_instructions_iff _⟩
      intro otherText otherData again
      rcases valid.header.unique again with ⟨rfl, rfl⟩
      have bounds := valid.bounds
      have afterHeader := bounds.afterHeader
      have ordered := bounds.ordered
      rw [sections]
      exact ⟨Int.toNat_of_nonneg (by omega), Int.toNat_of_nonneg (by omega)⟩
    · cases refuses.symm.trans accepted
  · intro fault
    rcases valid_or_refused cells with
      ⟨executable, textStart, dataStart, accepted, valid, -⟩ | ⟨found, refuses, refused⟩
    · refine iff_of_false ?_ fun refused => refused.not_valid valid
      intro refuses
      cases refuses.symm.trans accepted
    · rw [refuses]
      constructor
      · rintro ⟨⟩
        exact refused
      · intro again
        rw [refused.unique again]

/-- A text stands between the header and the only instruction. -/
theorem validates_exactly_behind_gap :
    let cells : List Cell := [.word 3, .word 4, .token "free", .token "syscall", .word 7]
    Valid cells 3 4 ∧
    (∃ executable, ofCells cells = .ok executable ∧ (3, "syscall") ∈ executable.instructions) ∧
    2 + ["syscall"].length < Text.signBound ∧
    ofCells (ofParts ["syscall"] [7]).cells = .ok (ofParts ["syscall"] [7]) := by
  intro cells
  have valid : Valid cells 3 4 := by
    refine ⟨⟨_, rfl⟩, ⟨by decide, by decide, by decide⟩, ?_, ?_⟩
    · intro index behind before
      have only : (3 : Int) ≤ index ∧ (index : Int) < 4 := ⟨behind, before⟩
      obtain rfl : index = 3 := by omega
      exact ⟨_, rfl⟩
    · intro index behind inside
      have only : (4 : Int) ≤ index ∧ index < 5 := ⟨behind, inside⟩
      obtain rfl : index = 4 := by omega
      exact ⟨_, rfl⟩
  rcases validates_exactly cells with ⟨accepts, describes, -, lays⟩
  rcases accepts.mpr ⟨3, 4, valid⟩ with ⟨executable, accepted⟩
  rcases describes executable accepted with ⟨-, sections, -, lists⟩
  have bounds : (executable.textSection.start : Int) = 3 ∧ (executable.textSection.stop : Int) = 4 :=
    sections 3 4 valid.header
  have listed := (lists 3 "syscall").mpr ⟨by omega, by omega, rfl⟩
  have short : 2 + ["syscall"].length < Text.signBound := by decide
  exact ⟨valid, ⟨executable, accepted, listed⟩, short, lays _ _ short⟩

example : ofCells [.word 2, .word 3, .token "noop", .token "noop", .token "noop"] =
    .error (.expectedWord 3) := rfl

end Executable
end BranchPipeline
