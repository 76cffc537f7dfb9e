import BranchPipeline.Format.ExecutableFile
import BranchPipeline.Proofs.Json.Number
import BranchPipeline.Proofs.Json.Quotation
import BranchPipeline.Proofs.Text.Words

namespace BranchPipeline

/-!
# Executable files can be read back

A file that was written from an executable is read as this executable, if the
header of its cells says where its text section lies.  Every way to come by an
executable sees to that.
-/

variable {rest : List Char}

/-! ## Values -/

namespace Json

theorem skipBlanks_of_solid {lead : Char} (solid : Text.isAsciiBlank lead = false)
    (more : List Char) : skipBlanks (lead :: more) = lead :: more := by
  rw [skipBlanks, List.dropWhile_cons_of_neg (by rw [solid]; exact Bool.false_ne_true)]

theorem solid_of_startsNumber {lead : Char} (starts : startsNumber lead = true) :
    Text.isAsciiBlank lead = false :=
  Text.isAsciiBlank_eq_false (by decide) lead starts

/-- A written integer starts as a number does. -/
theorem exists_startsNumber (value : Int) :
    ∃ lead more, (toString value).toList = lead :: more ∧ startsNumber lead = true := by
  cases value with
  | ofNat number =>
    cases written : Nat.toDigits 10 number with
    | nil => exact absurd written Nat.toDigits_ne_nil
    | cons lead more =>
      have digit := isDigit_of_mem_toDigits number lead (written ▸ List.mem_cons_self)
      refine ⟨lead, more, (toList_toString_ofNat number).trans written, ?_⟩
      rw [startsNumber, Bool.or_eq_true]
      exact Or.inr digit
  | negSucc number => exact ⟨'-', _, toList_toString_negSucc number, rfl⟩

theorem readValue_written (depth : Nat) (text : String) (rest : List Char) :
    readValue depth ((written text).toList ++ rest) = .ok (.string text, rest) := by
  rw [toList_written, List.cons_append, List.append_assoc, readValue]
  show (readQuoted _ >>= _) = _
  rw [List.singleton_append, readQuoted_flatMap]
  show Except.ok _ = _
  rw [String.ofList_toList]

theorem readValue_toString (depth : Nat) (word : Int64) (delimits : Delimits rest) :
    readValue depth ((toString word.toInt).toList ++ rest) =
      .ok (.number (.integer word.toInt), rest) := by
  have reads := readNumber_toString word delimits
  rcases exists_startsNumber word.toInt with ⟨lead, more, written, starts⟩
  rw [written, List.cons_append] at reads ⊢
  rw [readValue, skipBlanks_of_solid (solid_of_startsNumber starts)]
  split
  case h_8 same =>
    cases same
    rw [if_pos starts, reads]
    rfl
  all_goals
    rename_i same
    cases same
    try cases starts

end Json

/-! ## Cells -/

namespace Cell

theorem ofJson?_word (value : Int64) :
    ofJson? (.number (.integer value.toInt)) = some (.word value) := by
  have bounds : Int64.minValue.toInt ≤ value.toInt ∧ value.toInt ≤ Int64.maxValue.toInt :=
    ⟨value.le_toInt, Int.lt_add_one_iff.mp value.toInt_lt⟩
  simp only [ofJson?, bounds, decide_true, Bool.and_self, if_true, Int64.ofInt_toInt]

/-- A written cell starts neither with a blank nor with a closing bracket. -/
theorem exists_lead (cell : Cell) : ∃ lead more, cell.json.toList = lead :: more ∧
    Text.isAsciiBlank lead = false ∧ lead ≠ ']' := by
  cases cell with
  | token text => exact ⟨'"', _, Json.toList_written text, by decide, by decide⟩
  | word value =>
    rcases Json.exists_startsNumber value.toInt with ⟨lead, more, written, starts⟩
    refine ⟨lead, more, written, Json.solid_of_startsNumber starts, ?_⟩
    rintro rfl
    cases starts

end Cell

namespace Executable

open Json

theorem readCell_json (cell : Cell) (delimits : Delimits rest) :
    readCell (cell.json.toList ++ rest) = .ok (cell, rest) := by
  cases cell with
  | token text =>
    rw [readCell, Cell.json, readValue_written]
    rfl
  | word value =>
    rw [readCell, Cell.json]
    refine bind_eq_ok_iff.mpr ⟨_, readValue_toString _ value delimits, ?_⟩
    simp only [Cell.ofJson?_word]
    rfl

/-! ## Cell lists -/

/-- Reads one more cell of an array. -/
def readNext (cells : List Cell) (input : List Char) :
    Except Json.Fault (List Cell × List Char) := do
  let (cell, left) ← readCell input
  return (cell :: cells, left)

/-- The cells behind the first one, as an array without blanks has them. -/
def separated (cells : List Cell) : List Char :=
  cells.flatMap fun cell => ',' :: cell.json.toList

theorem delimits_separated (cells : List Cell) (rest : List Char) :
    Delimits (separated cells ++ ']' :: rest) := by
  cases cells with
  | nil => exact .bracket rest
  | cons cell cells => exact .comma _

theorem readNext_json (cells : List Cell) (cell : Cell) (delimits : Delimits rest) :
    readNext cells (cell.json.toList ++ rest) = .ok (cell :: cells, rest) := by
  rw [readNext, readCell_json cell delimits]
  rfl

theorem skipBlanks_json (cell : Cell) (rest : List Char) :
    skipBlanks (cell.json.toList ++ rest) = cell.json.toList ++ rest := by
  rcases cell.exists_lead with ⟨lead, more, written, solid, -⟩
  rw [written, List.cons_append, skipBlanks_of_solid solid]

theorem readItemsFrom_separated {cells : List Cell} {bound : Nat} (enough : cells.length < bound)
    (before : List Cell) (rest : List Char) :
    readItemsFrom ']' readNext bound before false (separated cells ++ ']' :: rest) =
      .ok (cells.reverse ++ before, rest) := by
  induction cells generalizing bound before with
  | nil =>
    cases bound with
    | zero => cases enough
    | succ bound => rfl
  | cons cell cells inductionHypothesis =>
    cases bound with
    | zero => cases enough
    | succ bound =>
      have fewer : cells.length < bound := Nat.lt_of_succ_lt_succ enough
      have reads := readNext_json before cell (delimits_separated cells rest)
      rw [separated, List.flatMap_cons, List.append_assoc, List.cons_append, readItemsFrom]
      show (readNext before (skipBlanks (cell.json.toList ++ (separated cells ++ ']' :: rest))) >>=
        _) = _
      rw [skipBlanks_json, reads]
      show readItemsFrom ']' readNext bound (cell :: before) false
        (separated cells ++ ']' :: rest) = _
      rw [inductionHypothesis fewer, List.reverse_cons, List.append_assoc, List.singleton_append]

/-- An item takes a character at least, so there is a turn for each cell. -/
theorem length_le_separated (cells : List Cell) : cells.length ≤ (separated cells).length := by
  induction cells with
  | nil => exact Nat.zero_le _
  | cons cell cells inductionHypothesis =>
    rw [separated, List.flatMap_cons, List.length_append, List.length_cons, List.length_cons]
    have rest : cells.length ≤ (cells.flatMap fun cell => ',' :: cell.json.toList).length :=
      inductionHypothesis
    omega

/-- The cells between the brackets of an array without blanks. -/
def arrayChars : List Cell → List Char
  | [] => []
  | cell :: cells => cell.json.toList ++ separated cells

theorem intercalate_json (cells : List Cell) :
    [','].intercalate (cells.map fun cell => cell.json.toList) = arrayChars cells := by
  cases cells with
  | nil => rfl
  | cons cell cells =>
    rw [List.map_cons, arrayChars]
    induction cells generalizing cell with
    | nil => simp [separated]
    | cons next cells inductionHypothesis =>
      rw [List.map_cons, List.intercalate_cons_cons, inductionHypothesis next]
      simp [separated]

theorem toList_json (executable : Executable) :
    executable.json.toList = '[' :: (arrayChars executable.cells ++ [']']) := by
  rw [json, compactArray, String.toList_append, String.toList_append, String.toList_intercalate,
    List.map_map]
  show ['['] ++ [','].intercalate (executable.cells.map fun cell => cell.json.toList) ++ [']'] = _
  rw [intercalate_json]
  rfl

theorem readItems_arrayChars (cells : List Cell) (rest : List Char) :
    readItems ']' readNext [] (arrayChars cells ++ ']' :: rest) = .ok (cells.reverse, rest) := by
  cases cells with
  | nil => rfl
  | cons cell cells =>
    have reads := readNext_json [] cell (delimits_separated cells rest)
    have enough : cells.length < (cell.json.toList ++ (separated cells ++ ']' :: rest)).length := by
      have least := length_le_separated cells
      rw [List.length_append, List.length_append, List.length_cons]
      omega
    rcases cell.exists_lead with ⟨lead, more, written, solid, unclosed⟩
    rw [readItems, arrayChars, List.append_assoc]
    rw [written, List.cons_append] at reads enough ⊢
    rw [readItemsFrom, skipBlanks_of_solid solid]
    simp only [beq_eq_false_iff_ne.mpr unclosed, Bool.false_eq_true, if_false, Bool.true_or,
      if_true]
    rw [reads]
    exact (readItemsFrom_separated enough [cell] rest).trans (by rw [List.reverse_cons])

theorem readCells_json (executable : Executable) :
    readCells executable.json.toList = .ok (executable.cells, []) := by
  rw [toList_json, readCells]
  show (readItems ']' readNext [] (arrayChars executable.cells ++ [']']) >>= _) = _
  rw [readItems_arrayChars]
  show Except.ok (executable.cells.reverse.reverse, []) = _
  rw [List.reverse_reverse]

/-- A written executable whose cells are accepted is read as it is. -/
theorem read_json_of_ofCells {executable : Executable}
    (accepted : ofCells executable.cells = .ok executable) :
    read executable.json = .ok executable := by
  rw [read, readCells_json]
  show (do
    let executable ← (ofCells executable.cells).mapError
      fun (fault : LoadFault) => Json.Fault.unfit fault.message
    readEnd []
    return executable) = _
  rw [accepted]
  rfl

/-! ## Executables -/

/-- The ways to come by an executable: from instructions and data, from cells, or
from a file.  A list of instructions is never so long that the header could not
say where it ends. -/
inductive Made : Executable → Prop
  | parts (texts : List String) (data : List Int64) (short : 2 + texts.length < Text.signBound) :
      Made (ofParts texts data)
  | cells {cells : List Cell} {executable : Executable}
      (accepted : ofCells cells = .ok executable) : Made executable
  | file {text : String} {executable : Executable} (reads : read text = .ok executable) :
      Made executable

theorem cells_of_ofCells {cells : List Cell} {executable : Executable}
    (accepted : ofCells cells = .ok executable) : executable.cells = cells := by
  unfold ofCells at accepted
  split at accepted
  · simp only at accepted
    split at accepted
    · split at accepted
      · cases accepted
      · cases accepted
        rfl
    · cases accepted
  · cases accepted

/-- An executable is made again from its cells if their header says where its text
section lies. -/
theorem ofCells_of_header {executable : Executable} {textStart dataStart : Int64}
    {others : List Cell} (header : executable.cells = .word textStart :: .word dataStart :: others)
    (start : textStart.toInt = executable.textSection.start)
    (stop : dataStart.toInt = executable.textSection.stop) :
    ofCells executable.cells = .ok executable := by
  rcases executable with ⟨cells, ⟨first, last⟩, layout⟩
  simp only at header start stop
  subst header
  have bounds : textStart.toInt.toNat = first ∧ dataStart.toInt.toNat = last := by omega
  rcases bounds with ⟨rfl, rfl⟩
  unfold ofCells
  split
  · rename_i same
    cases same
    simp only
    split
    · split
      · rename_i fault faulty
        rw [layout.sound] at faulty
        cases faulty
      · rfl
    · rename_i disordered
      refine absurd ⟨?_, ?_, layout.afterHeader, layout.ordered, layout.bounded⟩ disordered
      all_goals omega
  · rename_i headless
    exact absurd rfl (headless _ _ _)

theorem ofCells_partCells {texts : List String} (short : 2 + texts.length < Text.signBound)
    (data : List Int64) : ofCells (partCells texts data) = .ok (ofParts texts data) := by
  have header : (ofParts texts data).cells = .word 2 :: .word (Int64.ofNat (2 + texts.length)) ::
    (texts.map Cell.token ++ data.map Cell.word) := rfl
  exact ofCells_of_header header rfl (Int64.toInt_ofNat_of_lt short)

theorem ofCells_of_made {executable : Executable} (made : Made executable) :
    ofCells executable.cells = .ok executable := by
  cases made with
  | parts texts data short => exact ofCells_partCells short data
  | cells accepted => rw [cells_of_ofCells accepted, accepted]
  | file reads =>
    rcases bind_eq_ok_iff.mp reads with ⟨⟨cells, rest⟩, -, reads⟩
    rcases bind_eq_ok_iff.mp reads with ⟨made, accepted, reads⟩
    rcases bind_eq_ok_iff.mp reads with ⟨-, -, same⟩
    cases same
    have accepted := mapError_eq_ok.mp accepted
    rw [cells_of_ofCells accepted, accepted]

/-- Writing an executable and reading the file gives the executable back, the same
cells and the same sections, whatever its instructions and its data are and
however it was made.  Its cells alone are enough for that. -/
theorem json_round_trip {executable : Executable} (made : Made executable) :
    read executable.json = .ok executable ∧ ofCells executable.cells = .ok executable :=
  ⟨read_json_of_ofCells (ofCells_of_made made), ofCells_of_made made⟩

/-- Instructions that need every kind of escape, and the two ends of the words. -/
def awkward : Executable :=
  .ofParts ["say \"hi\"\n", "\x01", "\\π", ""] [-9223372036854775808, 9223372036854775807, 0]

theorem json_round_trip_awkward :
    Made awkward ∧ read awkward.json = .ok awkward ∧ ofCells awkward.cells = .ok awkward :=
  have made : Made awkward := .parts _ _ (by decide)
  ⟨made, json_round_trip made⟩

example : (ofParts ["say \"hi\"\n", "\x01"] [-9]).json =
    "[2,4,\"say \\\"hi\\\"\\n\",\"\\u0001\",-9]" := by
  decide +kernel

end Executable
end BranchPipeline
