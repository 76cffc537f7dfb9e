import BranchPipeline.Executable

namespace BranchPipeline
namespace Executable

/-!
# The cells of a section

The check of an executable goes through its cells from the first instruction on and
stops at the first one of a wrong kind.  Seen from the whole list, it asks every
number from there on for a fault.  What has passed the check has instructions in its
whole text section, and the list of instructions leaves out none of them.
-/

/-- What is wrong with the cell of this number, if it belongs to a section. -/
def faultAt? (stop : Nat) (cells : List Cell) (index : Nat) : Option LoadFault :=
  cells[index]?.bind (cellFault? stop index)

theorem firstFault?_drop (stop : Nat) (cells : List Cell) (start : Nat) :
    firstFault? stop start (cells.drop start) =
      (List.range' start (cells.length - start)).findSome? (faultAt? stop cells) := by
  induction remaining : cells.length - start generalizing start with
  | zero =>
    rw [List.drop_eq_nil_of_le (Nat.le_of_sub_eq_zero remaining)]
    rfl
  | succ more inductionHypothesis =>
    have inside : start < cells.length := by omega
    have here : faultAt? stop cells start = cellFault? stop start cells[start] := by
      rw [faultAt?, List.getElem?_eq_getElem inside, Option.bind_some]
    rw [List.drop_eq_getElem_cons inside, firstFault?, List.range'_succ, List.findSome?_cons, here,
      inductionHypothesis (start + 1) (by omega)]
    cases cellFault? stop start cells[start] <;> rfl

/-- The text section holds instructions only. -/
theorem exists_token (executable : Executable) {index : Nat}
    (start : executable.textSection.start ≤ index) (stop : index < executable.textSection.stop) :
    ∃ text, executable.cells[index]? = some (.token text) := by
  have inside : index < executable.cells.length :=
    Nat.lt_of_lt_of_le stop executable.layout.bounded
  have sound := executable.layout.sound
  rw [sectionFault?, firstFault?_drop, List.findSome?_eq_none_iff] at sound
  have fine := sound index (List.mem_range'_1.mpr (by omega))
  rw [faultAt?, List.getElem?_eq_getElem inside, Option.bind_some] at fine
  rw [List.getElem?_eq_getElem inside]
  cases cell : executable.cells[index] with
  | token text => exact ⟨text, rfl⟩
  | word value =>
    rw [cell, cellFault?, if_pos stop] at fine
    cases fine

/-! ## The list of instructions -/

variable {index number : Nat} {text : String} {cells : List Cell}

theorem mem_numberedTokens_iff : (number, text) ∈ numberedTokens index cells ↔
    ∃ offset, number = index + offset ∧ cells[offset]? = some (.token text) := by
  induction cells generalizing index with
  | nil => exact iff_of_false (List.not_mem_nil) (by rintro ⟨offset, -, ⟨⟩⟩)
  | cons cell rest inductionHypothesis =>
    have later : (number, text) ∈ numberedTokens (index + 1) rest ↔
        ∃ offset, number = index + (offset + 1) ∧
          (cell :: rest)[offset + 1]? = some (.token text) := by
      simp only [inductionHypothesis, Nat.succ_add_eq_add_succ, List.getElem?_cons_succ]
    rw [← Nat.or_exists_add_one, ← later]
    cases cell with
    | token first =>
      rw [numberedTokens, List.mem_cons, Prod.mk.injEq, List.getElem?_cons_zero, Option.some.injEq,
        Cell.token.injEq, eq_comm (a := text)]
      rfl
    | word value =>
      rw [numberedTokens, List.getElem?_cons_zero]
      exact (or_iff_right (by rintro ⟨-, ⟨⟩⟩)).symm

theorem map_fst_numberedTokens (tokens : ∀ cell ∈ cells, ∃ text, cell = .token text) :
    (numberedTokens index cells).map Prod.fst = List.range' index cells.length := by
  induction cells generalizing index with
  | nil => rfl
  | cons cell rest inductionHypothesis =>
    rcases tokens cell List.mem_cons_self with ⟨text, rfl⟩
    rw [numberedTokens, List.map_cons, List.length_cons, List.range'_succ,
      inductionHypothesis fun other member => tokens other (List.mem_cons_of_mem _ member)]

/-- Cells behind the start of a section, up to its end. -/
theorem getElem?_section (cells : List Cell) (range : Section) (offset : Nat) :
    ((cells.drop range.start).take (range.stop - range.start))[offset]? =
      if range.start + offset < range.stop then cells[range.start + offset]? else none := by
  have same : offset < range.stop - range.start ↔ range.start + offset < range.stop := by omega
  simp only [List.getElem?_take, List.getElem?_drop, same]

/-- The instructions are the cells of the text section, each with its number. -/
theorem mem_instructions_iff (executable : Executable) :
    (number, text) ∈ executable.instructions ↔ executable.textSection.start ≤ number ∧
      number < executable.textSection.stop ∧ executable.cells[number]? = some (.token text) := by
  rw [instructions, mem_numberedTokens_iff]
  simp only [getElem?_section]
  constructor
  · rintro ⟨offset, rfl, found⟩
    split at found
    · rename_i before
      exact ⟨Nat.le_add_right _ _, before, found⟩
    · cases found
  · rintro ⟨behind, before, found⟩
    refine ⟨number - executable.textSection.start, by omega, ?_⟩
    rw [Nat.add_sub_cancel' behind, if_pos before, found]

/-- They come in the order of their numbers, and none is left out. -/
theorem map_fst_instructions (executable : Executable) :
    executable.instructions.map Prod.fst = List.range' executable.textSection.start
      (executable.textSection.stop - executable.textSection.start) := by
  rw [instructions, map_fst_numberedTokens, List.length_take, List.length_drop]
  · have bounded := executable.layout.bounded
    rw [Nat.min_eq_left (by omega)]
  · intro cell member
    rcases List.getElem?_of_mem member with ⟨offset, found⟩
    rw [getElem?_section] at found
    split at found
    · rename_i before
      rcases executable.exists_token (Nat.le_add_right _ offset) before with ⟨text, holds⟩
      exact ⟨text, Option.some.inj (found.symm.trans holds)⟩
    · cases found

end Executable
end BranchPipeline
