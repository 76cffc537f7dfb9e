import BranchPipeline.Text.Layout
import Mathlib.Order.Bounds.Defs

namespace BranchPipeline
namespace Text

/-!
# Rows that fit their line

A row of a table holds as many cells as its line has room for.  The width of a
row is measured on its text; that it is linear in the number of cells is a
fact about indent and separators, and the number of columns is the quotient
that follows from it.  Cutting the cells into rows neither loses nor moves any
of them.
-/

/-- The width of a row, without its line end. -/
def rowWidth (cells : List String) : Nat := (row cells).length - 1

/-- All cells are of the same width. -/
def Uniform (cellWidth : Nat) (cells : List String) : Prop :=
  ∀ cell ∈ cells, cell.length = cellWidth

/-- A row of so many cells of this width fits the line. -/
def Fits (cellWidth lineWidth count : Nat) : Prop :=
  ∀ cells, cells.length = count → Uniform cellWidth cells → rowWidth cells ≤ lineWidth

/-! ## The width of a row -/

section

variable {cellWidth lineWidth : Nat} {cells : List String}

/-- Each cell comes with two more characters, those of a separator, and the first one
with those of the indent. -/
theorem length_intercalate (uniform : Uniform cellWidth cells) (nonempty : cells ≠ []) :
    (String.intercalate ", " cells).length + 2 = cells.length * (cellWidth + 2) := by
  rw [← String.length_toList, String.toList_intercalate]
  induction cells with
  | nil => exact absurd rfl nonempty
  | cons cell rest inductionHypothesis =>
    have first : cell.toList.length = cellWidth :=
      String.length_toList.trans (uniform cell List.mem_cons_self)
    cases rest with
    | nil =>
      simp only [List.map_cons, List.map_nil, List.intercalate_singleton, first, List.length_cons,
        List.length_nil]
      omega
    | cons next later =>
      have others : Uniform cellWidth (next :: later) :=
        fun other member => uniform other (List.mem_cons_of_mem cell member)
      have shorter := inductionHypothesis others (List.cons_ne_nil next later)
      have separator : ", ".toList.length = 2 := rfl
      rw [List.map_cons, List.map_cons, List.intercalate_cons_cons, List.length_append,
        List.length_append, first, separator]
      rw [List.map_cons] at shorter
      rw [List.length_cons, Nat.succ_mul]
      omega

theorem rowWidth_eq (uniform : Uniform cellWidth cells) (nonempty : cells ≠ []) :
    rowWidth cells = cells.length * (cellWidth + 2) := by
  have joined := length_intercalate uniform nonempty
  have indent : "  ".length = 2 := rfl
  have ending : "\n".length = 1 := rfl
  rw [rowWidth, row, String.length_append, String.length_append, indent, ending]
  omega

/-- Some row has as many cells as one likes. -/
theorem exists_uniform (cellWidth count : Nat) :
    ∃ cells, cells.length = count ∧ Uniform cellWidth cells := by
  refine ⟨List.replicate count (String.ofList (List.replicate cellWidth ' ')),
    List.length_replicate, ?_⟩
  intro cell member
  rw [List.eq_of_mem_replicate member, ← String.length_toList, String.toList_ofList,
    List.length_replicate]

theorem fits_iff {count : Nat} (positive : 1 ≤ count) :
    Fits cellWidth lineWidth count ↔ count * (cellWidth + 2) ≤ lineWidth := by
  have nonempty {cells : List String} (long : cells.length = count) : cells ≠ [] := by
    rintro rfl
    cases long
    exact Nat.not_succ_le_zero 0 positive
  constructor
  · intro fits
    rcases exists_uniform cellWidth count with ⟨cells, long, uniform⟩
    have width := fits cells long uniform
    rwa [rowWidth_eq uniform (nonempty long), long] at width
  · intro enough cells long uniform
    rwa [rowWidth_eq uniform (nonempty long), long]

end

/-! ## The number of columns -/

/-- A sum, unless it overflows a machine word. -/
def sum? (first second : Nat) : Option Nat :=
  if first + second < UInt64.size then some (first + second) else none

/-- A quotient, unless the divisor is zero. -/
def quotient? (whole part : Nat) : Option Nat :=
  if part = 0 then none else some (whole / part)

/-- The number of columns in machine words, with every step checked. -/
def columns? (cellWidth lineWidth : Nat) : Option Nat := do
  let room ← sum? (lineWidth - 2) 2
  let pitch ← sum? cellWidth 2
  let count ← quotient? room pitch
  return max count 1

section

variable {cellWidth lineWidth : Nat}

/-- No step overflows or divides by zero. -/
theorem columns?_eq (narrow : cellWidth + 2 < UInt64.size) (bounded : lineWidth < UInt64.size) :
    columns? cellWidth lineWidth = some (columns cellWidth lineWidth) := by
  have room : lineWidth - 2 + 2 < UInt64.size := by
    rw [UInt64.size] at bounded ⊢
    omega
  have divides (whole : Nat) : quotient? whole (cellWidth + 2) = some (whole / (cellWidth + 2)) :=
    if_neg (Nat.succ_ne_zero _)
  simp only [columns?, sum?, if_pos room, if_pos narrow, Option.bind_eq_bind, Option.bind_some,
    divides]
  rfl

/-- A line that is too short for its indent has one column, as one without any room. -/
theorem columns_eq (cellWidth lineWidth : Nat) :
    columns cellWidth lineWidth = max (lineWidth / (cellWidth + 2)) 1 := by
  rw [columns]
  by_cases short : lineWidth < 2
  · have none : lineWidth / (cellWidth + 2) = 0 := Nat.div_eq_of_lt (by omega)
    have few : (lineWidth - 2 + 2) / (cellWidth + 2) ≤ 1 := by
      rw [Nat.div_le_iff_le_mul (Nat.succ_pos _)]
      omega
    rw [none, Nat.max_eq_right few, Nat.max_eq_right (Nat.zero_le 1)]
  · rw [Nat.sub_add_cancel (Nat.le_of_not_lt short)]

/-- As many columns as fit, or one if not even that fits. -/
theorem columns_greatest (cellWidth lineWidth : Nat) :
    IsGreatest {count | 1 ≤ count ∧ Fits cellWidth lineWidth count}
        (columns cellWidth lineWidth) ∨
      columns cellWidth lineWidth = 1 ∧ ¬ Fits cellWidth lineWidth 1 := by
  have pitch : 0 < cellWidth + 2 := Nat.succ_pos _
  rw [columns_eq]
  by_cases one : 1 ≤ lineWidth / (cellWidth + 2)
  · rw [Nat.max_eq_left one]
    refine Or.inl ⟨⟨one, (fits_iff one).mpr (Nat.div_mul_le_self _ _)⟩, ?_⟩
    rintro count ⟨positive, fits⟩
    exact (Nat.le_div_iff_mul_le pitch).mpr ((fits_iff positive).mp fits)
  · rw [Nat.max_eq_right (Nat.le_of_not_le one)]
    refine Or.inr ⟨rfl, fun fits => one ?_⟩
    exact (Nat.le_div_iff_mul_le pitch).mpr ((fits_iff (Nat.le_refl 1)).mp fits)

/-- A row of no more cells than there are columns is no wider than the line, or
than a single cell needs. -/
theorem rowWidth_le {cells : List String} (uniform : Uniform cellWidth cells)
    (nonempty : cells ≠ []) (few : cells.length ≤ columns cellWidth lineWidth) :
    rowWidth cells ≤ max lineWidth (cellWidth + 2) := by
  rw [rowWidth_eq uniform nonempty]
  rw [columns_eq] at few
  rcases Nat.le_total 1 (lineWidth / (cellWidth + 2)) with many | one
  · rw [Nat.max_eq_left many] at few
    calc
      cells.length * (cellWidth + 2) ≤ lineWidth / (cellWidth + 2) * (cellWidth + 2) :=
        Nat.mul_le_mul_right _ few
      _ ≤ lineWidth := Nat.div_mul_le_self _ _
      _ ≤ max lineWidth (cellWidth + 2) := Nat.le_max_left _ _
  · rw [Nat.max_eq_right one] at few
    calc
      cells.length * (cellWidth + 2) ≤ 1 * (cellWidth + 2) := Nat.mul_le_mul_right _ few
      _ = cellWidth + 2 := Nat.one_mul _
      _ ≤ max lineWidth (cellWidth + 2) := Nat.le_max_right _ _

end

/-! ## The cells of the rows -/

section

variable {α : Type} {size : Nat} {items run : List α}

theorem flatten_runs (size : Nat) (items : List α) : (runs size items).flatten = items := by
  fun_induction runs size items with
  | case1 => rfl
  | case2 item rest inductionHypothesis =>
    rw [List.flatten_cons, inductionHypothesis, List.cons_append, List.take_append_drop]

theorem ne_nil_of_mem_runs (member : run ∈ runs size items) : run ≠ [] := by
  fun_induction runs size items with
  | case1 => cases member
  | case2 item rest inductionHypothesis =>
    rcases List.mem_cons.mp member with rfl | later
    · exact List.cons_ne_nil _ _
    · exact inductionHypothesis later

theorem length_le_of_mem_runs (positive : 1 ≤ size) (member : run ∈ runs size items) :
    run.length ≤ size := by
  fun_induction runs size items with
  | case1 => cases member
  | case2 item rest inductionHypothesis =>
    rcases List.mem_cons.mp member with rfl | later
    · rw [List.length_cons, List.length_take]
      omega
    · exact inductionHypothesis later

/-- Only the last run may be short: where another one follows, there were items enough. -/
theorem length_of_mem_dropLast_runs (positive : 1 ≤ size)
    (member : run ∈ (runs size items).dropLast) : run.length = size := by
  fun_induction runs size items with
  | case1 => cases member
  | case2 item rest inductionHypothesis =>
    by_cases last : runs size (rest.drop (size - 1)) = []
    · rw [last] at member
      cases member
    · rw [List.dropLast_cons_of_ne_nil last] at member
      rcases List.mem_cons.mp member with rfl | later
      · have longer : ¬ rest.length ≤ size - 1 := by
          intro short
          rw [List.drop_of_length_le short, runs] at last
          exact last rfl
        rw [List.length_cons, List.length_take]
        omega
      · exact inductionHypothesis later

end

/-- Rows fit the line and lose nothing.  The number of columns is the greatest number of
cells that a row can have within the line, or one if not even one cell fits, and no step
on the way to it overflows or divides by zero.  The rows hold every cell once and in order,
each row but the last is full, and no row is wider than the line or than a single cell
needs. -/
theorem rows_fit {cellWidth lineWidth : Nat} {cells : List String}
    (narrow : cellWidth + 2 < UInt64.size) (bounded : lineWidth < UInt64.size)
    (uniform : Uniform cellWidth cells) :
    columns? cellWidth lineWidth = some (columns cellWidth lineWidth) ∧
    (IsGreatest {count | 1 ≤ count ∧ Fits cellWidth lineWidth count}
        (columns cellWidth lineWidth) ∨
      columns cellWidth lineWidth = 1 ∧ ¬ Fits cellWidth lineWidth 1) ∧
    ∃ lines : List (List String),
      rows (columns cellWidth lineWidth) cells = String.join (lines.map row) ∧
      lines.flatten = cells ∧
      (∀ line ∈ lines.dropLast, line.length = columns cellWidth lineWidth) ∧
      ∀ line ∈ lines, line ≠ [] ∧ line.length ≤ columns cellWidth lineWidth ∧
        rowWidth line ≤ max lineWidth (cellWidth + 2) := by
  have positive : 1 ≤ columns cellWidth lineWidth := Nat.le_max_right _ _
  refine ⟨columns?_eq narrow bounded, columns_greatest cellWidth lineWidth,
    runs (columns cellWidth lineWidth) cells, rfl, flatten_runs _ _,
    fun line member => length_of_mem_dropLast_runs positive member, ?_⟩
  intro line member
  have nonempty := ne_nil_of_mem_runs member
  have few := length_le_of_mem_runs positive member
  have within : Uniform cellWidth line := by
    intro cell held
    apply uniform
    rw [← flatten_runs (columns cellWidth lineWidth) cells]
    exact List.mem_flatten_of_mem member held
  exact ⟨nonempty, few, rowWidth_le within nonempty few⟩

/-- A line that is one character too short for a third column. -/
theorem rows_fit_short_of_third :
    4 + 2 < UInt64.size ∧ 17 < UInt64.size ∧ Uniform 4 ["rax:", "rbx:", "rcx:"] ∧
    rows 2 ["rax:", "rbx:", "rcx:"] = "  rax:, rbx:\n  rcx:\n" ∧
    IsGreatest {count | 1 ≤ count ∧ Fits 4 17 count} 2 := by
  have narrow : 4 + 2 < UInt64.size := by decide
  have bounded : 17 < UInt64.size := by decide
  have uniform : Uniform 4 ["rax:", "rbx:", "rcx:"] := by
    unfold Uniform
    decide
  have two : columns 4 17 = 2 := by decide
  rcases rows_fit narrow bounded uniform with ⟨-, greatest, -⟩
  rw [two] at greatest
  refine ⟨narrow, bounded, uniform, by decide +kernel, greatest.resolve_right ?_⟩
  rintro ⟨one, -⟩
  cases one

end Text
end BranchPipeline
