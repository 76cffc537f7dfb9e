namespace BranchPipeline
namespace Text

/-!
# Fields of a fixed width

Report cells are padded to a least width, counted in characters; a text that
is already wider is kept whole.  A table row joins its cells by a comma and a
blank behind two blanks of indent.  `columns` says how many cells of one width
go on a line, and `rows` writes a list of cells with that many to a row.
-/

/-- Puts blanks in front until the text is `width` characters wide. -/
def padLeft (width : Nat) (text : String) (fill : Char := ' ') : String :=
  String.ofList (List.replicate (width - text.length) fill) ++ text

/-- Puts blanks behind until the text is `width` characters wide. -/
def padRight (width : Nat) (text : String) (fill : Char := ' ') : String :=
  text ++ String.ofList (List.replicate (width - text.length) fill)

/-- Centres the text; of an odd number of fill characters the larger part goes behind. -/
def centre (width : Nat) (text : String) (fill : Char) : String :=
  let missing := width - text.length
  String.ofList (List.replicate (missing / 2) fill) ++ text ++
    String.ofList (List.replicate (missing - missing / 2) fill)

/-- The consecutive runs of `size` items, the last of which may be shorter.
A size of zero counts as one. -/
def runs {α : Type} (size : Nat) (items : List α) : List (List α) :=
  match items with
  | [] => []
  | item :: rest =>
    (item :: rest.take (size - 1)) :: runs size (rest.drop (size - 1))
termination_by items.length
decreasing_by simp only [List.length_drop, List.length_cons]; omega

/-- How many cells of one width go on a line when they are joined by a comma
and a blank behind two blanks of indent; at least one. -/
def columns (cellWidth lineWidth : Nat) : Nat :=
  max ((lineWidth - 2 + 2) / (cellWidth + 2)) 1

/-- One row of a table, with its line end. -/
def row (cells : List String) : String :=
  "  " ++ String.intercalate ", " cells ++ "\n"

def rows (perRow : Nat) (cells : List String) : String :=
  String.join ((runs perRow cells).map row)

end Text
end BranchPipeline
