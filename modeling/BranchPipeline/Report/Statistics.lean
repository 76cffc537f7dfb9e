import BranchPipeline.Text.Layout

namespace BranchPipeline

/-!
# Statistics

Statistics are a list of sections, each with a header, a body and the width
that the body needs.  All of them are printed between two rules as wide as the
widest header or body.
-/

structure StatisticsSection where
  header : String
  width : Nat
  body : String
  deriving DecidableEq, Repr

namespace StatisticsSection

def neededWidth (part : StatisticsSection) : Nat :=
  max part.header.length part.width

/-- Header and body. -/
def text (part : StatisticsSection) : String :=
  part.header ++ ":\n" ++ part.body

def tableWidth (cellWidth perRow : Nat) : Nat :=
  perRow * cellWidth + (perRow - 1) * 2 + 2

/-- A section that is a table of cells of one width, with as many to a row as
fit on a line. -/
def table (header : String) (cellWidth lineWidth : Nat) (cells : List String) :
    StatisticsSection where
  header := header
  width := tableWidth cellWidth (Text.columns cellWidth lineWidth)
  body := Text.rows (Text.columns cellWidth lineWidth) cells

end StatisticsSection

namespace Statistics

/-- The caption in the upper rule. -/
def caption : String := " statistics "

def ruleWidth (sections : List StatisticsSection) : Nat :=
  sections.foldl (fun width part => max width part.neededWidth) caption.length

/-- All sections between their rules. -/
def view (sections : List StatisticsSection) : String :=
  let width := ruleWidth sections
  Text.centre width caption '-' ++ "\n" ++
    String.join (sections.map StatisticsSection.text) ++
    Text.padRight width "" '-'

/-- What part of a whole in hundredths; nothing of nothing is zero. -/
def percent (part whole : Nat) : Float :=
  if whole = 0 then 0 else part.toFloat * 100 / whole.toFloat

end Statistics
end BranchPipeline
