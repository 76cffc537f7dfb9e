namespace BranchPipeline
namespace Text

/-!
# Blanks, words and trimming

Two different ideas of a blank occur in this library.  Instruction texts and
the ends of an address expression are cut at every Unicode `White_Space`
character (`isBlank`).  Between the tokens of an address expression, between
the words of a debugger line and between the tokens of a JSON text only four
ASCII characters count (`isAsciiBlank`).  Keeping the two predicates apart
here is what lets each reader say which one it means.
-/

/-- The characters with the Unicode property `White_Space`. -/
def isBlank (c : Char) : Bool :=
  let code := c.toNat
  (9 ≤ code && code ≤ 13) || code == 0x20 || code == 0x85 || code == 0xA0 ||
    code == 0x1680 || (0x2000 ≤ code && code ≤ 0x200A) || code == 0x2028 ||
    code == 0x2029 || code == 0x202F || code == 0x205F || code == 0x3000

/-- Space, tab, carriage return and line feed. -/
def isAsciiBlank (c : Char) : Bool :=
  c == ' ' || c == '\t' || c == '\r' || c == '\n'

/-- Core's blanks are among the Unicode ones. -/
theorem isBlank_of_isWhitespace (c : Char) (blank : c.isWhitespace = true) :
    isBlank c = true := by
  simp only [Char.isWhitespace, Bool.or_eq_true, decide_eq_true_eq] at blank
  rcases blank with ((rfl | rfl) | rfl) | rfl <;> decide

/-- Both kinds of blank agree that the four ASCII ones are blank. -/
theorem isBlank_of_isAsciiBlank (c : Char) (blank : isAsciiBlank c = true) :
    isBlank c = true := by
  simp only [isAsciiBlank, Bool.or_eq_true, beq_iff_eq] at blank
  rcases blank with ((rfl | rfl) | rfl) | rfl <;> decide

/-- Drops the longest tail whose characters all satisfy `drops`. -/
def dropTail (drops : Char → Bool) (chars : List Char) : List Char :=
  (chars.reverse.dropWhile drops).reverse

/-- Drops the blanks at both ends. -/
def trim (chars : List Char) : List Char :=
  dropTail isBlank (chars.dropWhile isBlank)

/-- The nonempty pieces between separators, in order. -/
def words (isSeparator : Char → Bool) (text : String) : List String :=
  ((text.toList.splitOnP isSeparator).filter (fun piece => !piece.isEmpty)).map String.ofList

/-- Drops `lead` from the front, if the text starts with it. -/
def stripLead (lead : Char) : List Char → Option (List Char)
  | [] => none
  | c :: rest => if c == lead then some rest else none

/-- Drops `last` from the back, if the text ends with it. -/
def stripLast (last : Char) (chars : List Char) : Option (List Char) :=
  (stripLead last chars.reverse).map List.reverse

end Text
end BranchPipeline
