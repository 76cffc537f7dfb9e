import BranchPipeline.Text.Blank

namespace BranchPipeline
namespace Text

/-!
# Words

A text falls into words and what separates them.  A reader that goes from left
to right meets the words one by one: separators in front of a text do not
matter, and a run of other characters that ends at a separator or with the text
is its first word.
-/

variable {separates : Char → Bool} {chars word rest : List Char} {c : Char}

/-- The words of a text that is given by its characters. -/
def wordsOf (separates : Char → Bool) (chars : List Char) : List String :=
  ((chars.splitOnP separates).filter (!·.isEmpty)).map String.ofList

/-- No character of the text is a separator. -/
def Unbroken (separates : Char → Bool) (chars : List Char) : Prop :=
  ∀ c ∈ chars, separates c = false

/-- The text is empty or starts with a separator. -/
def Breaks (separates : Char → Bool) (rest : List Char) : Prop :=
  ∀ c ∈ rest.head?, separates c = true

/-- The text does not start with a separator. -/
def Solid (separates : Char → Bool) (chars : List Char) : Prop :=
  ∀ c ∈ chars.head?, separates c = false

theorem wordsOf_nil : wordsOf separates [] = [] := by
  rw [wordsOf, List.splitOnP_nil]
  rfl

theorem wordsOf_separator (separator : separates c = true) (rest : List Char) :
    wordsOf separates (c :: rest) = wordsOf separates rest := by
  rw [wordsOf, List.splitOnP_cons_eq_if_modifyHead, if_pos separator]
  rfl

theorem solid_append (nonempty : word ≠ []) (unbroken : Unbroken separates word)
    (rest : List Char) : Solid separates (word ++ rest) := by
  intro c first
  cases word with
  | nil => exact absurd rfl nonempty
  | cons lead more =>
    cases first
    exact unbroken c List.mem_cons_self

theorem unbroken_of_mem_splitOnP {piece : List Char} (listed : piece ∈ chars.splitOnP separates) :
    Unbroken separates piece := by
  induction chars generalizing piece with
  | nil =>
    rw [List.splitOnP_nil, List.mem_singleton] at listed
    rw [listed]
    exact nofun
  | cons c chars inductionHypothesis =>
    rw [List.splitOnP_cons_eq_if_modifyHead] at listed
    split at listed
    · rcases List.mem_cons.mp listed with rfl | listed
      · exact nofun
      · exact inductionHypothesis listed
    · rename_i inside
      cases pieces : chars.splitOnP separates with
      | nil =>
        rw [pieces] at listed
        cases listed
      | cons head tail =>
        rw [pieces] at listed inductionHypothesis
        rcases List.mem_cons.mp listed with rfl | listed
        · intro d member
          rcases List.mem_cons.mp member with rfl | member
          · exact Bool.not_eq_true _ ▸ inside
          · exact inductionHypothesis List.mem_cons_self d member
        · exact inductionHypothesis (List.mem_cons_of_mem _ listed)

/-- A word is not empty, and no separator is in it. -/
theorem unbroken_of_mem_wordsOf {text : String} (listed : text ∈ wordsOf separates chars) :
    text.toList ≠ [] ∧ Unbroken separates text.toList := by
  rcases List.mem_map.mp listed with ⟨piece, kept, rfl⟩
  rcases List.mem_filter.mp kept with ⟨member, nonempty⟩
  rw [String.toList_ofList]
  rw [Bool.not_eq_true', List.isEmpty_eq_false_iff] at nonempty
  exact ⟨nonempty, unbroken_of_mem_splitOnP member⟩

/-- Separators in front do not matter. -/
theorem wordsOf_dropWhile (separates : Char → Bool) (chars : List Char) :
    wordsOf separates (chars.dropWhile separates) = wordsOf separates chars := by
  induction chars with
  | nil => rfl
  | cons c rest inductionHypothesis =>
    rw [List.dropWhile_cons]
    split
    · rename_i separator
      rw [inductionHypothesis, wordsOf_separator separator]
    · rfl

/-- What stands up to the first separator is a word, unless it is empty. -/
theorem wordsOf_append (nonempty : word ≠ []) (unbroken : Unbroken separates word)
    (breaks : Breaks separates rest) :
    wordsOf separates (word ++ rest) = String.ofList word :: wordsOf separates rest := by
  have kept (pieces : List (List Char)) :
      (word :: pieces).filter (!·.isEmpty) = word :: pieces.filter (!·.isEmpty) := by
    refine List.filter_cons_of_pos ?_
    rw [Bool.not_eq_true', List.isEmpty_eq_false_iff]
    exact nonempty
  cases rest with
  | nil =>
    rw [List.append_nil, wordsOf_nil, wordsOf, List.splitOnP_eq_singleton unbroken, kept]
    rfl
  | cons c rest =>
    have separator : separates c = true := breaks c rfl
    rw [wordsOf_separator separator, wordsOf,
      List.splitOnP_append_cons_of_forall_mem unbroken c separator, kept]
    rfl

theorem wordsOf_of_all (all : ∀ c ∈ chars, separates c = true) : wordsOf separates chars = [] := by
  induction chars with
  | nil => exact wordsOf_nil
  | cons c chars inductionHypothesis =>
    rw [wordsOf_separator (all c List.mem_cons_self)]
    exact inductionHypothesis fun d member => all d (List.mem_cons_of_mem c member)

theorem solid_dropWhile (separates : Char → Bool) (chars : List Char) :
    Solid separates (chars.dropWhile separates) := by
  intro c first
  have stops := List.head?_dropWhile_not separates chars
  rwa [Option.mem_def.mp first] at stops

theorem breaks_dropWhile_not (separates : Char → Bool) (chars : List Char) :
    Breaks separates (chars.dropWhile (!separates ·)) := by
  intro c first
  have stops := List.head?_dropWhile_not (!separates ·) chars
  rw [Option.mem_def.mp first] at stops
  exact (Bool.not_eq_false' _).mp stops

theorem exists_front (solid : Solid separates chars) (nonempty : chars ≠ []) :
    ∃ word rest, chars = word ++ rest ∧ word ≠ [] ∧ Unbroken separates word ∧
      Breaks separates rest := by
  refine ⟨chars.takeWhile (!separates ·), chars.dropWhile (!separates ·),
    List.takeWhile_append_dropWhile.symm, ?_, ?_, breaks_dropWhile_not separates chars⟩
  · cases chars with
    | nil => exact absurd rfl nonempty
    | cons c rest =>
      rw [List.takeWhile_cons_of_pos (by rw [solid c rfl]; rfl)]
      exact List.cons_ne_nil c _
  · intro c member
    have all := List.all_eq_true.mp List.all_takeWhile c member
    exact (Bool.not_eq_true' _).mp all

/-- A text that does not start with a separator starts with its first word, if it
has one. -/
theorem exists_of_wordsOf_cons {first : String} {others : List String}
    (solid : Solid separates chars) (split : wordsOf separates chars = first :: others) :
    ∃ rest, chars = first.toList ++ rest ∧ first.toList ≠ [] ∧
      Unbroken separates first.toList ∧ Breaks separates rest ∧
        wordsOf separates rest = others := by
  have nonempty : chars ≠ [] := by
    rintro rfl
    cases wordsOf_nil.symm.trans split
  rcases exists_front solid nonempty with ⟨word, rest, rfl, nonempty, unbroken, breaks⟩
  rw [wordsOf_append nonempty unbroken breaks, List.cons.injEq] at split
  rcases split with ⟨rfl, rfl⟩
  rw [String.toList_ofList]
  exact ⟨rest, rfl, nonempty, unbroken, breaks, rfl⟩

theorem eq_nil_of_wordsOf (solid : Solid separates chars) (none : wordsOf separates chars = []) :
    chars = [] := by
  by_cases empty : chars = []
  · exact empty
  · rcases exists_front solid empty with ⟨word, rest, rfl, nonempty, unbroken, breaks⟩
    rw [wordsOf_append nonempty unbroken breaks] at none
    cases none

theorem breaks_of_wordsOf (none : wordsOf separates rest = []) : Breaks separates rest := by
  intro c first
  cases separator : separates c with
  | true => rfl
  | false =>
    have solid : Solid separates rest := by
      intro other same
      cases Option.some.inj (first.symm.trans same)
      exact separator
    rw [eq_nil_of_wordsOf solid none] at first
    cases first

/-- A run of other characters at the front of a text reaches into its first word
at most. -/
theorem prefix_of_append_eq {front behind : List Char} (unbroken : Unbroken separates front)
    (breaks : Breaks separates rest) (same : front ++ behind = word ++ rest) : front <+: word := by
  rcases List.append_eq_append_iff.mp same with ⟨more, rfl, -⟩ | ⟨more, rfl, rfl⟩
  · exact List.prefix_append front more
  · cases more with
    | nil => exact ⟨[], by rw [List.append_nil, List.append_nil]⟩
    | cons c more =>
      have separator : separates c = true := breaks c rfl
      have other := unbroken c (List.mem_append_right word List.mem_cons_self)
      cases separator.symm.trans other

/-! ## The four blanks -/

theorem isAsciiBlank_iff (c : Char) : isAsciiBlank c = true ↔ c ∈ [' ', '\t', '\r', '\n'] := by
  simp only [isAsciiBlank, Bool.or_eq_true, beq_iff_eq, or_assoc, List.mem_cons, List.not_mem_nil,
    or_false]

/-- None of the four blanks belongs to a class that excludes them. -/
theorem isAsciiBlank_eq_false {member : Char → Bool}
    (excluded : [' ', '\t', '\r', '\n'].any member = false) (c : Char)
    (inside : member c = true) : isAsciiBlank c = false := by
  cases blank : isAsciiBlank c with
  | false => rfl
  | true =>
    have listed := (isAsciiBlank_iff c).mp blank
    cases excluded.symm.trans (List.any_eq_true.mpr ⟨c, listed, inside⟩)

end Text
end BranchPipeline
