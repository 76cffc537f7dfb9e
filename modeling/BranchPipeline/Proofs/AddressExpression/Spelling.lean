import Mathlib
import BranchPipeline.Proofs.AddressExpression.Reading
import BranchPipeline.Proofs.Operation
import BranchPipeline.Proofs.Text.Words

namespace BranchPipeline
namespace Text

/-!
# How address expressions are spelled

A text spells a sequence of tokens if it consists of their spellings with any
blanks in front, between and behind.  An operator is spelled by its sign, an
operand word by itself, and behind a word no letter, digit or underscore may
follow: two words that touch would be one.

The scanner goes from left to right, takes runs as long as it can and stops at
the first character that it does not know.  It reads a whole text exactly if the
text spells tokens, and then it reads these.  Whatever stands around the
expression is taken off before: first the blanks at both ends, then the
brackets.
-/

variable {front behind : Char → Bool} {chars core run rest : List Char}

/-! ## Frames -/

/-- The text is a core inside a frame: before it the longest run of characters
of one kind, and behind it the longest run of characters of another. -/
def Framed (front behind : Char → Bool) (chars core : List Char) : Prop :=
  ∃ lead tail, chars = lead ++ (core ++ tail) ∧
    (∀ c ∈ lead, front c = true) ∧ (∀ c ∈ (core ++ tail).head?, front c = false) ∧
    (∀ c ∈ tail, behind c = true) ∧ (∀ c ∈ core.getLast?, behind c = false)

theorem dropWhile_run_append (all : ∀ c ∈ run, front c = true) (solid : Solid front rest) :
    (run ++ rest).dropWhile front = rest := by
  rw [List.dropWhile_append_of_pos all]
  cases rest with
  | nil => rfl
  | cons c rest =>
    refine List.dropWhile_cons_of_neg ?_
    rw [solid c rfl]
    exact Bool.false_ne_true

theorem exists_run (front : Char → Bool) (chars : List Char) :
    ∃ run, chars = run ++ chars.dropWhile front ∧ ∀ c ∈ run, front c = true :=
  ⟨chars.takeWhile front, List.takeWhile_append_dropWhile.symm,
    fun _ member => List.all_eq_true.mp List.all_takeWhile _ member⟩

theorem dropTail_append_run (all : ∀ c ∈ run, behind c = true)
    (solid : ∀ c ∈ core.getLast?, behind c = false) : dropTail behind (core ++ run) = core := by
  have turned : Solid behind core.reverse := by
    rw [Solid, List.head?_reverse]
    exact solid
  have reversed : ∀ c ∈ run.reverse, behind c = true :=
    fun c member => all c (List.mem_reverse.mp member)
  rw [dropTail, List.reverse_append, dropWhile_run_append reversed turned, List.reverse_reverse]

theorem exists_tail_run (behind : Char → Bool) (chars : List Char) :
    ∃ run, chars = dropTail behind chars ++ run ∧ ∀ c ∈ run, behind c = true := by
  rcases exists_run behind chars.reverse with ⟨run, split, all⟩
  refine ⟨run.reverse, ?_, fun c member => all c (List.mem_reverse.mp member)⟩
  rw [dropTail, ← List.reverse_append, ← split, List.reverse_reverse]

theorem getLast?_dropTail (behind : Char → Bool) (chars : List Char) :
    ∀ c ∈ (dropTail behind chars).getLast?, behind c = false := by
  rw [dropTail, List.getLast?_reverse]
  exact solid_dropWhile behind chars.reverse

/-- A text is framed in just one way. -/
theorem framed_iff (front behind : Char → Bool) (chars core : List Char) :
    Framed front behind chars core ↔ dropTail behind (chars.dropWhile front) = core := by
  constructor
  · rintro ⟨lead, tail, rfl, fronts, solid, behinds, ends⟩
    rw [dropWhile_run_append fronts solid, dropTail_append_run behinds ends]
  · rintro rfl
    rcases exists_run front chars with ⟨lead, split, fronts⟩
    rcases exists_tail_run behind (chars.dropWhile front) with ⟨tail, rest, behinds⟩
    refine ⟨lead, tail, ?_, fronts, ?_, behinds, getLast?_dropTail behind _⟩
    · rw [← rest]
      exact split
    · rw [← rest]
      exact solid_dropWhile front chars

end Text

namespace AddressExpression

open Text

variable {chars inner word rest : List Char} {c : Char} {tokens : List Token}
  {operator : Operator} {reason : Reason}

/-! ## What an expression encloses -/

/-- What is left of an expression when the blanks at its ends are taken off,
then the opening brackets in front and then the closing brackets behind. -/
def Encloses (expression : String) (inner : List Char) : Prop :=
  ∃ core, Framed isBlank isBlank expression.toList core ∧ Framed (· == '[') (· == ']') core inner

theorem encloses_iff (expression : String) (inner : List Char) :
    Encloses expression inner ↔ strip expression = inner := by
  simp only [Encloses, framed_iff, exists_eq_left', strip, trim]

/-! ## Spelling -/

/-- The sign of an operator. -/
def Operator.sign : Operator → Char
  | add => '+'
  | subtract => '-'
  | multiply => '*'
  | divide => '/'

/-- The text spells the tokens, with blanks around them as one likes. -/
inductive Spells : List Char → List Token → Prop
  | nothing : Spells [] []
  | blank {c : Char} {rest : List Char} {tokens : List Token} (blank : c ∈ [' ', '\t', '\r', '\n'])
      (spells : Spells rest tokens) : Spells (c :: rest) tokens
  | operator (operator : Operator) {rest : List Char} {tokens : List Token}
      (spells : Spells rest tokens) : Spells (operator.sign :: rest) (.operator operator :: tokens)
  | operand {word rest : List Char} {tokens : List Token} (nonempty : word ≠ [])
      (letters : ∀ c ∈ word, c.isAlphanum = true ∨ c = '_')
      (ends : ∀ c ∈ rest.head?, ¬(c.isAlphanum = true ∨ c = '_')) (spells : Spells rest tokens) :
      Spells (word ++ rest) (.operand (String.ofList word) :: tokens)

theorem Operator.ofChar?_eq_some_iff {c : Char} {operator : Operator} :
    ofChar? c = some operator ↔ c = operator.sign := by
  constructor
  · intro read
    unfold ofChar? at read
    split at read <;> cases read <;> rfl
  · rintro rfl
    cases operator <;> rfl

theorem isWordChar_iff (c : Char) : isWordChar c = true ↔ c.isAlphanum = true ∨ c = '_' := by
  rw [isWordChar, Bool.or_eq_true, beq_iff_eq]

/-! ## The scanner takes what is spelled -/

/-- Only what follows the blanks in front counts. -/
theorem scan_of_dropWhile_eq {other : List Char}
    (same : chars.dropWhile isAsciiBlank = other.dropWhile isAsciiBlank) :
    scan chars = scan other := by
  rw [scan, scan, same]

theorem scan_operator (operator : Operator) (rest : List Char) :
    scan (operator.sign :: rest) = (.operator operator :: (scan rest).1, (scan rest).2) := by
  have solid : (operator.sign :: rest).dropWhile isAsciiBlank = operator.sign :: rest := by
    cases operator <;> rfl
  rw [scan]
  split
  · rename_i none
    cases solid.symm.trans none
  · rename_i c others first
    cases solid.symm.trans first
    rw [Operator.ofChar?_eq_some_iff.mpr rfl]

theorem ofChar?_of_isWordChar (letter : isWordChar c = true) : Operator.ofChar? c = none := by
  cases read : Operator.ofChar? c with
  | none => rfl
  | some operator =>
    rw [Operator.ofChar?_eq_some_iff.mp read] at letter
    cases operator <;> cases letter

/-- A run of letters, digits and underscores that goes on as long as it can is
one word. -/
theorem scan_word (letters : ∀ c ∈ word, isWordChar c = true) (nonempty : word ≠ [])
    (ends : Solid isWordChar rest) :
    scan (word ++ rest) = (.operand (String.ofList word) :: (scan rest).1, (scan rest).2) := by
  cases word with
  | nil => exact absurd rfl nonempty
  | cons lead more =>
    have letter : isWordChar lead = true := letters lead List.mem_cons_self
    have follow : ∀ c ∈ more, isWordChar c = true :=
      fun c member => letters c (List.mem_cons_of_mem lead member)
    have dropped : (more ++ rest).dropWhile isWordChar = rest := dropWhile_run_append follow ends
    have taken : (more ++ rest).takeWhile isWordChar = more := by
      have whole := List.takeWhile_append_dropWhile (p := isWordChar) (l := more ++ rest)
      rw [dropped] at whole
      exact List.append_cancel_right whole
    have solid : (lead :: more ++ rest).dropWhile isAsciiBlank = lead :: (more ++ rest) := by
      refine List.dropWhile_cons_of_neg ?_
      rw [isAsciiBlank_eq_false (by decide) lead letter]
      exact Bool.false_ne_true
    rw [scan]
    split
    · rename_i none
      cases solid.symm.trans none
    · rename_i c others first
      cases solid.symm.trans first
      rw [ofChar?_of_isWordChar letter, if_pos letter, dropped, taken]

theorem Spells.scan_eq (spells : Spells chars tokens) : scan chars = (tokens, []) := by
  induction spells with
  | nothing => rw [scan]; rfl
  | @blank c rest tokens blank _ inductionHypothesis =>
    rw [← isAsciiBlank_iff] at blank
    rw [← inductionHypothesis]
    exact scan_of_dropWhile_eq (List.dropWhile_cons_of_pos blank)
  | operator operator _ inductionHypothesis => rw [scan_operator, inductionHypothesis]
  | @operand word rest tokens nonempty letters ends _ inductionHypothesis =>
    have letters : ∀ c ∈ word, isWordChar c = true :=
      fun c member => (isWordChar_iff c).mpr (letters c member)
    have solid : Solid isWordChar rest := by
      intro c first
      rw [Bool.eq_false_iff, ne_eq, isWordChar_iff]
      exact ends c first
    rw [scan_word letters nonempty solid, inductionHypothesis]

/-! ## What the scanner takes is spelled -/

theorem Spells.of_dropWhile (spells : Spells (chars.dropWhile isAsciiBlank) tokens) :
    Spells chars tokens := by
  induction chars with
  | nil => exact spells
  | cons c rest inductionHypothesis =>
    rw [List.dropWhile_cons] at spells
    split at spells
    · rename_i blank
      exact .blank ((isAsciiBlank_iff c).mp blank) (inductionHypothesis spells)
    · exact spells

theorem spells_of_scan (chars : List Char) (whole : (scan chars).2 = []) :
    Spells chars (scan chars).1 := by
  fun_induction scan chars with
  | case1 chars none =>
    apply Spells.of_dropWhile
    rw [none]
    exact .nothing
  | case2 chars c rest first operator sign tokens left scanned inductionHypothesis =>
    have spells := inductionHypothesis (by rw [scanned]; exact whole)
    rw [scanned] at spells
    apply Spells.of_dropWhile
    rw [first, Operator.ofChar?_eq_some_iff.mp sign]
    exact .operator operator spells
  | case3 chars c rest first _ letter tokens left scanned inductionHypothesis =>
    have spells := inductionHypothesis (by rw [scanned]; exact whole)
    rw [scanned] at spells
    have letters : ∀ other ∈ c :: rest.takeWhile isWordChar,
        other.isAlphanum = true ∨ other = '_' := by
      intro other member
      rw [← isWordChar_iff]
      rcases List.mem_cons.mp member with rfl | member
      · exact letter
      · exact List.all_eq_true.mp List.all_takeWhile other member
    have ends : ∀ other ∈ (rest.dropWhile isWordChar).head?,
        ¬(other.isAlphanum = true ∨ other = '_') := by
      intro other next
      rw [← isWordChar_iff, solid_dropWhile isWordChar rest other next]
      exact Bool.false_ne_true
    have read := Spells.operand (List.cons_ne_nil c _) letters ends spells
    rw [List.cons_append, List.takeWhile_append_dropWhile] at read
    apply Spells.of_dropWhile
    rw [first]
    exact read
  | case4 => cases whole

/-- The scanner gets to the end of a text exactly if the text spells tokens. -/
theorem scan_eq_iff : scan chars = (tokens, []) ↔ Spells chars tokens := by
  constructor
  · intro scanned
    have spells := spells_of_scan chars (by rw [scanned])
    rw [scanned] at spells
    exact spells
  · exact Spells.scan_eq

theorem tokenize_eq_ok_iff :
    tokenize chars = .ok tokens ↔ tokens ≠ [] ∧ Spells chars tokens := by
  rw [← scan_eq_iff, tokenize]
  split
  · rename_i left scanned
    rw [scanned]
    refine iff_of_false nofun ?_
    rintro ⟨nonempty, same⟩
    cases same
    exact nonempty rfl
  · rename_i found nonempty scanned
    rw [scanned]
    constructor
    · intro same
      cases same
      exact ⟨nonempty, rfl⟩
    · rintro ⟨-, same⟩
      cases same
      rfl
  · rename_i left _ nonempty scanned
    rw [scanned]
    refine iff_of_false nofun ?_
    rintro ⟨-, same⟩
    cases same
    exact nonempty rfl

/-! ## Expressions -/

theorem parse_eq_ok_iff (expression : String) (tokens : List Token) :
    parse expression = .ok tokens ↔ Spells (strip expression) tokens ∧ Alternates tokens := by
  rw [parse, bind_eq_ok_iff]
  simp only [bind_eq_ok_iff, tokenize_eq_ok_iff]
  constructor
  · rintro ⟨found, ⟨-, spells⟩, _, checked, same⟩
    cases same
    exact ⟨spells, (check_eq_ok_iff tokens).mp checked⟩
  · rintro ⟨spells, alternates⟩
    have nonempty : tokens ≠ [] := by
      rintro rfl
      cases alternates
    exact ⟨tokens, ⟨nonempty, spells⟩, (), (check_eq_ok_iff tokens).mpr alternates, rfl⟩

/-- An expression that cannot be read fails with the same complaint everywhere,
whatever the registers hold. -/
theorem address_of_parse_error {expression : String} (fails : parse expression = .error reason)
    (file : RegisterFile) : file.address expression = .error ⟨expression, reason⟩ := by
  rw [RegisterFile.address, evaluate, fails]
  rfl

/-- Expressions of the same tokens have the same value, or both have none and
for the same reason. -/
theorem address_of_parse_eq {expression other : String} (same : parse expression = parse other)
    (file : RegisterFile) :
    (∃ value, file.address expression = .ok value ∧ file.address other = .ok value) ∨
    (∃ reason, file.address expression = .error ⟨expression, reason⟩ ∧
      file.address other = .error ⟨other, reason⟩) := by
  have evaluated : evaluate file expression = evaluate file other := by
    rw [evaluate, evaluate, same]
  rw [RegisterFile.address, RegisterFile.address, evaluated]
  cases evaluate file other with
  | ok value => exact Or.inl ⟨value, rfl, rfl⟩
  | error reason => exact Or.inr ⟨reason, rfl, rfl⟩

/-- The syntax of address expressions.  An expression encloses one inner text,
and it is accepted exactly if that text spells alternating words and operators,
with the tokens that are spelled.  Expressions that spell the same tokens are
worth the same, however many blanks stand between these: both have the value,
or both are malformed for one reason, which each reports with its own text.
Every other string is malformed, and no register has a say in why. -/
theorem accepts_spelled (expression : String) :
    ∃ inner, Encloses expression inner ∧ (∀ other, Encloses expression other → other = inner) ∧
      (∀ tokens, parse expression = .ok tokens ↔ Spells inner tokens ∧ Alternates tokens) ∧
      (∀ tokens, Spells inner tokens → Alternates tokens →
        ∀ (other : String) (within : List Char), Encloses other within → Spells within tokens →
          ∀ file : RegisterFile,
            (∃ value, file.address expression = .ok value ∧ file.address other = .ok value) ∨
            (∃ reason, file.address expression = .error ⟨expression, reason⟩ ∧
              file.address other = .error ⟨other, reason⟩)) ∧
      ((¬∃ tokens, Spells inner tokens ∧ Alternates tokens) →
        ∃ reason, parse expression = .error reason ∧
          ∀ file : RegisterFile, file.address expression = .error ⟨expression, reason⟩) := by
  refine ⟨strip expression, (encloses_iff expression _).mpr rfl, ?_, parse_eq_ok_iff expression,
    ?_, ?_⟩
  · intro other encloses
    exact ((encloses_iff expression other).mp encloses).symm
  · intro tokens spells alternates other within encloses again file
    rw [← (encloses_iff other within).mp encloses] at again
    have first := (parse_eq_ok_iff expression tokens).mpr ⟨spells, alternates⟩
    have second := (parse_eq_ok_iff other tokens).mpr ⟨again, alternates⟩
    exact address_of_parse_eq (first.trans second.symm) file
  · intro unspelled
    cases parsed : parse expression with
    | ok tokens => exact absurd ⟨tokens, (parse_eq_ok_iff expression tokens).mp parsed⟩ unspelled
    | error reason => exact ⟨reason, rfl, address_of_parse_error parsed⟩

/-- Blanks around the brackets, within them and around the tokens change
nothing.  Without the operator the expression is malformed. -/
theorem accepts_spelled_spaced :
    let tokens : List Token := [.operand "rbx", .operator .add, .operand "2"]
    let spaced := "\u00a0[ rbx +\t2 ] "
    Alternates tokens ∧ (∃ inner, Encloses spaced inner ∧ Spells inner tokens) ∧
      (∃ within, Encloses "rbx+2" within ∧ Spells within tokens) ∧
      (∀ file : RegisterFile,
        (∃ value, file.address spaced = .ok value ∧ file.address "rbx+2" = .ok value) ∨
        (∃ reason, file.address spaced = .error ⟨spaced, reason⟩ ∧
          file.address "rbx+2" = .error ⟨"rbx+2", reason⟩)) ∧
      ∃ reason, ∀ file : RegisterFile, file.address "[rbx 2]" = .error ⟨"[rbx 2]", reason⟩ := by
  intro tokens spaced
  have parsed : parse spaced = .ok tokens := by cbv
  have plain : parse "rbx+2" = .ok tokens := by cbv
  have failed : parse "[rbx 2]" = .error (.missingOperator "2") := by cbv
  rcases accepts_spelled spaced with ⟨inner, encloses, -, read, alike, -⟩
  rcases accepts_spelled "rbx+2" with ⟨within, surrounds, -, reread, -, -⟩
  rcases accepts_spelled "[rbx 2]" with ⟨others, -, -, refused, -, malformed⟩
  rcases (read tokens).mp parsed with ⟨spells, alternates⟩
  have again : Spells within tokens := ((reread tokens).mp plain).1
  have unspelled : ¬∃ tokens, Spells others tokens ∧ Alternates tokens := by
    rintro ⟨tokens, accepted⟩
    cases failed.symm.trans ((refused tokens).mpr accepted)
  rcases malformed unspelled with ⟨reason, -, fails⟩
  exact ⟨alternates, ⟨inner, encloses, spells⟩, ⟨within, surrounds, again⟩,
    alike tokens spells alternates "rbx+2" within surrounds again, reason, fails⟩

end AddressExpression
end BranchPipeline
