import BranchPipeline.Debugger.Grammar
import BranchPipeline.Proofs.Text.Words

namespace BranchPipeline
namespace Rule

/-!
# What rules accept

Most of what a rule does serves to explain a refused line.  Without that, a rule
is a function from a text to a value and the text behind it (`Plays`).  This
function is known by what it does with whole words: a lexical rule reads one word
(`Lexical`), and any other rule a sequence of words (`Speaks`).

Since a choice never comes back to an alternative, it is not enough to know the
sequences that a rule reads to their end.  An earlier alternative could match the
front of a text that is meant for a later one, so it is stated beside them which
texts a rule refuses at once.
-/

variable {α β γ : Type} {cursor : Cursor} {missed : Missed}

/-! ## Rules without their explanations -/

/-- Runs a rule at a place in a line. -/
def perform (rule : Rule α) (cursor : Cursor) (missed : Missed) :
    Option (α × Cursor) × Missed :=
  (rule.run cursor).run.run missed

theorem perform_bind (first : Rule α) (later : α → Rule β) (cursor : Cursor) (missed : Missed) :
    (first >>= later).perform cursor missed =
      match first.perform cursor missed with
      | (some (value, after), noted) => (later value).perform after noted
      | (none, noted) => (none, noted) := by
  unfold perform
  rw [StateT.run_bind, OptionT.run_bind, Option.elimM, StateT.run_bind]
  change (match (first.run cursor).run.run missed with | (result, noted) => _) = _
  rcases (first.run cursor).run.run missed with ⟨_ | ⟨value, after⟩, noted⟩ <;> rfl

theorem perform_orElse (first second : Rule α) (cursor : Cursor) (missed : Missed) :
    (first <|> second).perform cursor missed =
      match first.perform cursor missed with
      | (some result, noted) => (some result, noted)
      | (none, noted) => second.perform cursor noted := by
  change ((first.run cursor <|> second.run cursor).run.run missed) = _
  rw [OptionT.run_orElse, Option.elimM, StateT.run_bind]
  unfold perform
  rcases (first.run cursor).run.run missed with ⟨_ | ⟨value, after⟩, noted⟩ <;> rfl

/-- What is read, and the text that is left. -/
def outcome (rule : Rule α) (cursor : Cursor) (missed : Missed) : Option (α × List Char) :=
  (rule.perform cursor missed).1.map fun (value, after) => (value, after.rest)

/-- What a rule reads from a text. -/
def plain (rule : Rule α) (input : List Char) : Option (α × List Char) :=
  rule.outcome ⟨input, 0⟩ {}

/-- What a rule reads depends neither on the place in the line nor on what has been
missed before. -/
def Plays (rule : Rule α) (does : List Char → Option (α × List Char)) : Prop :=
  ∀ cursor missed, rule.outcome cursor missed = does cursor.rest

section

variable {rule : Rule α} {does : List Char → Option (α × List Char)}

theorem Plays.plain_eq (plays : rule.Plays does) : rule.plain = does :=
  funext fun input => plays ⟨input, 0⟩ {}

theorem Plays.steady (plays : rule.Plays does) : rule.Plays rule.plain := by
  rw [plays.plain_eq]
  exact plays

theorem plays_pure (value : α) : (pure value : Rule α).Plays fun input => some (value, input) :=
  fun _ _ => rfl

theorem Plays.bind {later : α → Rule β} {others : α → List Char → Option (β × List Char)}
    (plays : rule.Plays does) (follow : ∀ value, (later value).Plays (others value)) :
    (rule >>= later).Plays fun input =>
      (does input).bind fun (value, rest) => others value rest := by
  intro cursor missed
  show _ = (does cursor.rest).bind _
  rw [← plays cursor missed, outcome, perform_bind, outcome]
  rcases rule.perform cursor missed with ⟨_ | ⟨value, after⟩, noted⟩
  · rfl
  · exact follow value after noted

theorem Plays.orElse {second : Rule α} {other : List Char → Option (α × List Char)}
    (plays : rule.Plays does) (follow : second.Plays other) :
    (rule <|> second).Plays fun input => (does input).or (other input) := by
  intro cursor missed
  show _ = (does cursor.rest).or _
  rw [← plays cursor missed, outcome, perform_orElse, outcome]
  rcases rule.perform cursor missed with ⟨_ | ⟨value, after⟩, noted⟩
  · exact follow cursor noted
  · rfl

/-- A rule may be passed over. -/
theorem Plays.maybe (plays : rule.Plays does) :
    (optional rule).Plays fun input =>
      ((does input).map fun (value, rest) => (some value, rest)).or (some (none, input)) := by
  have found : (some <$> rule).Plays fun input =>
      (does input).bind fun (value, rest) => some (some value, rest) := by
    rw [map_eq_pure_bind]
    exact plays.bind fun value => plays_pure (some value)
  have both := found.orElse (plays_pure none)
  intro cursor missed
  refine (both cursor missed).trans ?_
  simp only
  cases does cursor.rest <;> rfl

end

/-! ## The basic rules -/

theorem drop_length_takeWhile (member : Char → Bool) (input : List Char) :
    input.drop (input.takeWhile member).length = input.dropWhile member := by
  have parts := List.takeWhile_append_dropWhile (p := member) (l := input)
  have dropped := congrArg (List.drop (input.takeWhile member).length) parts
  rw [List.drop_left] at dropped
  exact dropped.symm

theorem plays_takeAll (member : Char → Bool) : (takeAll member).Plays fun input =>
    some (input.takeWhile member, input.dropWhile member) := by
  intro cursor missed
  show some (_, cursor.rest.drop (cursor.rest.takeWhile member).length) = _
  rw [drop_length_takeWhile]

theorem plays_takeSome (member : Char → Bool) (name : String) :
    (takeSome member name).Plays fun input =>
      if input.head?.any member then some (input.takeWhile member, input.dropWhile member)
      else none := by
  intro cursor missed
  show (if cursor.rest.head?.any member then takeAll member else expected name).outcome
    cursor missed = if cursor.rest.head?.any member then _ else _
  split
  · exact plays_takeAll member cursor missed
  · rfl

theorem plays_literal (text : String) : (literal text).Plays fun input =>
    if text.toList.isPrefixOf input then some ((), input.drop text.length) else none := by
  intro cursor missed
  show (if text.toList.isPrefixOf cursor.rest then _ else _ : Rule Unit).outcome
    cursor missed = if text.toList.isPrefixOf cursor.rest then _ else _
  split <;> rfl

theorem plays_note (name : String) : (note name).Plays fun input => some ((), input) :=
  fun _ _ => rfl

theorem plays_blanks :
    blanks.Plays fun input => some ((), input.dropWhile Text.isAsciiBlank) :=
  (plays_takeAll Text.isAsciiBlank).bind fun _ => plays_note "whitespace"

theorem plays_gap : gap.Plays fun input =>
    if input.head?.any Text.isAsciiBlank then some ((), input.dropWhile Text.isAsciiBlank)
    else none := by
  have both := (plays_takeSome Text.isAsciiBlank "whitespace").bind fun _ => plays_note "whitespace"
  intro cursor missed
  refine (both cursor missed).trans ?_
  simp only
  split <;> rfl

theorem plays_accept (value : Option α) (name : String) :
    (accept value name).Plays fun input => value.map (·, input) := by
  cases value <;> exact fun _ _ => rfl

/-! ## Rules that read one word -/

/-- The words of a line. -/
abbrev words (input : List Char) : List String := Text.wordsOf Text.isAsciiBlank input

/-- The text does not start with a blank. -/
abbrev Solid (input : List Char) : Prop := Text.Solid Text.isAsciiBlank input

/-- The text is empty or starts with a blank. -/
abbrev Breaks (rest : List Char) : Prop := Text.Breaks Text.isAsciiBlank rest

/-- The text is a word. -/
def IsWord (word : String) : Prop :=
  word.toList ≠ [] ∧ Text.Unbroken Text.isAsciiBlank word.toList

instance (word : String) : Decidable (IsWord word) :=
  decidable_of_iff (word.toList ≠ [] ∧ word.toList.all (!Text.isAsciiBlank ·) = true)
    (by simp only [IsWord, Text.Unbroken, List.all_eq_true, Bool.not_eq_true'])

/-- The rule reads one of the words that spell a value.  It may find such a word in
front of another one, but it does not overlook one that a blank follows. -/
structure Lexical (rule : Rule α) (spells : String → α → Prop) : Prop where
  plays : rule.Plays rule.plain
  sound {input rest : List Char} {value : α} (reads : rule.plain input = some (value, rest)) :
    ∃ word, input = word.toList ++ rest ∧ spells word value
  complete {word : String} {value : α} {rest : List Char} (spelled : spells word value)
    (breaks : Breaks rest) : rule.plain (word.toList ++ rest) = some (value, rest)
  isWord {word : String} {value : α} (spelled : spells word value) : IsWord word

/-- A word that spells a value stands at the front of the word. -/
def Fronts (spells : String → α → Prop) (first : String) : Prop :=
  ∃ word value, spells word value ∧ word.toList <+: first.toList

section

variable {rule : Rule α} {spells : String → α → Prop} {input rest : List Char} {value : α}

/-- Where a blank follows, a whole word has been read. -/
theorem Lexical.words_eq (lexical : rule.Lexical spells)
    (reads : rule.plain input = some (value, rest)) (breaks : Breaks rest) :
    ∃ word, words input = word :: words rest ∧ spells word value := by
  rcases lexical.sound reads with ⟨word, rfl, spelled⟩
  rcases lexical.isWord spelled with ⟨nonempty, unbroken⟩
  refine ⟨word, ?_, spelled⟩
  rw [words, Text.wordsOf_append nonempty unbroken breaks, String.ofList_toList]

/-- A word that spells a value is read where the text starts with it. -/
theorem Lexical.exists_plain {word : String} {others : List String} (lexical : rule.Lexical spells)
    (solid : Solid input) (split : words input = word :: others) (spelled : spells word value) :
    ∃ rest, rule.plain input = some (value, rest) ∧ Breaks rest ∧ words rest = others := by
  rcases Text.exists_of_wordsOf_cons solid split with ⟨rest, rfl, -, -, breaks, behind⟩
  exact ⟨rest, lexical.complete spelled breaks, breaks, behind⟩

theorem Lexical.refuses (lexical : rule.Lexical spells) (solid : Solid input)
    (lacks : ∀ first ∈ (words input).head?, ¬ Fronts spells first) : rule.plain input = none := by
  cases reads : rule.plain input with
  | none => rfl
  | some result =>
    rcases result with ⟨value, rest⟩
    rcases lexical.sound reads with ⟨word, same, spelled⟩
    rcases lexical.isWord spelled with ⟨nonempty, unbroken⟩
    cases split : words input with
    | nil =>
      rw [Text.eq_nil_of_wordsOf solid split] at same
      exact absurd (List.append_eq_nil_iff.mp same.symm).1 nonempty
    | cons first others =>
      rcases Text.exists_of_wordsOf_cons solid split with ⟨behind, whole, -, -, breaks, -⟩
      have front := Text.prefix_of_append_eq unbroken breaks (same.symm.trans whole)
      rw [split] at lacks
      exact absurd ⟨word, value, spelled, front⟩ (lacks first rfl)

theorem lexical_literal {text : String} (isWord : IsWord text) :
    (literal text).Lexical fun word _ => word = text := by
  have plain_eq := (plays_literal text).plain_eq
  refine ⟨(plays_literal text).steady, ?_, ?_, ?_⟩
  · intro input rest value reads
    rw [plain_eq] at reads
    simp only at reads
    split at reads
    · rename_i front
      rcases List.isPrefixOf_iff_prefix.mp front with ⟨behind, rfl⟩
      rw [← String.length_toList, List.drop_left] at reads
      cases reads
      exact ⟨text, rfl, rfl⟩
    · cases reads
  · rintro word value rest rfl -
    have front : word.toList.isPrefixOf (word.toList ++ rest) = true :=
      List.isPrefixOf_iff_prefix.mpr (List.prefix_append _ _)
    rw [plain_eq]
    simp only [front, if_true]
    rw [← String.length_toList, List.drop_left]
  · rintro word value rfl
    exact isWord

theorem Lexical.congr {other : String → α → Prop} (lexical : rule.Lexical spells)
    (same : ∀ word value, spells word value ↔ other word value) : rule.Lexical other := by
  have equal : spells = other := funext fun word => funext fun value => propext (same word value)
  exact equal ▸ lexical

/-- A rule that reads the same is as good. -/
theorem Lexical.replace {other : Rule α} (lexical : rule.Lexical spells)
    (plays : other.Plays rule.plain) : other.Lexical spells := by
  have same := plays.plain_eq
  refine ⟨plays.steady, ?_, ?_, lexical.isWord⟩
  · intro input rest value reads
    rw [same] at reads
    exact lexical.sound reads
  · intro word value rest spelled breaks
    rw [same]
    exact lexical.complete spelled breaks

/-- What has been read may be converted, or refused after all. -/
theorem Lexical.convert {later : α → Rule β} {conversion : α → Option β}
    (lexical : rule.Lexical spells)
    (follow : ∀ value, (later value).Plays fun input => (conversion value).map (·, input)) :
    (rule >>= later).Lexical fun word result =>
      ∃ value, spells word value ∧ conversion value = some result := by
  have plays := lexical.plays.bind follow
  refine ⟨plays.steady, ?_, ?_, ?_⟩
  · intro input rest result reads
    rw [plays.plain_eq, Option.bind_eq_some_iff] at reads
    rcases reads with ⟨⟨value, behind⟩, reads, converts⟩
    rcases Option.map_eq_some_iff.mp converts with ⟨found, converted, same⟩
    cases same
    rcases lexical.sound reads with ⟨word, same, spelled⟩
    exact ⟨word, same, value, spelled, converted⟩
  · rintro word result rest ⟨value, spelled, converted⟩ breaks
    rw [plays.plain_eq]
    simp only [lexical.complete spelled breaks, Option.bind_some, converted, Option.map_some]
  · rintro word result ⟨value, spelled, -⟩
    exact lexical.isWord spelled

theorem Lexical.map (lexical : rule.Lexical spells) (change : α → β) :
    (rule >>= fun value => pure (change value)).Lexical fun word result =>
      ∃ value, spells word value ∧ change value = result := by
  have follow (value : α) : (pure (change value) : Rule β).Plays fun input =>
      (some (change value)).map (·, input) := plays_pure (change value)
  refine (lexical.convert follow).congr fun word result => ?_
  simp only [Option.some.injEq]

theorem Lexical.accept (lexical : rule.Lexical spells) (conversion : α → Option β)
    (name : String) :
    (rule >>= fun value => accept (conversion value) name).Lexical fun word result =>
      ∃ value, spells word value ∧ conversion value = some result :=
  lexical.convert fun value => plays_accept (conversion value) name

/-- A choice between two rules, if the first finds nothing in the words of the
second. -/
theorem Lexical.orElse {second : Rule α} {others : String → α → Prop}
    (lexical : rule.Lexical spells) (follow : second.Lexical others)
    (apart : ∀ word value, others word value → ¬ Fronts spells word) :
    (rule <|> second).Lexical fun word value => spells word value ∨ others word value := by
  have plays := lexical.plays.orElse follow.plays
  refine ⟨plays.steady, ?_, ?_, ?_⟩
  · intro input rest value reads
    rw [plays.plain_eq, Option.or_eq_some_iff] at reads
    rcases reads with reads | ⟨-, reads⟩
    · rcases lexical.sound reads with ⟨word, same, spelled⟩
      exact ⟨word, same, Or.inl spelled⟩
    · rcases follow.sound reads with ⟨word, same, spelled⟩
      exact ⟨word, same, Or.inr spelled⟩
  · rintro word value rest (spelled | spelled) breaks
    · rw [plays.plain_eq]
      simp only [lexical.complete spelled breaks, Option.some_or]
    · rcases follow.isWord spelled with ⟨nonempty, unbroken⟩
      have split := Text.wordsOf_append nonempty unbroken breaks
      have refused : rule.plain (word.toList ++ rest) = none := by
        refine lexical.refuses (Text.solid_append nonempty unbroken rest) ?_
        rw [words, split, String.ofList_toList]
        rintro first ⟨⟩
        exact apart word value spelled
      rw [plays.plain_eq]
      simp only [refused, Option.none_or, follow.complete spelled breaks]
  · rintro word value (spelled | spelled)
    · exact lexical.isWord spelled
    · exact follow.isWord spelled

/-- A word is a run of characters of a class without blanks, whose first character
belongs to a narrower class. -/
theorem lexical_of_class {lead member : Char → Bool} {wrap : List Char → α}
    (plays : rule.Plays fun input =>
      if input.head?.any lead then some (wrap (input.takeWhile member), input.dropWhile member)
      else none)
    (within : ∀ c, lead c = true → member c = true)
    (unbroken : ∀ c, member c = true → Text.isAsciiBlank c = false) :
    rule.Lexical fun word value => wrap word.toList = value ∧
      word.toList.head?.any lead = true ∧ ∀ c ∈ word.toList, member c = true := by
  refine ⟨plays.steady, ?_, ?_, ?_⟩
  · intro input rest value reads
    rw [plays.plain_eq] at reads
    simp only at reads
    split at reads
    · rename_i leads
      cases reads
      refine ⟨String.ofList (input.takeWhile member), ?_, ?_, ?_, ?_⟩
      · rw [String.toList_ofList, List.takeWhile_append_dropWhile]
      · rw [String.toList_ofList]
      · rw [String.toList_ofList]
        cases input with
        | nil => exact leads
        | cons c more =>
          rw [List.takeWhile_cons_of_pos (within c leads)]
          exact leads
      · rw [String.toList_ofList]
        exact List.all_eq_true.mp List.all_takeWhile
    · cases reads
  · rintro word value rest ⟨rfl, leads, members⟩ breaks
    have ends : rest.takeWhile member = [] ∧ rest.dropWhile member = rest := by
      cases rest with
      | nil => exact ⟨rfl, rfl⟩
      | cons c rest =>
        have outside : ¬ member c = true := by
          intro inside
          cases (breaks c rfl).symm.trans (unbroken c inside)
        exact ⟨List.takeWhile_cons_of_neg outside, List.dropWhile_cons_of_neg outside⟩
    have leads : (word.toList ++ rest).head?.any lead = true := by
      cases chars : word.toList with
      | nil =>
        rw [chars] at leads
        cases leads
      | cons c more =>
        rw [chars] at leads
        exact leads
    rw [plays.plain_eq]
    simp only [leads, if_true, List.takeWhile_append_of_pos members,
      List.dropWhile_append_of_pos members, ends, List.append_nil]
  · rintro word value ⟨-, leads, members⟩
    refine ⟨?_, fun c member => unbroken c (members c member)⟩
    intro empty
    rw [empty] at leads
    cases leads

theorem lexical_takeSome (member : Char → Bool) (name : String)
    (unbroken : ∀ c, member c = true → Text.isAsciiBlank c = false) :
    (takeSome member name).Lexical fun word chars => word.toList = chars ∧
      word.toList.head?.any member = true ∧ ∀ c ∈ word.toList, member c = true :=
  @lexical_of_class _ _ member member id (plays_takeSome member name) (fun _ inside => inside)
    unbroken

end

end Rule
end BranchPipeline
