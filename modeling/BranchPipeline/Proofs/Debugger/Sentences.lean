import BranchPipeline.Proofs.Debugger.Rules

namespace BranchPipeline
namespace Rule

/-!
# Rules that read sentences

A sentence is a sequence of words, and the blanks between them do not matter.  A
rule speaks a language if the sentences that it reads to their end are those of
the language.  Keywords are put in front of a language, and a choice unites two
of them, provided that its first alternative refuses all that is meant for the
second.
-/

variable {α β γ : Type}

/-- From a text without a blank in front, the rule reads the sentences of a language
to their end, and at the barred ones it fails. -/
structure Speaks (rule : Rule α) (language : List String → α → Prop)
    (barred : List String → Prop) : Prop where
  plays : rule.Plays rule.plain
  completes {input : List Char} {value : α} (solid : Solid input) :
    (∃ rest, rule.plain input = some (value, rest) ∧ words rest = []) ↔
      language (words input) value
  refuses {input : List Char} (solid : Solid input) (bars : barred (words input)) :
    rule.plain input = none

section

variable {rule : Rule α} {language : List String → α → Prop} {barred : List String → Prop}
  {spells : String → α → Prop} {input rest : List Char} {value : α}

theorem Speaks.congr {other : List String → α → Prop} {bars : List String → Prop}
    (speaks : rule.Speaks language barred)
    (same : ∀ sentence value, language sentence value ↔ other sentence value)
    (stricter : ∀ sentence, bars sentence → barred sentence) : rule.Speaks other bars where
  plays := speaks.plays
  completes solid := (speaks.completes solid).trans (same _ _)
  refuses solid bars := speaks.refuses solid (stricter _ bars)

theorem Speaks.either {bars : List String → Prop} (one : rule.Speaks language barred)
    (two : rule.Speaks language bars) :
    rule.Speaks language fun sentence => barred sentence ∨ bars sentence where
  plays := one.plays
  completes := one.completes
  refuses solid refused := refused.elim (one.refuses solid) (two.refuses solid)

/-- A sentence of one word. -/
theorem Lexical.speaks (lexical : rule.Lexical spells) :
    rule.Speaks (fun sentence value => ∃ word, sentence = [word] ∧ spells word value)
      fun sentence => ∀ first ∈ sentence.head?, ¬ Fronts spells first where
  plays := lexical.plays
  refuses := lexical.refuses
  completes {input value} solid := by
    constructor
    · rintro ⟨rest, reads, none⟩
      rcases lexical.words_eq reads (Text.breaks_of_wordsOf none) with ⟨word, split, spelled⟩
      rw [none] at split
      exact ⟨word, split, spelled⟩
    · rintro ⟨word, split, spelled⟩
      rcases lexical.exists_plain solid split spelled with ⟨rest, reads, -, none⟩
      exact ⟨rest, reads, none⟩

theorem Speaks.map (speaks : rule.Speaks language barred) (change : α → β) :
    (rule >>= fun value => pure (change value)).Speaks
      (fun sentence result => ∃ value, language sentence value ∧ change value = result) barred := by
  have plays := speaks.plays.bind fun value => plays_pure (change value)
  refine ⟨plays.steady, ?_, ?_⟩
  · intro input result solid
    rw [plays.plain_eq]
    simp only [Option.bind_eq_some_iff, Option.some.injEq, Prod.mk.injEq, Prod.exists]
    constructor
    · rintro ⟨rest, ⟨value, _, reads, rfl, rfl⟩, none⟩
      exact ⟨value, (speaks.completes solid).mp ⟨_, reads, none⟩, rfl⟩
    · rintro ⟨value, spoken, rfl⟩
      rcases (speaks.completes solid).mpr spoken with ⟨rest, reads, none⟩
      exact ⟨rest, ⟨value, rest, reads, rfl, rfl⟩, none⟩
  · intro input solid bars
    rw [plays.plain_eq]
    simp only [speaks.refuses solid bars, Option.bind_none]

/-- A choice speaks both languages if its first alternative refuses the second one. -/
theorem Speaks.orElse {second : Rule α} {others : List String → α → Prop}
    {bars : List String → Prop} (speaks : rule.Speaks language barred)
    (follow : second.Speaks others bars)
    (apart : ∀ sentence value, others sentence value → barred sentence) :
    (rule <|> second).Speaks (fun sentence value => language sentence value ∨ others sentence value)
      fun sentence => barred sentence ∧ bars sentence := by
  have plays := speaks.plays.orElse follow.plays
  refine ⟨plays.steady, ?_, ?_⟩
  · intro input value solid
    rw [plays.plain_eq]
    simp only [Option.or_eq_some_iff]
    constructor
    · rintro ⟨rest, reads | ⟨-, reads⟩, none⟩
      · exact Or.inl ((speaks.completes solid).mp ⟨rest, reads, none⟩)
      · exact Or.inr ((follow.completes solid).mp ⟨rest, reads, none⟩)
    · rintro (spoken | spoken)
      · rcases (speaks.completes solid).mpr spoken with ⟨rest, reads, none⟩
        exact ⟨rest, Or.inl reads, none⟩
      · rcases (follow.completes solid).mpr spoken with ⟨rest, reads, none⟩
        have refused := speaks.refuses solid (apart _ _ spoken)
        exact ⟨rest, Or.inr ⟨refused, reads⟩, none⟩
  · rintro input solid ⟨one, two⟩
    rw [plays.plain_eq]
    simp only [speaks.refuses solid one, follow.refuses solid two, Option.or_none]

/-! ## Keywords -/

/-- Behind a gap a rule reads on where the blanks end. -/
theorem plays_gap_then {body : Rule β} (plays : body.Plays body.plain) :
    (gap >>= fun _ => body).Plays fun input =>
      if input.head?.any Text.isAsciiBlank then body.plain (input.dropWhile Text.isAsciiBlank)
      else none := by
  have both := plays_gap.bind fun _ => plays
  intro cursor missed
  refine (both cursor missed).trans ?_
  simp only
  split <;> rfl

theorem breaks_iff : Breaks rest ↔ rest = [] ∨ rest.head?.any Text.isAsciiBlank = true := by
  cases rest with
  | nil => exact ⟨fun _ => Or.inl rfl, fun _ _ first => nomatch first⟩
  | cons c rest =>
    refine ⟨fun breaks => Or.inr (breaks c rfl), ?_⟩
    rintro (empty | blank) _ ⟨⟩
    · cases empty
    · exact blank

theorem Speaks.completes_gap (speaks : rule.Speaks language barred)
    (needs : ∀ value, ¬ language [] value) :
    (∃ left, (gap >>= fun _ => rule).plain rest = some (value, left) ∧ words left = []) ↔
      Breaks rest ∧ language (words rest) value := by
  have behind : words (rest.dropWhile Text.isAsciiBlank) = words rest :=
    Text.wordsOf_dropWhile _ _
  rw [(plays_gap_then speaks.plays).plain_eq]
  simp only
  split
  · rename_i blank
    rw [speaks.completes (Text.solid_dropWhile _ _), behind]
    exact ⟨fun spoken => ⟨breaks_iff.mpr (Or.inr blank), spoken⟩, And.right⟩
  · rename_i solid
    constructor
    · rintro ⟨left, reads, -⟩
      cases reads
    · rintro ⟨breaks, spoken⟩
      rcases breaks_iff.mp breaks with rfl | blank
      · rw [words, Text.wordsOf_nil] at spoken
        exact absurd spoken (needs value)
      · exact absurd blank solid

theorem Speaks.refuses_gap (speaks : rule.Speaks language barred)
    (bars : Breaks rest → barred (words rest)) : (gap >>= fun _ => rule).plain rest = none := by
  rw [(plays_gap_then speaks.plays).plain_eq]
  simp only
  split
  · rename_i blank
    refine speaks.refuses (Text.solid_dropWhile _ _) ?_
    rw [words, Text.wordsOf_dropWhile]
    exact bars (breaks_iff.mpr (Or.inr blank))
  · rfl

/-- A keyword, blanks and a sentence that may depend on the keyword. -/
theorem Lexical.gap {body : α → Rule β} {languages : α → List String → β → Prop}
    {bars : α → List String → Prop} (lexical : rule.Lexical spells)
    (speaks : ∀ value, (body value).Speaks (languages value) (bars value))
    (needs : ∀ value result, ¬ languages value [] result) :
    (rule >>= fun value => Rule.gap >>= fun _ => body value).Speaks
      (fun sentence result => ∃ keyword value others, sentence = keyword :: others ∧
        spells keyword value ∧ languages value others result)
      fun sentence => ∀ keyword value others, sentence = keyword :: others →
        spells keyword value → bars value others := by
  have plays := lexical.plays.bind fun value => (plays_gap_then (speaks value).plays).steady
  refine ⟨plays.steady, ?_, ?_⟩
  · intro input result solid
    rw [plays.plain_eq]
    simp only [Option.bind_eq_some_iff, Prod.exists]
    constructor
    · rintro ⟨left, ⟨value, rest, reads, continues⟩, none⟩
      rcases ((speaks value).completes_gap (needs value)).mp ⟨left, continues, none⟩
        with ⟨breaks, spoken⟩
      rcases lexical.words_eq reads breaks with ⟨word, split, spelled⟩
      exact ⟨word, value, words rest, split, spelled, spoken⟩
    · rintro ⟨word, value, others, split, spelled, spoken⟩
      rcases lexical.exists_plain solid split spelled with ⟨rest, reads, breaks, rfl⟩
      rcases ((speaks value).completes_gap (needs value)).mpr ⟨breaks, spoken⟩
        with ⟨left, continues, none⟩
      exact ⟨left, ⟨value, rest, reads, continues⟩, none⟩
  · intro input solid barred
    rw [plays.plain_eq]
    simp only [Option.bind_eq_none_iff, Prod.forall]
    intro value rest reads
    refine (speaks value).refuses_gap fun breaks => ?_
    rcases lexical.words_eq reads breaks with ⟨word, split, spelled⟩
    exact barred word value _ split spelled

/-- A word that a sentence may follow. -/
theorem Lexical.maybe {body : Rule β} {language : List String → β → Prop}
    {barred : List String → Prop} (lexical : rule.Lexical spells)
    (speaks : body.Speaks language barred) (needs : ∀ result, ¬ language [] result)
    (bars : barred []) (change : α → Option β → γ) :
    (rule >>= fun value => optional (Rule.gap >>= fun _ => body) >>= fun found =>
      pure (change value found)).Speaks
      (fun sentence result =>
        (∃ word value, sentence = [word] ∧ spells word value ∧ change value none = result) ∨
          ∃ word value others found, sentence = word :: others ∧ spells word value ∧
            language others found ∧ change value (some found) = result)
      fun sentence => ∀ first ∈ sentence.head?, ¬ Fronts spells first := by
  have plays := lexical.plays.bind fun value =>
    (plays_gap_then speaks.plays).steady.maybe.bind fun found => plays_pure (change value found)
  refine ⟨plays.steady, ?_, ?_⟩
  · intro input result solid
    rw [plays.plain_eq]
    simp only [Option.bind_eq_some_iff, Prod.exists, Option.or_eq_some_iff, Option.map_eq_some_iff]
    constructor
    · rintro ⟨left, ⟨value, rest, reads, found, _, chosen, ends⟩, none⟩
      cases ends
      rcases chosen with ⟨found, behind, continues, same⟩ | ⟨-, same⟩
      · cases same
        rcases (speaks.completes_gap needs).mp ⟨_, continues, none⟩ with ⟨breaks, spoken⟩
        rcases lexical.words_eq reads breaks with ⟨word, split, spelled⟩
        exact Or.inr ⟨word, value, words rest, found, split, spelled, spoken, rfl⟩
      · cases same
        rcases lexical.words_eq reads (Text.breaks_of_wordsOf none) with ⟨word, split, spelled⟩
        rw [none] at split
        exact Or.inl ⟨word, value, split, spelled, rfl⟩
    · rintro (⟨word, value, split, spelled, rfl⟩ |
        ⟨word, value, others, found, split, spelled, spoken, rfl⟩)
      · rcases lexical.exists_plain solid split spelled with ⟨rest, reads, breaks, ends⟩
        have refused := speaks.refuses_gap fun _ => (ends ▸ bars : barred (words rest))
        refine ⟨rest, ⟨value, rest, reads, _, rest, Or.inr ⟨?_, rfl⟩, rfl⟩, ends⟩
        rw [refused, Option.map_none]
      · rcases lexical.exists_plain solid split spelled with ⟨rest, reads, breaks, rfl⟩
        rcases (speaks.completes_gap needs).mpr ⟨breaks, spoken⟩ with ⟨left, continues, none⟩
        exact ⟨left, ⟨value, rest, reads, _, left, Or.inl ⟨found, left, continues, rfl⟩, rfl⟩, none⟩
  · intro input solid barred
    rw [plays.plain_eq]
    simp only [lexical.refuses solid barred, Option.bind_none]

end

/-! ## Whole lines -/

section

variable {rule : Rule α} {does : List Char → Option (α × List Char)}

/-- Blanks around what a rule reads. -/
theorem plays_padded (plays : rule.Plays does) (change : α → β) :
    (blanks >>= fun _ => rule >>= fun value => blanks >>= fun _ => pure (change value)).Plays
      fun input => (does (input.dropWhile Text.isAsciiBlank)).map fun (value, rest) =>
        (change value, rest.dropWhile Text.isAsciiBlank) := by
  have chain := plays_blanks.bind fun _ => plays.bind fun value =>
    plays_blanks.bind fun _ => plays_pure (change value)
  intro cursor missed
  refine (chain cursor missed).trans ?_
  simp only [Option.bind_some]
  cases does (cursor.rest.dropWhile Text.isAsciiBlank) <;> rfl

theorem words_eq_nil_iff {rest : List Char} :
    words rest = [] ↔ rest.dropWhile Text.isAsciiBlank = [] := by
  have same : words (rest.dropWhile Text.isAsciiBlank) = words rest := Text.wordsOf_dropWhile _ _
  constructor
  · exact fun none => Text.eq_nil_of_wordsOf (Text.solid_dropWhile _ _) (same.trans none)
  · intro empty
    rw [← same, empty]
    exact Text.wordsOf_nil

theorem parse_eq_ok_iff (plays : rule.Plays does) (line : String) (value : α) :
    rule.parse line = .ok value ↔ does line.toList = some (value, []) := by
  have ends (value : α) : (do if (← get).rest.isEmpty then return value else expected "EOF" :
      Rule α).Plays fun input => if input.isEmpty then some (value, input) else none := by
    intro cursor missed
    show (if cursor.rest.isEmpty then pure value else expected "EOF" : Rule α).outcome
      cursor missed = if cursor.rest.isEmpty then _ else _
    split <;> rfl
  have whole := (plays.bind ends) ⟨line.toList, 0⟩ {}
  rw [outcome, perform] at whole
  simp only [parse]
  revert whole
  generalize (StateT.run (rule >>= _) _).run.run _ = result
  rcases result with ⟨_ | ⟨found, after⟩, noted⟩
  · intro whole
    constructor
    · intro fails
      cases fails
    · intro reads
      simp only [reads, Option.bind_some, List.isEmpty_nil, if_true, Option.map_none] at whole
      cases whole
  · intro whole
    have finds : does line.toList = some (found, []) := by
      rcases Option.bind_eq_some_iff.mp whole.symm with ⟨⟨value, rest⟩, reads, stops⟩
      simp only at stops
      split at stops
      · rename_i empty
        cases stops
        rw [reads, List.isEmpty_iff.mp empty]
      · cases stops
    rw [finds, Option.some.injEq, Prod.mk.injEq, and_iff_left rfl]
    exact ⟨Except.ok.inj, congrArg Except.ok⟩

end

end Rule
end BranchPipeline
