import BranchPipeline.Proofs.Debugger.Sentences

namespace BranchPipeline
namespace Rule

/-!
# Sentences known by their first words

In most choices the first word of a sentence decides which alternative is meant.
A rule then needs no other description of what it refuses than the words that its
sentences start with, and whether two rules may stand one after the other is a
question about two lists of words.
-/

variable {α β : Type}

section

variable {rule : Rule α} {language : List String → α → Prop} {barred : List String → Prop}
  {spells : String → α → Prop} {value : α} {leads more : List String}

/-- None of the given words stands at the front of the first word. -/
def Avoids (leads : List String) (sentence : List String) : Prop :=
  ∀ first ∈ sentence.head?, ∀ lead ∈ leads, ¬ lead.toList <+: first.toList

/-- None of the leading words stands at the front of one of the others. -/
def Clear (leads more : List String) : Prop :=
  ∀ word ∈ more, ∀ lead ∈ leads, ¬ lead.toList <+: word.toList

instance (leads more : List String) : Decidable (Clear leads more) :=
  inferInstanceAs (Decidable (∀ word ∈ more, ∀ lead ∈ leads, ¬ lead.toList <+: word.toList))

/-- Every sentence starts with one of a few words, and a text that starts with none of
them is refused. -/
structure Led (rule : Rule α) (language : List String → α → Prop) (leads : List String) :
    Prop where
  speaks : rule.Speaks language (Avoids leads)
  starts {sentence : List String} {value : α} (spoken : language sentence value) :
    ∃ lead ∈ leads, sentence.head? = some lead

theorem Avoids.not_mem {first : String} {others : List String}
    (avoids : Avoids leads (first :: others)) : first ∉ leads :=
  fun listed => avoids first rfl first listed List.prefix_rfl

theorem Led.mem_of_cons {first : String} {others : List String} (led : rule.Led language leads)
    (spoken : language (first :: others) value) : first ∈ leads := by
  rcases led.starts spoken with ⟨lead, listed, same⟩
  cases same
  exact listed

/-- The sentences of a rule avoid words that stand at the front of none of its own. -/
theorem Led.avoids {sentence : List String} (led : rule.Led language more)
    (spoken : language sentence value)
    (clear : Clear leads more) :
    Avoids leads sentence := by
  intro first leading
  rcases led.starts spoken with ⟨word, listed, starts⟩
  cases Option.some.inj (starts.symm.trans leading)
  exact clear first listed

/-- More first words may be allowed. -/
theorem Led.widen (led : rule.Led language leads) (within : ∀ lead ∈ leads, lead ∈ more) :
    rule.Led language more where
  speaks := led.speaks.congr (fun _ _ => Iff.rfl) fun _ avoids first leading lead listed =>
    avoids first leading lead (within lead listed)
  starts spoken := by
    rcases led.starts spoken with ⟨lead, listed, starts⟩
    exact ⟨lead, within lead listed, starts⟩

theorem Led.congr {other : List String → α → Prop} (led : rule.Led language leads)
    (same : ∀ sentence value, language sentence value ↔ other sentence value) :
    rule.Led other leads where
  speaks := led.speaks.congr same fun _ avoids => avoids
  starts spoken := led.starts ((same _ _).mpr spoken)

theorem Led.map (led : rule.Led language leads) (change : α → β) :
    (rule >>= fun value => pure (change value)).Led
      (fun sentence result => ∃ value, language sentence value ∧ change value = result) leads where
  speaks := led.speaks.map change
  starts := fun ⟨_, spoken, _⟩ => led.starts spoken

/-- A word of a finite kind. -/
theorem Lexical.led (lexical : rule.Lexical spells)
    (listed : ∀ word value, spells word value → word ∈ leads) :
    rule.Led (fun sentence value => ∃ word, sentence = [word] ∧ spells word value) leads where
  speaks := lexical.speaks.congr (fun _ _ => Iff.rfl) fun _ avoids first leading => by
    rintro ⟨word, value, spelled, front⟩
    exact avoids first leading word (listed word value spelled) front
  starts := by
    rintro _ value ⟨word, rfl, spelled⟩
    exact ⟨word, listed word value spelled, rfl⟩

/-- A choice, if the first alternative refuses the sentences of the second one, for
whatever reason. -/
theorem Led.before {second : Rule α} {others : List String → α → Prop}
    (led : rule.Led language leads) (speaks : rule.Speaks language barred)
    (follow : second.Led others more)
    (apart : ∀ sentence value, others sentence value → barred sentence) :
    (rule <|> second).Led (fun sentence value => language sentence value ∨ others sentence value)
      (leads ++ more) where
  speaks := by
    have both := (led.speaks.either speaks).orElse follow.speaks
      fun sentence value spoken => Or.inr (apart sentence value spoken)
    refine both.congr (fun _ _ => Iff.rfl) fun sentence avoids => ⟨Or.inl ?_, ?_⟩
    · exact fun first leading lead listed =>
        avoids first leading lead (List.mem_append_left more listed)
    · exact fun first leading lead listed =>
        avoids first leading lead (List.mem_append_right leads listed)
  starts := by
    rintro sentence value (spoken | spoken)
    · rcases led.starts spoken with ⟨lead, listed, starts⟩
      exact ⟨lead, List.mem_append_left more listed, starts⟩
    · rcases follow.starts spoken with ⟨lead, listed, starts⟩
      exact ⟨lead, List.mem_append_right leads listed, starts⟩

/-- A choice, if no first word of the first alternative stands at the front of one of
the second. -/
theorem Led.orElse {second : Rule α} {others : List String → α → Prop}
    (led : rule.Led language leads) (follow : second.Led others more)
    (clear : Clear leads more) :
    (rule <|> second).Led (fun sentence value => language sentence value ∨ others sentence value)
      (leads ++ more) :=
  led.before led.speaks follow fun _ _ spoken => follow.avoids spoken clear

end

/-! ## Shapes of sentences -/

section

variable {keyword : Rule Unit} {body : Rule β} {language : List String → β → Prop}
  {barred : List String → Prop} {keys : List String}

/-- A keyword that says everything. -/
theorem led_keyword (lexical : keyword.Lexical fun word _ => word ∈ keys) (value : α) :
    (keyword >>= fun _ => pure value).Led
      (fun sentence result => ∃ key ∈ keys, sentence = [key] ∧ result = value) keys := by
  refine ((lexical.led fun word _ listed => listed).map fun _ => value).congr ?_
  intro sentence result
  constructor
  · rintro ⟨_, ⟨key, rfl, listed⟩, rfl⟩
    exact ⟨key, listed, rfl, rfl⟩
  · rintro ⟨key, listed, rfl, rfl⟩
    exact ⟨(), ⟨key, rfl, listed⟩, rfl⟩

/-- A keyword in front of a sentence. -/
theorem speaks_then (lexical : keyword.Lexical fun word _ => word ∈ keys)
    (speaks : body.Speaks language barred) (needs : ∀ result, ¬ language [] result) :
    (keyword >>= fun _ => gap >>= fun _ => body).Speaks
      (fun sentence result => ∃ key ∈ keys, ∃ others, sentence = key :: others ∧
        language others result)
      fun sentence => ∀ key ∈ keys, ∀ others, sentence = key :: others → barred others := by
  refine (lexical.gap (fun _ => speaks) fun _ => needs).congr (fun sentence result => ?_) ?_
  · constructor
    · rintro ⟨key, _, others, rfl, listed, spoken⟩
      exact ⟨key, listed, others, rfl, spoken⟩
    · rintro ⟨key, listed, others, rfl, spoken⟩
      exact ⟨key, (), others, rfl, listed, spoken⟩
  · intro sentence refused key _ others same listed
    exact refused key listed others same

theorem led_then (lexical : keyword.Lexical fun word _ => word ∈ keys)
    (speaks : body.Speaks language barred) (needs : ∀ result, ¬ language [] result) :
    (keyword >>= fun _ => gap >>= fun _ => body).Led
      (fun sentence result => ∃ key ∈ keys, ∃ others, sentence = key :: others ∧
        language others result) keys where
  speaks := by
    refine (speaks_then lexical speaks needs).congr (fun _ _ => Iff.rfl) ?_
    rintro _ avoids key listed others rfl
    exact absurd listed avoids.not_mem
  starts := by
    rintro _ result ⟨key, listed, others, rfl, -⟩
    exact ⟨key, listed, rfl⟩

/-- A keyword in front of a sentence, before sentences that may have the same keyword
or one with the same beginning. -/
theorem led_then_orElse {second : Rule β} {others : List String → β → Prop} {leads : List String}
    (lexical : keyword.Lexical fun word _ => word ∈ keys) (speaks : body.Speaks language barred)
    (needs : ∀ result, ¬ language [] result) (follow : second.Led others leads)
    (apart : ∀ key ∈ keys, ∀ rest value, others (key :: rest) value → barred rest) :
    ((keyword >>= fun _ => gap >>= fun _ => body) <|> second).Led
      (fun sentence result => (∃ key ∈ keys, ∃ others, sentence = key :: others ∧
        language others result) ∨ others sentence result) (keys ++ leads) := by
  refine (led_then lexical speaks needs).before (speaks_then lexical speaks needs) follow ?_
  rintro _ value spoken key listed rest rfl
  exact apart key listed rest value spoken

/-- A keyword in front of one word. -/
theorem led_word {rule : Rule α} {spells : String → α → Prop}
    (lexical : keyword.Lexical fun word _ => word ∈ keys) (follow : rule.Lexical spells)
    (change : α → β) :
    (keyword >>= fun _ => gap >>= fun _ => rule >>= fun value => pure (change value)).Led
      (fun sentence result => ∃ key ∈ keys, ∃ word value, sentence = [key, word] ∧
        spells word value ∧ result = change value) keys := by
  refine (led_then lexical (follow.speaks.map change) ?_).congr ?_
  · rintro result ⟨value, ⟨word, none, -⟩, -⟩
    cases none
  · intro sentence result
    constructor
    · rintro ⟨key, listed, _, rfl, value, ⟨word, rfl, spelled⟩, rfl⟩
      exact ⟨key, listed, word, value, rfl, spelled, rfl⟩
    · rintro ⟨key, listed, word, value, rfl, spelled, rfl⟩
      exact ⟨key, listed, _, rfl, value, ⟨word, rfl, spelled⟩, rfl⟩

/-- A keyword that may be followed by a sentence. -/
theorem led_maybe (lexical : keyword.Lexical fun word _ => word ∈ keys)
    (speaks : body.Speaks language barred) (needs : ∀ result, ¬ language [] result)
    (bars : barred []) (change : Option β → α) :
    (keyword >>= fun _ => optional (gap >>= fun _ => body) >>= fun found =>
      pure (change found)).Led
      (fun sentence result => (∃ key ∈ keys, sentence = [key] ∧ result = change none) ∨
        ∃ key ∈ keys, ∃ others found, sentence = key :: others ∧ language others found ∧
          result = change (some found)) keys where
  speaks := by
    refine (lexical.maybe speaks needs bars fun _ found => change found).congr ?_ ?_
    · intro sentence result
      constructor
      · rintro (⟨key, _, rfl, listed, rfl⟩ | ⟨key, _, others, found, rfl, listed, spoken, rfl⟩)
        · exact Or.inl ⟨key, listed, rfl, rfl⟩
        · exact Or.inr ⟨key, listed, others, found, rfl, spoken, rfl⟩
      · rintro (⟨key, listed, rfl, rfl⟩ | ⟨key, listed, others, found, rfl, spoken, rfl⟩)
        · exact Or.inl ⟨key, (), rfl, listed, rfl⟩
        · exact Or.inr ⟨key, (), others, found, rfl, listed, spoken, rfl⟩
    · rintro sentence avoids first leading ⟨key, _, listed, front⟩
      exact avoids first leading key listed front
  starts := by
    rintro _ result (⟨key, listed, rfl, -⟩ | ⟨key, listed, others, found, rfl, -⟩)
    · exact ⟨key, listed, rfl⟩
    · exact ⟨key, listed, rfl⟩

end

end Rule
end BranchPipeline
