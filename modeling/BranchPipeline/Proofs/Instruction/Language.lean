import BranchPipeline.Proofs.Instruction.OperandWords

namespace BranchPipeline
namespace Instruction

open Operand (Reads Role)

/-!
# The language of instructions

The instructions are listed with what they expand into, and the mistakes with
the order in which they are looked for.  Expanding a text does exactly what these
lists say about its words: a text is refused for one of the mistakes, or it is an
instruction and has the group of it.

Everything is read off one table, which gives each mnemonic the places for its
operands and the steps that it makes of them.
-/

/-! ## The instructions -/

/-- The instructions as lists of words, with the operands that are written in them
and the steps that they expand into. -/
inductive Sentence : List String → List Operand → List (MicroOpcode × Option Operand) → Prop
  | move {first second : String} {target source : Operand} (destination : Reads first target)
      (writable : target.isWritable = true) (reads : Reads second source) :
      Sentence ["mov", first, second] [target, source]
        [(.load, some source), (.store, some target)]
  | compare {first second : String} {left right : Operand} (reads : Reads first left)
      (readsToo : Reads second right) :
      Sentence ["cmp", first, second] [left, right]
        [(.load, some right), (.compare, some left)]
  | increment {word : String} {target : Operand} (destination : Reads word target)
      (writable : target.isWritable = true) :
      Sentence ["inc", word] [target]
        [(.load, some target), (.add, some (.immediate 1)), (.store, some target)]
  | decrement {word : String} {target : Operand} (destination : Reads word target)
      (writable : target.isWritable = true) :
      Sentence ["dec", word] [target]
        [(.load, some target), (.subtract, some (.immediate 1)), (.store, some target)]
  | systemCall : Sentence ["syscall"] [] [(.systemCall, none)]
  | idle {name : String} (spelled : name = "noop" ∨ name = "nop") :
      Sentence [name] [] [(.idle, none)]
  | jump {word : String} {target : Operand} (condition : Condition) (reads : Reads word target) :
      Sentence ["j" ++ condition.suffix, word] [target]
        [(.load, some target), (.jump, some (.condition condition))]

/-- The narrowest width among register operands, and the full one without any. -/
def Narrowest (operands : List Operand) (width : Width) : Prop :=
  (width = .quad ∨ ∃ ref, .register ref ∈ operands ∧ ref.width = width) ∧
    ∀ ref, .register ref ∈ operands → width.bytes ≤ ref.width.bytes

/-! ## The table of mnemonics -/

namespace Mnemonic

/-- How a mnemonic is spelled. -/
inductive Names : Mnemonic → String → Prop
  | move : Names .move "mov"
  | compare : Names .compare "cmp"
  | increment : Names .increment "inc"
  | decrement : Names .decrement "dec"
  | systemCall : Names .systemCall "syscall"
  | noop : Names .idle "noop"
  | nop : Names .idle "nop"
  | jump (condition : Condition) : Names (.jump condition) ("j" ++ condition.suffix)

/-- The places for the operands of a mnemonic. -/
def roles : Mnemonic → List Role
  | .move => [.destination, .source]
  | .compare => [.source, .source]
  | .increment | .decrement => [.destination]
  | .jump _ => [.source]
  | .systemCall | .idle => []

/-- What a mnemonic makes of its operands. -/
def steps : Mnemonic → List Operand → List (MicroOpcode × Option Operand)
  | .move, [target, source] => [(.load, some source), (.store, some target)]
  | .compare, [left, right] => [(.load, some right), (.compare, some left)]
  | .increment, [target] =>
    [(.load, some target), (.add, some (.immediate 1)), (.store, some target)]
  | .decrement, [target] =>
    [(.load, some target), (.subtract, some (.immediate 1)), (.store, some target)]
  | .jump condition, [target] =>
    [(.load, some target), (.jump, some (.condition condition))]
  | .systemCall, _ => [(.systemCall, none)]
  | .idle, _ => [(.idle, none)]
  | _, _ => []

theorem ofSuffix?_eq_some_iff {suffix : String} {condition : Condition} :
    Condition.ofSuffix? suffix = some condition ↔ suffix = condition.suffix := by
  constructor
  · intro found
    have same := List.find?_some found
    exact (beq_iff_eq.mp same).symm
  · rintro rfl
    cases condition <;> decide

theorem named?_eq_some_iff {name : String} {mnemonic : Mnemonic} :
    named? name = some mnemonic ↔ mnemonic.Names name := by
  constructor
  · intro found
    unfold named? at found
    split at found
    case h_8 =>
      rcases Option.map_eq_some_iff.mp found with ⟨condition, jumps, rfl⟩
      unfold jumpCondition? at jumps
      split at jumps
      · rename_i suffix stripped
        have spelled := Text.stripLead_eq_some_iff.mp stripped
        have same : name = "j" ++ condition.suffix := by
          rw [← ofSuffix?_eq_some_iff.mp jumps, ← String.toList_inj, spelled, String.toList_append,
            @String.toList_ofList suffix]
          rfl
        rw [same]
        exact .jump condition
      · cases jumps
    all_goals
      cases found
      constructor
  · intro names
    cases names with
    | jump condition => cases condition <;> decide
    | _ => rfl

theorem Names.unique {name : String} {one two : Mnemonic} (first : one.Names name)
    (second : two.Names name) : one = two :=
  Option.some.inj
    ((named?_eq_some_iff.mpr first).symm.trans (named?_eq_some_iff.mpr second))

end Mnemonic

section

variable {name word : String} {tokens : List String} {operands : List Operand}
  {mnemonic : Mnemonic} {steps : List (MicroOpcode × Option Operand)} {fault : DecodeFault}
  {roles : List Role}

/-! ## Operands in their places -/

/-- Reads words for operands in their places, from left to right. -/
def readAll : List Role → List String → Except DecodeFault (List Operand)
  | role :: roles, word :: words => do
    let operand ← role.read word
    let others ← readAll roles words
    return operand :: others
  | _, _ => .ok []

/-- The words are written for operands that can stand in these places. -/
inductive Accepted : List Role → List String → List Operand → Prop
  | nil : Accepted [] [] []
  | cons {role : Role} {word : String} {operand : Operand} {roles : List Role}
      {words : List String} {operands : List Operand} (accepts : role.Accepts word operand)
      (others : Accepted roles words operands) :
      Accepted (role :: roles) (word :: words) (operand :: operands)

/-- The first of the words, from the left, that is refused in its place. -/
inductive Refused : List Role → List String → DecodeFault → Prop
  | here {role : Role} {word : String} {roles : List Role} {words : List String}
      {fault : DecodeFault} (refuses : role.Refuses word fault) :
      Refused (role :: roles) (word :: words) fault
  | later {role : Role} {word : String} {operand : Operand} {roles : List Role}
      {words : List String} {fault : DecodeFault} (accepts : role.Accepts word operand)
      (others : Refused roles words fault) : Refused (role :: roles) (word :: words) fault

theorem Accepted.length_eq (accepted : Accepted roles tokens operands) :
    tokens.length = roles.length := by
  induction accepted with
  | nil => rfl
  | cons accepts others inductionHypothesis => exact congrArg (· + 1) inductionHypothesis

theorem readAll_eq_ok_iff (counted : tokens.length = roles.length) :
    readAll roles tokens = .ok operands ↔ Accepted roles tokens operands := by
  induction roles generalizing tokens operands with
  | nil =>
    rcases List.length_eq_zero_iff.mp counted with rfl
    constructor
    · rintro ⟨⟩
      exact .nil
    · rintro ⟨⟩
      rfl
  | cons role roles inductionHypothesis =>
    rcases List.exists_cons_of_length_eq_add_one counted with ⟨word, words, rfl⟩
    have fewer : words.length = roles.length := Nat.succ.inj counted
    rw [readAll, bind_eq_ok_iff]
    simp only [bind_eq_ok_iff, Role.read_eq_ok_iff, inductionHypothesis fewer]
    constructor
    · rintro ⟨operand, accepts, others, accepted, ⟨⟩⟩
      exact .cons accepts accepted
    · rintro (_ | ⟨accepts, accepted⟩)
      exact ⟨_, accepts, _, accepted, rfl⟩

theorem readAll_eq_error_iff (counted : tokens.length = roles.length) :
    readAll roles tokens = .error fault ↔ Refused roles tokens fault := by
  induction roles generalizing tokens with
  | nil =>
    rcases List.length_eq_zero_iff.mp counted with rfl
    exact ⟨nofun, nofun⟩
  | cons role roles inductionHypothesis =>
    rcases List.exists_cons_of_length_eq_add_one counted with ⟨word, words, rfl⟩
    have fewer : words.length = roles.length := Nat.succ.inj counted
    constructor
    · intro failed
      cases outcome : role.read word with
      | error found =>
        rw [readAll, outcome] at failed
        cases failed
        exact .here (Role.read_eq_error_iff.mp outcome)
      | ok operand =>
        rw [readAll, outcome] at failed
        cases rest : readAll roles words with
        | error found =>
          rw [rest] at failed
          cases failed
          exact .later (Role.read_eq_ok_iff.mp outcome) ((inductionHypothesis fewer).mp rest)
        | ok others =>
          rw [rest] at failed
          cases failed
    · rintro (refuses | ⟨accepts, others⟩)
      · rw [readAll, Role.read_eq_error_iff.mpr refuses]
        rfl
      · rw [readAll, Role.read_eq_ok_iff.mpr accepts, (inductionHypothesis fewer).mpr others]
        rfl

theorem readAll_singleton {α : Type} (role : Role) (word : String) (finish : List Operand → α) :
    (readAll [role] [word]).map finish = do
      let operand ← role.read word
      return finish [operand] := by
  rw [readAll]
  cases role.read word <;> rfl

theorem readAll_pair {α : Type} (one two : Role) (first second : String)
    (finish : List Operand → α) :
    (readAll [one, two] [first, second]).map finish = do
      let operand ← one.read first
      let other ← two.read second
      return finish [operand, other] := by
  rw [readAll, readAll]
  cases one.read first with
  | error fault => rfl
  | ok operand => cases two.read second <;> rfl

/-- What a mnemonic does with any words: it counts them, reads them from left to
right in their places, and makes a group of its steps. -/
theorem expandOperands_eq (name : String) (mnemonic : Mnemonic) (tokens : List String)
    (speculative : Bool) :
    expandOperands name mnemonic tokens speculative =
      if tokens.length = mnemonic.roles.length then
        (readAll mnemonic.roles tokens).map fun operands =>
          group operands speculative (mnemonic.steps operands)
      else .error (.operandCount name mnemonic.roles.length tokens.length) := by
  cases mnemonic with
  | move =>
    match tokens with
    | [first, second] =>
      rw [Mnemonic.roles, if_pos (by rfl), readAll_pair]
      rfl
    | [] | [_] | _ :: _ :: _ :: _ => rfl
  | compare =>
    match tokens with
    | [first, second] =>
      rw [Mnemonic.roles, if_pos (by rfl), readAll_pair]
      rfl
    | [] | [_] | _ :: _ :: _ :: _ => rfl
  | increment =>
    match tokens with
    | [word] =>
      rw [Mnemonic.roles, if_pos (by rfl), readAll_singleton]
      rfl
    | [] | _ :: _ :: _ => rfl
  | decrement =>
    match tokens with
    | [word] =>
      rw [Mnemonic.roles, if_pos (by rfl), readAll_singleton]
      rfl
    | [] | _ :: _ :: _ => rfl
  | jump condition =>
    match tokens with
    | [word] =>
      rw [Mnemonic.roles, if_pos (by rfl), readAll_singleton]
      rfl
    | [] | _ :: _ :: _ => rfl
  | systemCall | idle => cases tokens <;> rfl

/-! ## Sentences and mistakes -/

/-- Each sentence is a mnemonic with operands in its places. -/
theorem sentence_iff :
    Sentence (name :: tokens) operands steps ↔
      ∃ mnemonic, Mnemonic.Names mnemonic name ∧ Accepted mnemonic.roles tokens operands ∧
        steps = mnemonic.steps operands := by
  constructor
  · intro sentence
    cases sentence with
    | move destination writable reads =>
      exact ⟨.move, .move, .cons ⟨destination, fun _ => writable⟩
        (.cons ⟨reads, nofun⟩ .nil), rfl⟩
    | compare reads readsToo =>
      exact ⟨.compare, .compare, .cons ⟨reads, nofun⟩ (.cons ⟨readsToo, nofun⟩ .nil), rfl⟩
    | increment destination writable =>
      exact ⟨.increment, .increment, .cons ⟨destination, fun _ => writable⟩ .nil, rfl⟩
    | decrement destination writable =>
      exact ⟨.decrement, .decrement, .cons ⟨destination, fun _ => writable⟩ .nil, rfl⟩
    | systemCall => exact ⟨.systemCall, .systemCall, .nil, rfl⟩
    | idle spelled =>
      rcases spelled with rfl | rfl
      · exact ⟨.idle, .noop, .nil, rfl⟩
      · exact ⟨.idle, .nop, .nil, rfl⟩
    | jump condition reads =>
      exact ⟨.jump condition, .jump condition, .cons ⟨reads, nofun⟩ .nil, rfl⟩
  · rintro ⟨mnemonic, names, accepted, rfl⟩
    cases names with
    | move =>
      rcases accepted with _ | ⟨⟨destination, writable⟩, _ | ⟨⟨reads, -⟩, ⟨⟩⟩⟩
      exact .move destination (writable rfl) reads
    | compare =>
      rcases accepted with _ | ⟨⟨reads, -⟩, _ | ⟨⟨readsToo, -⟩, ⟨⟩⟩⟩
      exact .compare reads readsToo
    | increment =>
      rcases accepted with _ | ⟨⟨destination, writable⟩, ⟨⟩⟩
      exact .increment destination (writable rfl)
    | decrement =>
      rcases accepted with _ | ⟨⟨destination, writable⟩, ⟨⟩⟩
      exact .decrement destination (writable rfl)
    | systemCall =>
      rcases accepted with ⟨⟩
      exact .systemCall
    | noop =>
      rcases accepted with ⟨⟩
      exact .idle (Or.inl rfl)
    | nop =>
      rcases accepted with ⟨⟩
      exact .idle (Or.inr rfl)
    | jump condition =>
      rcases accepted with _ | ⟨⟨reads, -⟩, ⟨⟩⟩
      exact .jump condition reads

/-- What can be wrong with the words of an instruction, in the order in which it is
looked for: the mnemonic, the number of operands, and the first operand that is
refused. -/
inductive Mistake : List String → DecodeFault → Prop
  | mnemonic {name : String} {tokens : List String}
      (unknown : ∀ mnemonic, ¬ Mnemonic.Names mnemonic name) :
      Mistake (name :: tokens) (.invalidOpcode name)
  | count {name : String} {tokens : List String} {mnemonic : Mnemonic}
      (names : mnemonic.Names name) (miscounted : tokens.length ≠ mnemonic.roles.length) :
      Mistake (name :: tokens) (.operandCount name mnemonic.roles.length tokens.length)
  | operand {name : String} {tokens : List String} {mnemonic : Mnemonic} {fault : DecodeFault}
      (names : mnemonic.Names name) (counted : tokens.length = mnemonic.roles.length)
      (refused : Refused mnemonic.roles tokens fault) : Mistake (name :: tokens) fault

theorem narrower_cases (first second : Width) :
    (first.narrower second = first ∨ first.narrower second = second) ∧
      (first.narrower second).bytes ≤ first.bytes ∧
      (first.narrower second).bytes ≤ second.bytes := by
  unfold Width.narrower
  split
  · rename_i less
    exact ⟨Or.inl rfl, Nat.le_refl _, less⟩
  · rename_i greater
    exact ⟨Or.inr rfl, Nat.le_of_not_le greater, Nat.le_refl _⟩

theorem foldl_narrower (start : Width) (widths : List Width) :
    (widths.foldl Width.narrower start = start ∨ widths.foldl Width.narrower start ∈ widths) ∧
      (widths.foldl Width.narrower start).bytes ≤ start.bytes ∧
      ∀ width ∈ widths, (widths.foldl Width.narrower start).bytes ≤ width.bytes := by
  induction widths generalizing start with
  | nil => exact ⟨Or.inl rfl, Nat.le_refl _, nofun⟩
  | cons width widths inductionHypothesis =>
    rcases narrower_cases start width with ⟨chosen, below, under⟩
    rcases inductionHypothesis (start.narrower width) with ⟨result, least, all⟩
    rw [List.foldl_cons]
    refine ⟨?_, Nat.le_trans least below, ?_⟩
    · rcases result with same | listed
      · rw [same]
        refine chosen.imp_right fun second => ?_
        rw [second]
        exact List.mem_cons_self
      · exact Or.inr (List.mem_cons_of_mem _ listed)
    · intro other member
      rcases List.mem_cons.mp member with rfl | member
      · exact Nat.le_trans least under
      · exact all other member

/-- The width of a group is the narrowest. -/
theorem narrowest_groupWidth (operands : List Operand) :
    Narrowest operands (groupWidth operands) := by
  have asked (width : Width) : width ∈ operands.filterMap Operand.width? ↔
      ∃ ref, .register ref ∈ operands ∧ ref.width = width := by
    rw [List.mem_filterMap]
    constructor
    · rintro ⟨operand, member, asks⟩
      cases operand with
      | register ref => exact ⟨ref, member, Option.some.inj asks⟩
      | memory | immediate | condition => cases asks
    · rintro ⟨ref, member, rfl⟩
      exact ⟨_, member, rfl⟩
  rcases foldl_narrower .quad (operands.filterMap Operand.width?) with ⟨result, -, least⟩
  refine ⟨result.imp_right (asked _).mp, fun ref member => ?_⟩
  exact least ref.width ((asked _).mpr ⟨ref, member, rfl⟩)

theorem Narrowest.bytes_le {one two : Width} (first : Narrowest operands one)
    (second : Narrowest operands two) : one.bytes ≤ two.bytes := by
  rcases second.1 with rfl | ⟨ref, member, rfl⟩
  · cases one <;> decide
  · exact first.2 ref member

theorem Narrowest.unique {one two : Width} (first : Narrowest operands one)
    (second : Narrowest operands two) : one = two := by
  have same := Nat.le_antisymm (first.bytes_le second) (second.bytes_le first)
  cases one <;> cases two <;> first | rfl | cases same

/-! ## Expanding -/

theorem expandWords_of_named {first text : String} {speculative : Bool}
    (named : Mnemonic.named? (first.map Char.toLower) = some mnemonic) :
    expandWords text speculative (first :: tokens) =
      expandOperands (first.map Char.toLower) mnemonic tokens speculative := by
  rw [expandWords, named]

theorem expandWords_of_unknown {first text : String} {speculative : Bool}
    (unknown : Mnemonic.named? (first.map Char.toLower) = none) :
    expandWords text speculative (first :: tokens) =
      .error (.invalidOpcode (first.map Char.toLower)) := by
  rw [expandWords, unknown]

theorem expandOperands_eq_ok_iff {speculative : Bool} {group : List MicroOp} :
    expandOperands name mnemonic tokens speculative = .ok group ↔
      ∃ operands, Accepted mnemonic.roles tokens operands ∧
        Instruction.group operands speculative (mnemonic.steps operands) = group := by
  rw [expandOperands_eq]
  constructor
  · intro expanded
    split at expanded
    · rename_i counted
      cases outcome : readAll mnemonic.roles tokens with
      | error fault =>
        rw [outcome] at expanded
        cases expanded
      | ok operands =>
        rw [outcome] at expanded
        exact ⟨operands, (readAll_eq_ok_iff counted).mp outcome, Except.ok.inj expanded⟩
    · cases expanded
  · rintro ⟨operands, accepted, rfl⟩
    rw [if_pos accepted.length_eq, (readAll_eq_ok_iff accepted.length_eq).mpr accepted]
    rfl

theorem expandOperands_eq_error_iff {speculative : Bool} (names : mnemonic.Names name) :
    expandOperands name mnemonic tokens speculative = .error fault ↔
      Mistake (name :: tokens) fault := by
  rw [expandOperands_eq]
  constructor
  · intro refused
    split at refused
    · rename_i counted
      cases outcome : readAll mnemonic.roles tokens with
      | error found =>
        rw [outcome] at refused
        cases refused
        exact .operand names counted ((readAll_eq_error_iff counted).mp outcome)
      | ok operands =>
        rw [outcome] at refused
        cases refused
    · rename_i miscounted
      cases refused
      exact .count names miscounted
  · intro mistake
    cases mistake with
    | mnemonic unknown => exact absurd names (unknown mnemonic)
    | count others miscounted =>
      cases names.unique others
      rw [if_neg miscounted]
    | operand others counted refused =>
      cases names.unique others
      rw [if_pos counted, (readAll_eq_error_iff counted).mpr refused]
      rfl

theorem expandWords_eq_ok_iff {first text : String} {speculative : Bool} {group : List MicroOp} :
    expandWords text speculative (first :: tokens) = .ok group ↔
      ∃ operands steps width, Sentence (first.map Char.toLower :: tokens) operands steps ∧
        Narrowest operands width ∧
        group = steps.map fun step => ⟨step.1, step.2, width, speculative⟩ := by
  constructor
  · intro expanded
    cases named : Mnemonic.named? (first.map Char.toLower) with
    | none =>
      rw [expandWords_of_unknown named] at expanded
      cases expanded
    | some mnemonic =>
      rw [expandWords_of_named named, expandOperands_eq_ok_iff] at expanded
      rcases expanded with ⟨operands, accepted, rfl⟩
      have names := Mnemonic.named?_eq_some_iff.mp named
      exact ⟨operands, _, _, sentence_iff.mpr ⟨mnemonic, names, accepted, rfl⟩,
        narrowest_groupWidth operands, rfl⟩
  · rintro ⟨operands, steps, width, sentence, narrowest, rfl⟩
    rcases sentence_iff.mp sentence with ⟨mnemonic, names, accepted, rfl⟩
    rw [expandWords_of_named (Mnemonic.named?_eq_some_iff.mpr names), expandOperands_eq_ok_iff,
      narrowest.unique (narrowest_groupWidth operands)]
    exact ⟨operands, accepted, rfl⟩

theorem expandWords_eq_error_iff {first text : String} {speculative : Bool} :
    expandWords text speculative (first :: tokens) = .error fault ↔
      Mistake (first.map Char.toLower :: tokens) fault := by
  cases named : Mnemonic.named? (first.map Char.toLower) with
  | some mnemonic =>
    rw [expandWords_of_named named]
    exact expandOperands_eq_error_iff (Mnemonic.named?_eq_some_iff.mp named)
  | none =>
    have unknown (mnemonic : Mnemonic) : ¬ mnemonic.Names (first.map Char.toLower) := by
      rw [← Mnemonic.named?_eq_some_iff, named]
      exact nofun
    rw [expandWords_of_unknown named]
    constructor
    · rintro ⟨⟩
      exact .mnemonic unknown
    · intro mistake
      cases mistake with
      | mnemonic _ => rfl
      | count names _ => exact absurd names (unknown _)
      | operand names _ _ => exact absurd names (unknown _)

/-- The language of instructions.  A text is an instruction exactly if its words,
the first of them in lowercase, are a sentence.  Its group then consists of the
steps of the sentence, at most as many as the longest group has; each step has
the narrowest width that a register among the operands asks for, and the mark.
Every other text with a word is refused for the first mistake in its words, and a
text without any is refused as a whole.  So texts that have the same words, if
they have any, expand alike, and the case of the first word makes no difference. -/
theorem expands_language (text : String) (speculative : Bool) :
    (∀ group, expand text speculative = .ok group ↔
      ∃ first tokens operands steps width,
        Text.words isSeparator text = first :: tokens ∧
        Sentence (first.map Char.toLower :: tokens) operands steps ∧
        Narrowest operands width ∧
        group = steps.map fun step => ⟨step.1, step.2, width, speculative⟩) ∧
    (∀ group, expand text speculative = .ok group → group.length ≤ maxGroupLength) ∧
    (∀ fault, expand text speculative = .error fault ↔
      (Text.words isSeparator text = [] ∧ fault = .invalidOpcode text) ∨
      ∃ first tokens, Text.words isSeparator text = first :: tokens ∧
        Mistake (first.map Char.toLower :: tokens) fault) ∧
    (∀ other first second tokens, Text.words isSeparator text = first :: tokens →
      Text.words isSeparator other = second :: tokens →
      second.map Char.toLower = first.map Char.toLower →
      expand other speculative = expand text speculative) := by
  refine ⟨fun group => ?_, fun group expanded => length_le expanded, fun fault => ?_, ?_⟩
  · rw [expand]
    cases words : Text.words isSeparator text with
    | nil =>
      constructor
      · rintro ⟨⟩
      · rintro ⟨first, tokens, operands, steps, width, ⟨⟩, -⟩
    | cons first tokens =>
      rw [expandWords_eq_ok_iff]
      constructor
      · rintro ⟨operands, steps, width, meaning⟩
        exact ⟨first, tokens, operands, steps, width, rfl, meaning⟩
      · rintro ⟨_, _, operands, steps, width, ⟨⟩, meaning⟩
        exact ⟨operands, steps, width, meaning⟩
  · rw [expand]
    cases words : Text.words isSeparator text with
    | nil =>
      constructor
      · rintro ⟨⟩
        exact Or.inl ⟨rfl, rfl⟩
      · rintro (⟨-, rfl⟩ | ⟨first, tokens, ⟨⟩, -⟩)
        rfl
    | cons first tokens =>
      rw [expandWords_eq_error_iff]
      constructor
      · intro mistake
        exact Or.inr ⟨first, tokens, rfl, mistake⟩
      · rintro (⟨⟨⟩, -⟩ | ⟨_, _, ⟨⟩, mistake⟩)
        exact mistake
  · intro other first second tokens words otherWords same
    rw [expand, expand, words, otherWords]
    cases named : Mnemonic.named? (first.map Char.toLower) with
    | none => rw [expandWords_of_unknown named, expandWords_of_unknown (same ▸ named), same]
    | some mnemonic =>
      rw [expandWords_of_named named, expandWords_of_named (same ▸ named), same]

/-- A text without any word is quoted as it is, so its separators do matter. -/
theorem wordless_texts_differ :
    Text.words isSeparator "" = Text.words isSeparator "," ∧
      expand "" false ≠ expand "," false := by
  refine ⟨by decide, fun same => ?_⟩
  have empty : expand "" false = .error (.invalidOpcode "") := rfl
  have comma : expand "," false = .error (.invalidOpcode ",") := rfl
  rw [empty, comma] at same
  exact absurd (DecodeFault.invalidOpcode.inj (Except.error.inj same)) (by decide)

end

end Instruction
end BranchPipeline
