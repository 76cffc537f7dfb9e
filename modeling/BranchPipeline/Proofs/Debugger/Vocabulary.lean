import BranchPipeline.Debugger.Command
import BranchPipeline.Proofs.Debugger.Rules

namespace BranchPipeline
namespace Command

open Rule

/-!
# The words of the command language

Besides its keywords the language has counts, in one or two notations, register
names, the names of micro-operations and words that may be anything.  Each kind is
described without regard to the rules, and the rule for it reads this kind.
-/

/-- The characters are the digits of a number, most significant digit first. -/
def Writes (radix : Nat) (digit? : Char → Option Nat) (chars : List Char) (number : Nat) : Prop :=
  ∃ digits, digits ≠ [] ∧ chars.map digit? = digits.map some ∧ Text.ofDigits radix digits = number

/-- A decimal count of at most 64 bits. -/
def Counts (word : String) (number : Nat) : Prop :=
  Writes 10 Text.decimalDigit? word.toList number ∧ number < Text.countBound

/-- A hexadecimal count of at most 64 bits. -/
def CountsHexadecimal (word : String) (number : Nat) : Prop :=
  ∃ mark digits, word.toList = '0' :: mark :: digits ∧ (mark = 'x' ∨ mark = 'X') ∧
    Writes 16 Text.hexDigit? digits number ∧ number < Text.countBound

/-- A count in either notation. -/
def CountsEither (word : String) (number : Nat) : Prop :=
  CountsHexadecimal word number ∨ Counts word number

/-- The name of a micro-operation, whatever the case of its letters. -/
def NamesOpcode (word : String) (opcode : MicroOpcode) : Prop :=
  word.toList.map Char.toUpper = opcode.name.toList

/-- A register name with a width letter, which may be left out at full width. -/
def NamesRegister (word : String) (ref : RegisterRef) : Prop :=
  word = ref.register.name.push ref.width.suffix ∨
    word = ref.register.name ∧ ref.width = .quad

/-! ## Numerals -/

section

variable {radix number : Nat} {digit? : Char → Option Nat} {chars : List Char}

theorem digits?_eq_some_iff {digits : List Nat} :
    Text.digits? digit? chars = some digits ↔ chars.map digit? = digits.map some := by
  induction chars generalizing digits with
  | nil =>
    cases digits with
    | nil => exact ⟨fun _ => rfl, fun _ => rfl⟩
    | cons digit digits => exact ⟨nofun, nofun⟩
  | cons c chars inductionHypothesis =>
    simp only [Text.digits?, Option.bind_eq_bind, Option.bind_eq_some_iff, Option.some.injEq]
    constructor
    · rintro ⟨digit, first, more, behind, rfl⟩
      rw [List.map_cons, List.map_cons, first, inductionHypothesis.mp behind]
    · intro same
      cases digits with
      | nil => cases same
      | cons digit digits =>
        rw [List.map_cons, List.map_cons, List.cons.injEq] at same
        exact ⟨digit, same.1, digits, inductionHypothesis.mpr same.2, rfl⟩

theorem natural?_eq_some_iff :
    Text.natural? radix digit? chars = some number ↔ Writes radix digit? chars number := by
  rw [Text.natural?]
  constructor
  · intro reads
    split at reads
    · cases reads
    · rename_i nonempty
      rcases Option.map_eq_some_iff.mp reads with ⟨digits, same, value⟩
      rw [digits?_eq_some_iff] at same
      refine ⟨digits, ?_, same, value⟩
      rintro rfl
      rw [List.map_nil, List.map_eq_nil_iff] at same
      exact nonempty (List.isEmpty_iff.mpr same)
  · rintro ⟨digits, nonempty, same, value⟩
    have filled : ¬ chars.isEmpty = true := by
      intro empty
      rw [List.isEmpty_iff.mp empty, List.map_nil] at same
      exact nonempty (List.map_eq_nil_iff.mp same.symm)
    rw [if_neg filled, digits?_eq_some_iff.mpr same, Option.map_some, value]

theorem fitting_natural?_eq_some_iff :
    (Text.natural? radix digit? chars >>= Text.fitting?) = some number ↔
      Writes radix digit? chars number ∧ number < Text.countBound := by
  have fits (read : Nat) :
      Text.fitting? read = some number ↔ read = number ∧ number < Text.countBound := by
    rw [Text.fitting?]
    split
    · rename_i small
      rw [Option.some.injEq]
      exact ⟨fun same => ⟨same, same ▸ small⟩, And.left⟩
    · rename_i large
      exact ⟨nofun, fun ⟨same, small⟩ => absurd (same ▸ small) large⟩
  simp only [Option.bind_eq_bind, Option.bind_eq_some_iff, fits, natural?_eq_some_iff]
  constructor
  · rintro ⟨read, writes, rfl, small⟩
    exact ⟨writes, small⟩
  · rintro ⟨writes, small⟩
    exact ⟨number, writes, rfl, small⟩

theorem Writes.members (writes : Writes radix digit? chars number) :
    ∀ c ∈ chars, (digit? c).isSome = true := by
  rcases writes with ⟨digits, -, same, -⟩
  intro c member
  have listed : digit? c ∈ chars.map digit? := List.mem_map_of_mem member
  rw [same] at listed
  rcases List.mem_map.mp listed with ⟨digit, -, found⟩
  rw [← found]
  rfl

theorem Writes.leads (writes : Writes radix digit? chars number) :
    chars.head?.any (fun c => (digit? c).isSome) = true := by
  have members := writes.members
  rcases writes with ⟨digits, nonempty, same, -⟩
  cases chars with
  | nil => exact absurd (List.map_eq_nil_iff.mp same.symm) nonempty
  | cons c chars => exact members c List.mem_cons_self

end

/-! ## Counts -/

/-- A run of digits that is read as a count. -/
theorem lexical_digits (radix : Nat) {digit? : Char → Option Nat} (missing wrong : String)
    (excluded : [' ', '\t', '\r', '\n'].any (fun c => (digit? c).isSome) = false) :
    (takeSome (fun c => (digit? c).isSome) missing >>= fun digits =>
      accept (Text.natural? radix digit? digits >>= Text.fitting?) wrong).Lexical
      fun word number => Writes radix digit? word.toList number ∧ number < Text.countBound := by
  have run := lexical_takeSome (fun c => (digit? c).isSome) missing
    (Text.isAsciiBlank_eq_false excluded)
  refine (run.accept _ wrong).congr fun word number => ?_
  simp only [fitting_natural?_eq_some_iff]
  constructor
  · rintro ⟨_, ⟨rfl, -, -⟩, written⟩
    exact written
  · intro written
    exact ⟨_, ⟨rfl, written.1.leads, written.1.members⟩, written⟩

theorem lexical_count : count.Lexical Counts :=
  lexical_digits 10 "usize" "number fitting in usize" (by decide)

theorem plays_quietly (member : Char → Bool) : (quietly member).Plays fun input =>
    match input with
    | c :: rest => if member c then some (c, rest) else none
    | [] => none := by
  rintro ⟨_ | ⟨c, rest⟩, offset⟩ missed
  · rfl
  · show (if member c then _ else _ : Rule Char).outcome _ missed = if member c then _ else _
    split <;> rfl

/-- One character of a class in front of a word. -/
theorem lexical_behind {α : Type} {rule : Rule α} {spells : String → α → Prop}
    (lexical : rule.Lexical spells) (member : Char → Bool)
    (excluded : [' ', '\t', '\r', '\n'].any member = false) :
    (quietly member >>= fun _ => rule).Lexical fun word value =>
      ∃ c other, word.toList = c :: other.toList ∧ member c = true ∧ spells other value := by
  have plays := (plays_quietly member).bind fun _ => lexical.plays
  refine ⟨plays.steady, ?_, ?_, ?_⟩
  · intro input rest value reads
    rw [plays.plain_eq] at reads
    rcases Option.bind_eq_some_iff.mp reads with ⟨⟨c, behind⟩, takes, reads⟩
    rcases lexical.sound reads with ⟨other, rfl, spelled⟩
    cases input with
    | nil => cases takes
    | cons d more =>
      simp only at takes
      split at takes
      · rename_i inside
        cases takes
        refine ⟨String.ofList (c :: other.toList), ?_, c, other, ?_, inside, spelled⟩
        · rw [String.toList_ofList]
          rfl
        · rw [String.toList_ofList]
      · cases takes
  · rintro word value rest ⟨c, other, same, inside, spelled⟩ breaks
    rw [plays.plain_eq, same]
    simp only [List.cons_append, inside, if_true, Option.bind_some,
      lexical.complete spelled breaks]
  · rintro word value ⟨c, other, same, inside, spelled⟩
    rw [IsWord, same]
    refine ⟨List.cons_ne_nil c _, fun d listed => ?_⟩
    rcases List.mem_cons.mp listed with rfl | listed
    · exact Text.isAsciiBlank_eq_false excluded d inside
    · exact (lexical.isWord spelled).2 d listed

/-- The first digit is taken on its own, which makes no difference. -/
theorem lexical_hexDigits :
    (quietly isHexDigit >>= fun first => takeAll isHexDigit >>= fun digits =>
      accept (Text.natural? 16 Text.hexDigit? (first :: digits) >>= Text.fitting?)
        "hexadecimal").Lexical
      fun word number =>
        Writes 16 Text.hexDigit? word.toList number ∧ number < Text.countBound := by
  have whole := (plays_takeSome isHexDigit "").bind fun digits =>
    plays_accept (Text.natural? 16 Text.hexDigit? digits >>= Text.fitting?) "hexadecimal"
  have apart := (plays_quietly isHexDigit).bind fun first =>
    (plays_takeAll isHexDigit).bind fun digits =>
      plays_accept (Text.natural? 16 Text.hexDigit? (first :: digits) >>= Text.fitting?)
        "hexadecimal"
  refine (lexical_digits 16 "" "hexadecimal" (by decide)).replace fun cursor missed => ?_
  refine (apart cursor missed).trans (Eq.trans ?_ (congrFun whole.plain_eq.symm cursor.rest))
  cases cursor.rest with
  | nil => rfl
  | cons c rest =>
    by_cases inside : isHexDigit c = true
    · simp only [inside, if_true, Option.bind_some, List.head?_cons, Option.any_some,
        List.takeWhile_cons_of_pos, List.dropWhile_cons_of_pos]
    · simp only [Bool.not_eq_true _ ▸ inside, List.head?_cons, Option.any_some, Bool.false_eq_true,
        if_false, Option.bind_none]

theorem lexical_hexadecimal : hexadecimal.Lexical CountsHexadecimal := by
  have marked := lexical_behind (lexical_behind lexical_hexDigits
    (fun c => c == 'x' || c == 'X') (by decide)) (· == '0') (by decide)
  refine marked.congr fun word number => ?_
  constructor
  · rintro ⟨zero, other, same, isZero, mark, digits, behind, isMark, written⟩
    cases beq_iff_eq.mp isZero
    rw [Bool.or_eq_true, beq_iff_eq, beq_iff_eq] at isMark
    exact ⟨mark, digits.toList, by rw [same, behind], isMark, written⟩
  · rintro ⟨mark, digits, same, isMark, written⟩
    refine ⟨'0', String.ofList (mark :: digits), ?_, rfl, mark, String.ofList digits, ?_, ?_, ?_⟩
    · rw [String.toList_ofList, same]
    · rw [String.toList_ofList, String.toList_ofList]
    · rw [Bool.or_eq_true, beq_iff_eq, beq_iff_eq]
      exact isMark
    · rw [String.toList_ofList]
      exact written

theorem lexical_anyCount : anyCount.Lexical CountsEither := by
  refine lexical_hexadecimal.orElse lexical_count ?_
  rintro word _ ⟨written, -⟩ ⟨front, _, ⟨mark, digits, same, isMark, -⟩, more, split⟩
  have inside : mark ∈ word.toList := by
    rw [← split, same]
    exact List.mem_append_left more (List.mem_cons_of_mem _ List.mem_cons_self)
  have digit := written.members mark inside
  rcases isMark with rfl | rfl <;> cases digit

theorem lexical_address : address.Lexical fun word cell => CountsEither word cell.index := by
  refine (lexical_anyCount.map Address.mk).congr fun word cell => ?_
  constructor
  · rintro ⟨number, counts, rfl⟩
    exact counts
  · intro counts
    exact ⟨cell.index, counts, rfl⟩

/-! ## Names and free words -/

theorem lexical_word : word.Lexical fun word value => word = value ∧ IsWord word := by
  have run := (lexical_takeSome (fun c => !Text.isAsciiBlank c) "word"
    fun c inside => (Bool.not_eq_true' _).mp inside).map String.ofList
  refine run.congr fun word value => ?_
  constructor
  · rintro ⟨_, ⟨rfl, leads, members⟩, rfl⟩
    rw [String.ofList_toList]
    refine ⟨rfl, ?_, fun c member => (Bool.not_eq_true' _).mp (members c member)⟩
    intro empty
    rw [empty] at leads
    cases leads
  · rintro ⟨rfl, nonempty, unbroken⟩
    refine ⟨_, ⟨rfl, ?_, fun c member => ?_⟩, String.ofList_toList⟩
    · cases chars : word.toList with
      | nil => exact absurd chars nonempty
      | cons c rest =>
        rw [chars] at unbroken
        exact (Bool.not_eq_true' _).mpr (unbroken c List.mem_cons_self)
    · exact (Bool.not_eq_true' _).mpr (unbroken c member)

theorem lexical_identifier : identifier.Lexical fun word name => word = name ∧
    word.toList.head?.any Char.isAlpha = true ∧ ∀ c ∈ word.toList, c.isAlphanum = true := by
  have plays : identifier.Plays fun input =>
      if input.head?.any Char.isAlpha then
        some (String.ofList (input.takeWhile Char.isAlphanum), input.dropWhile Char.isAlphanum)
      else none := by
    intro cursor missed
    show (if cursor.rest.head?.any Char.isAlpha then _ else _ : Rule String).outcome cursor missed =
      if cursor.rest.head?.any Char.isAlpha then _ else _
    split
    · exact (plays_takeAll Char.isAlphanum).bind (fun _ => plays_pure _) cursor missed
    · rfl
  refine (lexical_of_class plays ?_ (Text.isAsciiBlank_eq_false (by decide))).congr ?_
  · intro c alpha
    rw [Char.isAlphanum, alpha, Bool.true_or]
  · intro word name
    rw [String.ofList_toList]

/-- A word of letters is an identifier. -/
theorem identifies_of_alpha {word : String} (nonempty : word.toList ≠ [])
    (letters : ∀ c ∈ word.toList, c.isAlpha = true) :
    word.toList.head?.any Char.isAlpha = true ∧ ∀ c ∈ word.toList, c.isAlphanum = true := by
  refine ⟨?_, fun c member => ?_⟩
  · cases chars : word.toList with
    | nil => exact absurd chars nonempty
    | cons c rest =>
      rw [chars] at letters
      exact letters c List.mem_cons_self
  · rw [Char.isAlphanum, letters c member, Bool.true_or]

theorem isAlpha_of_toUpper {c : Char} (upper : c.toUpper.isAlpha = true) : c.isAlpha = true := by
  unfold Char.toUpper at upper
  split at upper
  · rename_i lower
    have isLower : c.isLower = true :=
      (Bool.and_eq_true _ _).mpr ⟨decide_eq_true lower.1, decide_eq_true lower.2⟩
    exact (Bool.or_eq_true _ _).mpr (Or.inr isLower)
  · exact upper

theorem named?_eq_some_iff {word : String} {opcode : MicroOpcode} :
    MicroOpcode.named? word = some opcode ↔ NamesOpcode word opcode := by
  constructor
  · intro found
    have same := List.find?_some found
    exact (beq_iff_eq.mp same).symm
  · intro names
    rw [MicroOpcode.named?, names]
    cases opcode <;> rfl

theorem lexical_opcode : opcode.Lexical NamesOpcode := by
  refine (lexical_identifier.accept MicroOpcode.named? "micro-opcode").congr fun word opcode => ?_
  simp only [named?_eq_some_iff]
  constructor
  · rintro ⟨_, ⟨rfl, -⟩, names⟩
    exact names
  · intro names
    refine ⟨word, ⟨rfl, identifies_of_alpha ?_ fun c member => isAlpha_of_toUpper ?_⟩, names⟩
    · intro empty
      rw [NamesOpcode, empty] at names
      cases opcode <;> cases names
    · have listed : c.toUpper ∈ opcode.name.toList := names ▸ List.mem_map_of_mem member
      have letters : opcode.name.toList.all Char.isAlpha = true := by cases opcode <;> decide
      exact List.all_eq_true.mp letters _ listed

theorem mem_registers (register : Register) : register ∈ Register.all := by
  cases register <;> decide

theorem ofSuffix?_eq_some_iff {c : Char} {width : Width} :
    Width.ofSuffix? c = some width ↔ c = width.suffix := by
  constructor
  · intro stands
    unfold Width.ofSuffix? at stands
    split at stands <;> cases stands <;> rfl
  · rintro rfl
    cases width <;> rfl

theorem read?_eq_some_iff {word : String} {ref : RegisterRef} :
    RegisterRef.read? word = some ref ↔ NamesRegister word ref := by
  constructor
  · intro reads
    have named {name : String} {register : Register}
        (found : Register.named? name = some register) : name = register.name := by
      have same := List.find?_some found
      exact (beq_iff_eq.mp same).symm
    rw [RegisterRef.read?] at reads
    split at reads
    · rename_i register found
      cases reads
      exact Or.inr ⟨named found, rfl⟩
    · simp only [Option.bind_eq_bind, Option.bind_eq_some_iff, Option.some.injEq] at reads
      rcases reads with ⟨last, ends, width, stands, register, found, rfl⟩
      have letter : last = width.suffix := ofSuffix?_eq_some_iff.mp stands
      rcases List.getLast?_eq_some_iff.mp ends with ⟨front, whole⟩
      refine Or.inl (String.toList_inj.mp ?_)
      rw [String.toList_push, ← named found, String.toList_ofList, ← letter, whole,
        List.dropLast_concat]
  · have read : ∀ register ∈ Register.all,
        RegisterRef.read? register.name = some ⟨register, .quad⟩ ∧
          ∀ width ∈ [Width.byte, .word, .long, .quad],
            RegisterRef.read? (register.name.push width.suffix) = some ⟨register, width⟩ := by
      decide +kernel
    rcases ref with ⟨register, width⟩
    rcases read register (mem_registers register) with ⟨full, narrowed⟩
    rintro (rfl | ⟨rfl, rfl⟩)
    · exact narrowed width (by cases width <;> decide)
    · exact full

/-- All words that name a register. -/
def registerWords : List String :=
  Register.all.flatMap fun register =>
    [register.name, register.name.push 'b', register.name.push 'w', register.name.push 'l',
      register.name.push 'q']

theorem mem_registerWords {word : String} {ref : RegisterRef} (names : NamesRegister word ref) :
    word ∈ registerWords := by
  rcases ref with ⟨register, width⟩
  refine List.mem_flatMap.mpr ⟨register, mem_registers register, ?_⟩
  rcases names with rfl | ⟨rfl, -⟩
  · cases width <;> simp only [Width.suffix, List.mem_cons, true_or, or_true]
  · exact List.mem_cons_self

/-- A register name is an identifier, also with its width letter. -/
theorem NamesRegister.identifies {word : String} {ref : RegisterRef}
    (names : NamesRegister word ref) :
    word.toList.head?.any Char.isAlpha = true ∧ ∀ c ∈ word.toList, c.isAlphanum = true := by
  have identify : ∀ word ∈ registerWords, word.toList.head?.any Char.isAlpha = true ∧
      word.toList.all Char.isAlphanum = true := by decide +kernel
  rcases identify word (mem_registerWords names) with ⟨leads, members⟩
  exact ⟨leads, List.all_eq_true.mp members⟩

theorem lexical_register : register.Lexical NamesRegister := by
  refine (lexical_identifier.accept RegisterRef.read? "register name").congr fun word ref => ?_
  simp only [read?_eq_some_iff]
  constructor
  · rintro ⟨_, ⟨rfl, -⟩, names⟩
    exact names
  · intro names
    exact ⟨word, ⟨rfl, names.identifies⟩, names⟩

/-! ## Keywords -/

theorem lexical_keyword (text : String) (isWord : IsWord text) :
    (literal text).Lexical fun word _ => word ∈ [text] :=
  (lexical_literal isWord).congr fun _ _ => List.mem_singleton.symm

theorem lexical_spelled (first second : String)
    (valid : IsWord first ∧ IsWord second ∧ ¬ first.toList <+: second.toList) :
    (spelled first second).Lexical fun word _ => word ∈ [first, second] := by
  rcases valid with ⟨one, two, apart⟩
  refine ((lexical_literal one).orElse (lexical_literal two) ?_).congr fun word _ => ?_
  · rintro word _ rfl ⟨front, _, rfl, within⟩
    exact apart within
  · rw [List.mem_cons, List.mem_singleton]

end Command
end BranchPipeline
