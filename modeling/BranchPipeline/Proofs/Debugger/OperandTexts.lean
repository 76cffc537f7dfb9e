import BranchPipeline.Proofs.Debugger.Language
import BranchPipeline.Proofs.Instruction.Language
import BranchPipeline.Proofs.Json.Number

namespace BranchPipeline

/-!
# Operands as text

The debugger shows the operand of a micro-operation as a text, and a breakpoint
waits for such a text.  Four readers and writers meet there: the words of an
instruction, the operands that they are read for, the text of an operand, and
the words of a debugger line.

They agree because an operand's text is again a word that is written for this
operand, although perhaps not the word that it was read from: a literal loses
its plus sign and its leading zeros, a register name the letter of the full
width.
-/

open Rule (IsWord)
open Command (NamesRegister Writes)

/-! ## Integers -/

namespace Text

theorem writes_toDigits (number : Nat) :
    Writes 10 decimalDigit? (Nat.toDigits 10 number) number := by
  refine ⟨(Nat.toDigits 10 number).map Json.digitValue, ?_, ?_, Json.ofDigits_digitValue number⟩
  · intro none
    exact Nat.toDigits_ne_nil (List.map_eq_nil_iff.mp none)
  · rw [List.map_map]
    apply List.map_congr_left
    intro c member
    exact Json.decimalDigit?_of_isDigit (Json.isDigit_of_mem_toDigits number c member)

/-- An integer is written in decimal digits, behind a sign if it is negative. -/
theorem integral_toString (number : Int) : Integral (toString number).toList number := by
  cases number with
  | ofNat number =>
    rw [Json.toList_toString_ofNat]
    exact .bare (writes_toDigits number)
  | negSucc number =>
    rw [Json.toList_toString_negSucc]
    exact .minus (writes_toDigits (number + 1))

/-- A digit is no blank, and neither is a sign. -/
theorem Integral.unbroken {chars : List Char} {number : Int} (integral : Integral chars number) :
    Unbroken isAsciiBlank chars := by
  have blankless : [' ', '\t', '\r', '\n'].any (fun c => (decimalDigit? c).isSome) = false := by
    decide
  have digits {chars : List Char} {number : Nat} (writes : Writes 10 decimalDigit? chars number) :
      Unbroken isAsciiBlank chars := fun c member =>
    isAsciiBlank_eq_false blankless c (writes.members c member)
  cases integral with
  | bare writes => exact digits writes
  | plus writes | minus writes =>
    intro c member
    rcases List.mem_cons.mp member with rfl | member
    · rfl
    · exact digits writes c member

end Text

/-! ## The text of an operand -/

namespace Operand

variable {word : String} {operand : Operand}

theorem reads_immediate (value : Int64) : Reads (immediate value).text (immediate value) :=
  .immediate (Text.integral_toString value.toInt)

/-- A register is named by its text, without a letter at full width. -/
theorem names_text (ref : RegisterRef) : NamesRegister ref.text ref := by
  rcases ref with ⟨register, width⟩
  cases width with
  | quad => exact Or.inr ⟨rfl, rfl⟩
  | byte | word | long => exact Or.inl rfl

/-- What a word is written for can be read off its own text too. -/
theorem Reads.of_text (reads : Reads word operand) : Reads operand.text operand := by
  cases reads with
  | memory nonempty bracketed => exact .memory nonempty rfl
  | immediate literal => exact reads_immediate _
  | register names => exact .register (names_text _)

/-- The text of an operand is a single word of a debugger line, if the operand was
written as a single word. -/
theorem Reads.isWord (reads : Reads word operand) (isWord : IsWord word) : IsWord operand.text := by
  cases reads with
  | memory nonempty bracketed =>
    rw [text, ← bracketed]
    exact isWord
  | @immediate value literal =>
    have digits := Text.integral_toString value.toInt
    refine ⟨fun empty => ?_, digits.unbroken⟩
    have leads := digits.leads
    rw [text] at empty
    rw [empty] at leads
    cases leads
  | @register ref names =>
    rcases (names_text ref).identifies with ⟨leads, members⟩
    refine ⟨fun empty => ?_, fun c member => ?_⟩
    · rw [text] at empty
      rw [empty] at leads
      cases leads
    · have blankless : [' ', '\t', '\r', '\n'].any Char.isAlphanum = false := by decide
      exact Text.isAsciiBlank_eq_false blankless c (members c member)

theorem isWord_suffix (met : Condition) : IsWord (condition met).text := by
  cases met <;> decide

end Operand

/-! ## The operands of an instruction -/

namespace Instruction

open Operand (Reads)

/-- The operands of the steps of an instruction: a condition, the one that a counter
moves by, or what one of its words is written for. -/
inductive Source (tokens : List String) : Operand → Prop
  | condition (met : Condition) : Source tokens (.condition met)
  | unit : Source tokens (.immediate 1)
  | word {word : String} {operand : Operand} (listed : word ∈ tokens)
      (reads : Reads word operand) : Source tokens operand

theorem source_of_sentence {name : String} {tokens : List String} {operands : List Operand}
    {steps : List (MicroOpcode × Option Operand)}
    (sentence : Sentence (name :: tokens) operands steps) :
    ∀ operand ∈ steps.filterMap Prod.snd, Source tokens operand := by
  have first {word : String} {others : List String} {operand : Operand}
      (reads : Reads word operand) : Source (word :: others) operand :=
    .word List.mem_cons_self reads
  have second {word other : String} {operand : Operand} (reads : Reads word operand) :
      Source [other, word] operand :=
    .word (List.mem_cons_of_mem other List.mem_cons_self) reads
  cases sentence with
  | move destination writable reads =>
    exact List.forall_mem_cons.mpr ⟨second reads, List.forall_mem_singleton.mpr (first destination)⟩
  | compare reads readsToo =>
    exact List.forall_mem_cons.mpr ⟨second readsToo, List.forall_mem_singleton.mpr (first reads)⟩
  | increment destination writable | decrement destination writable =>
    exact List.forall_mem_cons.mpr ⟨first destination,
      List.forall_mem_cons.mpr ⟨.unit, List.forall_mem_singleton.mpr (first destination)⟩⟩
  | systemCall | idle spelled => exact nofun
  | jump condition reads =>
    exact List.forall_mem_cons.mpr ⟨first reads,
      List.forall_mem_singleton.mpr (.condition condition)⟩

/-- The words of an instruction are words of a debugger line as well. -/
theorem isWord_of_mem_words {text word : String} (listed : word ∈ Text.words isSeparator text) :
    IsWord word := by
  rcases Text.unbroken_of_mem_wordsOf listed with ⟨nonempty, unbroken⟩
  refine ⟨nonempty, fun c member => ?_⟩
  cases blank : Text.isAsciiBlank c with
  | false => rfl
  | true =>
    have inside := unbroken c member
    rw [isSeparator, Text.isBlank_of_isAsciiBlank c blank] at inside
    cases inside

section

variable {text : String} {speculative : Bool} {group : List MicroOp} {op : MicroOp}
  {operand : Operand}

theorem source_of_mem (expanded : expand text speculative = .ok group) (member : op ∈ group)
    (named : op.operand = some operand) :
    ∃ tokens, Source tokens operand ∧ ∀ word ∈ tokens, IsWord word := by
  rw [expand] at expanded
  cases words : Text.words isSeparator text with
  | nil =>
    rw [words] at expanded
    cases expanded
  | cons first tokens =>
    rw [words, expandWords_eq_ok_iff] at expanded
    rcases expanded with ⟨operands, steps, width, sentence, -, rfl⟩
    rcases List.mem_map.mp member with ⟨⟨opcode, acted⟩, listed, rfl⟩
    cases named
    have named : operand ∈ steps.filterMap Prod.snd := List.mem_filterMap.mpr ⟨_, listed, rfl⟩
    refine ⟨tokens, source_of_sentence sentence operand named, fun word behind => ?_⟩
    have listed : word ∈ Text.words isSeparator text := by
      rw [words]
      exact List.mem_cons_of_mem first behind
    exact isWord_of_mem_words listed

end

end Instruction

/-! ## Breakpoints on operands -/

namespace Command

/-- A word behind `break operand` is waited for, whatever blanks follow it. -/
theorem read_break_operand {word : String} (isWord : IsWord word) {blanks : String}
    (blank : ∀ c ∈ blanks.toList, Text.isAsciiBlank c = true) :
    read ("break operand " ++ word ++ blanks) = .ok (.addBreakpoint (.operand word)) := by
  have split : Text.words Text.isAsciiBlank ("break operand " ++ word ++ blanks) =
      ["break", "operand", word] := by
    have whole : ("break operand " ++ word ++ blanks).toList = "break".toList ++
        (' ' :: ("operand".toList ++ (' ' :: (word.toList ++ blanks.toList)))) := by
      rw [String.toList_append, String.toList_append, List.append_assoc]
      rfl
    have spaced (rest : List Char) : Text.Breaks Text.isAsciiBlank (' ' :: rest) := by
      intro c first
      cases first
      rfl
    have ended : Text.Breaks Text.isAsciiBlank blanks.toList := by
      intro c first
      exact blank c (List.mem_of_mem_head? first)
    have breakWord : IsWord "break" := by decide
    have operandWord : IsWord "operand" := by decide
    rw [Text.words, ← Text.wordsOf, whole,
      Text.wordsOf_append breakWord.1 breakWord.2 (spaced _), Text.wordsOf_separator rfl,
      Text.wordsOf_append operandWord.1 operandWord.2 (spaced _), Text.wordsOf_separator rfl,
      Text.wordsOf_append isWord.1 isWord.2 ended, Text.wordsOf_of_all blank,
      String.ofList_toList, String.ofList_toList, String.ofList_toList]
  rw [read_eq_ok_iff, split]
  exact .static (.breakpoint (.add (by decide) (.operand isWord)))

end Command

/-! ## Back from text -/

namespace MicroOp

/-- What a step of an instruction acts on can be told from its text: an operand other
than a condition is read back from it, and a debugger line that names the text makes
a breakpoint that is hit whenever the step is executed. -/
theorem operand_of_text {text : String} {speculative : Bool} {group : List MicroOp}
    (expanded : Instruction.expand text speculative = .ok group) {op : MicroOp}
    (member : op ∈ group) {operand : Operand} (named : op.operand = some operand)
    {blanks : String} (blank : ∀ c ∈ blanks.toList, Text.isAsciiBlank c = true) :
    ((∀ met, operand ≠ .condition met) → Operand.read operand.text = .ok operand) ∧
    Command.read ("break operand " ++ op.operandText ++ blanks) =
      .ok (.addBreakpoint (.operand op.operandText)) ∧
    ∀ number, (BreakCondition.operand op.operandText).hits number (some op) = true := by
  have same : op.operandText = operand.text := by
    rw [operandText, named]
  rcases Instruction.source_of_mem expanded member named with ⟨tokens, source, isWord⟩
  have waits (isWord : IsWord operand.text) :
      Command.read ("break operand " ++ op.operandText ++ blanks) =
        .ok (.addBreakpoint (.operand op.operandText)) ∧
      ∀ number, (BreakCondition.operand op.operandText).hits number (some op) = true := by
    refine ⟨?_, fun number => beq_self_eq_true op.operandText⟩
    rw [same]
    exact Command.read_break_operand isWord blank
  cases source with
  | condition met =>
    exact ⟨fun other => absurd rfl (other met), waits (Operand.isWord_suffix met)⟩
  | unit =>
    have reads := Operand.reads_immediate 1
    exact ⟨fun _ => Operand.read_eq_ok_iff.mpr reads, waits (by decide)⟩
  | word listed reads =>
    have back := reads.of_text
    exact ⟨fun _ => Operand.read_eq_ok_iff.mpr back, waits (reads.isWord (isWord _ listed))⟩

/-- An address with brackets of its own, behind a blank that is none in a debugger line,
and a literal that is not written as it was read. -/
theorem operand_of_text_bracketed :
    Instruction.expand "MOV\u00a0[[é]*rbxb],+007\n" false =
      .ok [⟨.load, some (.immediate 7), .quad, false⟩,
        ⟨.store, some (.memory "[é]*rbxb"), .quad, false⟩] ∧
    Operand.read "[[é]*rbxb]" = .ok (.memory "[é]*rbxb") ∧
    Command.read "break operand [[é]*rbxb] \n" = .ok (.addBreakpoint (.operand "[[é]*rbxb]")) := by
  have expanded : Instruction.expand "MOV\u00a0[[é]*rbxb],+007\n" false =
      .ok [⟨.load, some (.immediate 7), .quad, false⟩,
        ⟨.store, some (.memory "[é]*rbxb"), .quad, false⟩] := by
    have computed : (Instruction.expand "MOV\u00a0[[é]*rbxb],+007\n" false).toOption =
        some [⟨.load, some (.immediate 7), .quad, false⟩,
          ⟨.store, some (.memory "[é]*rbxb"), .quad, false⟩] := by
      decide +kernel
    cases outcome : Instruction.expand "MOV\u00a0[[é]*rbxb],+007\n" false with
    | ok group =>
      rw [outcome] at computed
      rw [Option.some.inj computed]
    | error fault =>
      rw [outcome] at computed
      cases computed
  have blank : ∀ c ∈ " \n".toList, Text.isAsciiBlank c = true := by
    rw [← List.all_eq_true]
    decide
  have result := operand_of_text expanded (List.mem_cons_of_mem _ List.mem_cons_self) rfl blank
  exact ⟨expanded, result.1 nofun, result.2.1⟩

end MicroOp

end BranchPipeline
