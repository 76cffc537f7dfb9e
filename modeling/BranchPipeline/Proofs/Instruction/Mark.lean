import BranchPipeline.Processor.Cycle
import BranchPipeline.Proofs.Instruction.Groups

namespace BranchPipeline

/-!
# The mark behind a speculative instruction

Fetch marks an instruction by a star behind its text, and decode takes a star
at the end for that mark.  A text in memory may itself end with a star.  Fetched
on the straight path it is then decoded as if the star were a mark; fetched off
that path it carries two stars, and decode fails, since no instruction ends with
a star.  So whenever decode succeeds, it has seen the same instruction: the text
in memory without a star at its end.
-/

namespace Text

/-- The last piece of a split list ends as the list does, unless the list ends
with a separator. -/
theorem exists_splitOnP_append_singleton {α : Type} (separates : α → Bool) (front : List α)
    (last : α) (inner : separates last = false) :
    ∃ pieces piece, (front ++ [last]).splitOnP separates = pieces ++ [piece ++ [last]] := by
  induction front with
  | nil => exact ⟨[], [], by simp [List.splitOnP_cons_eq_if_modifyHead, inner]⟩
  | cons item front inductionHypothesis =>
    rcases inductionHypothesis with ⟨pieces, piece, split⟩
    rw [List.cons_append, List.splitOnP_cons_eq_if_modifyHead, split]
    by_cases separator : separates item = true
    · exact ⟨[] :: pieces, piece, by rw [if_pos separator, List.cons_append]⟩
    · rw [if_neg separator]
      cases pieces with
      | nil => exact ⟨[], item :: piece, rfl⟩
      | cons first pieces => exact ⟨(item :: first) :: pieces, piece, rfl⟩

end Text

/-- The text ends with the mark of speculation. -/
def Starred (text : String) : Prop := text.toList.getLast? = some Processor.speculativeMark

instance (text : String) : Decidable (Starred text) :=
  inferInstanceAs (Decidable (text.toList.getLast? = some Processor.speculativeMark))

theorem starred_iff {text : String} :
    Starred text ↔ ∃ front, text.toList = front ++ [Processor.speculativeMark] :=
  List.getLast?_eq_some_iff

/-! ## No instruction ends with a star -/

/-- A text that ends with a star has a word that does. -/
theorem Starred.exists_word {text : String} (starred : Starred text) :
    ∃ word ∈ Text.words Instruction.isSeparator text, Starred word := by
  rcases starred_iff.mp starred with ⟨front, chars⟩
  rcases Text.exists_splitOnP_append_singleton Instruction.isSeparator front
    Processor.speculativeMark (by decide) with ⟨pieces, piece, split⟩
  refine ⟨String.ofList (piece ++ [Processor.speculativeMark]), ?_, ?_⟩
  · rw [Text.words, chars, split]
    apply List.mem_map_of_mem
    rw [List.mem_filter]
    exact ⟨by simp, by simp⟩
  · exact starred_iff.mpr ⟨piece, String.toList_ofList⟩

theorem Starred.digits?_eq {chars : List Char} (starred : Processor.speculativeMark ∈ chars) :
    Text.digits? Text.decimalDigit? chars = none := by
  induction chars with
  | nil => cases starred
  | cons c rest inductionHypothesis =>
    simp only [Text.digits?]
    rcases List.mem_cons.mp starred with rfl | starred
    · rfl
    · rw [inductionHypothesis starred]
      cases Text.decimalDigit? c <;> rfl

theorem Starred.literal?_eq {token : String} (starred : Starred token) :
    Text.literal? token = none := by
  rcases starred_iff.mp starred with ⟨front, chars⟩
  have decimal {digits : List Char} (present : Processor.speculativeMark ∈ digits) :
      Text.decimal? digits = none := by
    simp [Text.decimal?, Text.natural?, digits?_eq present]
  unfold Text.literal?
  rw [chars]
  cases front with
  | nil => rfl
  | cons c front =>
    simp only [List.cons_append]
    split <;> rename_i digits shape
    · injection shape with _ shape
      rw [decimal (by rw [← shape]; simp)]
      rfl
    · injection shape with _ shape
      rw [decimal (by rw [← shape]; simp)]
      rfl
    · rw [decimal (by simp)]
      rfl

theorem Starred.named?_eq {token : String} (starred : Starred token) :
    Register.named? token = none := by
  rw [Register.named?, List.find?_eq_none]
  intro register _ same
  rw [← beq_iff_eq.mp same] at starred
  cases register <;> exact absurd starred (by decide)

theorem Starred.read?_eq {token : String} (starred : Starred token) :
    RegisterRef.read? token = none := by
  rw [RegisterRef.read?, starred.named?_eq]
  show (do
    let last ← token.toList.getLast?
    let width ← Width.ofSuffix? last
    let register ← Register.named? (String.ofList token.toList.dropLast)
    some (⟨register, width⟩ : RegisterRef)) = none
  rw [starred]
  rfl

theorem Starred.not_read {token : String} (starred : Starred token) (operand : Operand) :
    Operand.read token ≠ .ok operand := by
  intro read
  unfold Operand.read at read
  rcases starred_iff.mp starred with ⟨front, chars⟩
  rw [starred.literal?_eq, starred.read?_eq, chars] at read
  cases front with
  | nil => cases read
  | cons c front =>
    simp only [List.cons_append, Text.stripLead] at read
    split at read
    · rename_i inner opened
      split at opened
      · injection opened with opened
        subst opened
        have closed : Text.stripLast ']' (front ++ [Processor.speculativeMark]) = none := by
          simp only [Text.stripLast, List.reverse_append, List.reverse_singleton,
            List.singleton_append, Text.stripLead]
          rfl
        rw [closed] at read
        cases read
      · cases opened
    · cases read

theorem Starred.not_readDestination {token : String} (starred : Starred token)
    (operand : Operand) : Operand.readDestination token ≠ .ok operand := by
  intro accepted
  rcases bind_eq_ok_iff.mp accepted with ⟨found, reads, -⟩
  exact starred.not_read found reads

theorem Starred.not_expandOperands {name : String} {mnemonic : Instruction.Mnemonic}
    {tokens : List String}
    {token : String} (starred : Starred token) (member : token ∈ tokens) (speculative : Bool)
    (group : List MicroOp) :
    Instruction.expandOperands name mnemonic tokens speculative ≠ .ok group := by
  intro expanded
  unfold Instruction.expandOperands at expanded
  split at expanded
  · rename_i first second
    rcases bind_eq_ok_iff.mp expanded with ⟨target, targetRead, expanded⟩
    rcases bind_eq_ok_iff.mp expanded with ⟨source, sourceRead, -⟩
    rcases List.mem_cons.mp member with rfl | member
    · exact starred.not_readDestination target targetRead
    · rcases List.mem_singleton.mp member with rfl
      exact starred.not_read source sourceRead
  · rename_i first second
    rcases bind_eq_ok_iff.mp expanded with ⟨left, leftRead, expanded⟩
    rcases bind_eq_ok_iff.mp expanded with ⟨right, rightRead, -⟩
    rcases List.mem_cons.mp member with rfl | member
    · exact starred.not_read left leftRead
    · rcases List.mem_singleton.mp member with rfl
      exact starred.not_read right rightRead
  · rcases bind_eq_ok_iff.mp expanded with ⟨target, targetRead, -⟩
    rcases List.mem_singleton.mp member with rfl
    exact starred.not_readDestination target targetRead
  · rcases bind_eq_ok_iff.mp expanded with ⟨target, targetRead, -⟩
    rcases List.mem_singleton.mp member with rfl
    exact starred.not_readDestination target targetRead
  · rcases bind_eq_ok_iff.mp expanded with ⟨target, targetRead, -⟩
    rcases List.mem_singleton.mp member with rfl
    exact starred.not_read target targetRead
  · cases member
  · cases member
  · cases expanded

theorem Starred.named?_mnemonic_eq {name : String} (starred : Starred name) :
    Instruction.Mnemonic.named? name = none := by
  unfold Instruction.Mnemonic.named?
  split
  case h_8 =>
    rw [Option.map_eq_none_iff, Instruction.jumpCondition?]
    split
    · rename_i suffix stripped
      rw [Condition.ofSuffix?, List.find?_eq_none]
      intro condition _ same
      rcases starred_iff.mp starred with ⟨front, chars⟩
      rw [chars] at stripped
      cases front with
      | nil => cases stripped
      | cons c front =>
        simp only [List.cons_append, Text.stripLead] at stripped
        split at stripped
        · injection stripped with stripped
          subst stripped
          have ends : Starred condition.suffix :=
            starred_iff.mpr ⟨front, by rw [beq_iff_eq.mp same, String.toList_ofList]⟩
          cases condition <;> exact absurd ends (by decide)
        · cases stripped
    · rfl
  all_goals exact absurd starred (by decide)

/-- No text that ends with a star is an instruction. -/
theorem Starred.not_expand {text : String} (starred : Starred text) (speculative : Bool)
    (group : List MicroOp) : Instruction.expand text speculative ≠ .ok group := by
  intro expanded
  rcases starred.exists_word with ⟨word, member, starred⟩
  unfold Instruction.expand at expanded
  cases listed : Text.words Instruction.isSeparator text with
  | nil =>
    rw [listed] at expanded
    cases expanded
  | cons first tokens =>
    rw [listed] at expanded member
    simp only [Instruction.expandWords] at expanded
    split at expanded
    · cases expanded
    · rename_i mnemonic named
      rcases List.mem_cons.mp member with rfl | member
      · have lower : Starred (word.map Char.toLower) := by
          rcases starred_iff.mp starred with ⟨front, chars⟩
          refine starred_iff.mpr ⟨front.map Char.toLower, ?_⟩
          rw [String.toList_map, chars, List.map_append]
          rfl
        rw [lower.named?_mnemonic_eq] at named
        cases named
      · exact starred.not_expandOperands member speculative group expanded

/-! ## What decode sees of what fetch hands over -/

namespace Processor

/-- The text that fetch puts into `cir`. -/
def handedOver (token : String) (speculative : Bool) : String :=
  if speculative then token.push speculativeMark else token

/-- The instruction that a text in memory stands for. -/
def instruction (token : String) : String := (splitMark token).1

theorem splitMark_push (token : String) :
    splitMark (token.push speculativeMark) = (token, true) := by
  simp [splitMark, Text.stripLast, Text.stripLead]

theorem splitMark_of_not_starred {token : String} (plain : ¬ Starred token) :
    splitMark token = (token, false) := by
  unfold splitMark Text.stripLast
  cases reversed : token.toList.reverse with
  | nil => rfl
  | cons c rest =>
    have other : (c == speculativeMark) = false := by
      rw [beq_eq_false_iff_ne]
      rintro rfl
      apply plain
      rw [Starred, ← List.head?_reverse, reversed]
      rfl
    simp [Text.stripLead, other]

/-- A star at the end is taken for the mark, whoever has put it there. -/
theorem splitMark_of_starred {token : String} (starred : Starred token) :
    splitMark token = (instruction token, true) := by
  rcases starred_iff.mp starred with ⟨front, chars⟩
  simp [instruction, splitMark, Text.stripLast, Text.stripLead, chars]

/-- Whenever decode succeeds, it has seen the instruction that the text in
memory stands for, whether or not that text was fetched speculatively. -/
theorem instruction_handedOver {token : String} {speculative mark : Bool} {group : List MicroOp}
    (expanded : Instruction.expand (instruction (handedOver token speculative)) mark = .ok group) :
    instruction (handedOver token speculative) = instruction token := by
  cases speculative with
  | false => rfl
  | true =>
    have seen : instruction (handedOver token true) = token := congrArg _ (splitMark_push token)
    rw [seen] at expanded ⊢
    have plain : ¬ Starred token := fun starred => starred.not_expand mark group expanded
    exact (congrArg Prod.fst (splitMark_of_not_starred plain)).symm

end Processor
end BranchPipeline
