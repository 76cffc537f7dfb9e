import BranchPipeline.Proofs.Debugger.Vocabulary
import BranchPipeline.Proofs.Instruction.Groups

namespace BranchPipeline

/-!
# The words for operands

An operand is written as a text in brackets, as a literal or as a register
name.  No word is written in two of these ways: a literal starts with a sign or
a digit, a name with a letter.  So the order in which a reader tries them does
not matter, and what it reads can be said without one.
-/

open Command (Writes NamesRegister)

/-! ## Literals -/

namespace Text

/-- Decimal digits behind a sign, which may be left out, and the number that
they write. -/
inductive Integral : List Char → Int → Prop
  | bare {digits : List Char} {number : Nat} (writes : Writes 10 decimalDigit? digits number) :
      Integral digits number
  | plus {digits : List Char} {number : Nat} (writes : Writes 10 decimalDigit? digits number) :
      Integral ('+' :: digits) number
  | minus {digits : List Char} {number : Nat} (writes : Writes 10 decimalDigit? digits number) :
      Integral ('-' :: digits) (-number)

theorem decimal?_eq_some_iff {chars : List Char} {number : Nat} :
    decimal? chars = some number ↔ Writes 10 decimalDigit? chars number :=
  Command.natural?_eq_some_iff

theorem positive?_eq_some_iff {magnitude : Nat} {value : Int64} :
    literal?.positive? magnitude = some value ↔ value.toInt = magnitude := by
  have small := value.toInt_lt
  rw [literal?.positive?, signBound]
  constructor
  · intro fits
    split at fits
    · rename_i below
      cases fits
      exact Int64.toInt_ofNat_of_lt below
    · cases fits
  · intro same
    have below : magnitude < 0x8000000000000000 := by omega
    rw [if_pos below, Option.some.injEq, ← Int64.toInt_inj, same]
    exact Int64.toInt_ofNat_of_lt below

theorem negative?_eq_some_iff {magnitude : Nat} {value : Int64} :
    literal?.negative? magnitude = some value ↔ value.toInt = -magnitude := by
  have large := value.le_toInt
  have fits (below : magnitude ≤ 0x8000000000000000) :
      (Int64.ofInt (-(magnitude : Int))).toInt = -magnitude :=
    Int64.toInt_ofInt_of_le (by omega) (by omega)
  rw [literal?.negative?, signBound]
  constructor
  · intro reads
    split at reads
    · rename_i below
      cases reads
      exact fits below
    · cases reads
  · intro same
    have below : magnitude ≤ 0x8000000000000000 := by omega
    rw [if_pos below, Option.some.injEq, ← Int64.toInt_inj, same]
    exact fits below

/-- A literal starts with a sign or a digit, and so with no letter or bracket. -/
theorem Integral.leads {chars : List Char} {number : Int} (integral : Integral chars number) :
    chars.head?.any (fun c => c == '+' || c == '-' || (decimalDigit? c).isSome) = true := by
  cases integral with
  | bare writes =>
    rcases (Option.any_eq_true _ _).mp writes.leads with ⟨c, first, digit⟩
    rw [first, Option.any_some, digit, Bool.or_true]
  | plus writes => rfl
  | minus writes => rfl

theorem literal?_eq_some_iff {word : String} {value : Int64} :
    literal? word = some value ↔ Integral word.toList value.toInt := by
  unfold literal?
  constructor
  · intro reads
    split at reads
    · rename_i digits same
      rcases Option.bind_eq_some_iff.mp reads with ⟨magnitude, writes, fits⟩
      rw [same, positive?_eq_some_iff.mp fits]
      exact .plus (decimal?_eq_some_iff.mp writes)
    · rename_i digits same
      rcases Option.bind_eq_some_iff.mp reads with ⟨magnitude, writes, fits⟩
      rw [same, negative?_eq_some_iff.mp fits]
      exact .minus (decimal?_eq_some_iff.mp writes)
    · rcases Option.bind_eq_some_iff.mp reads with ⟨magnitude, writes, fits⟩
      rw [positive?_eq_some_iff.mp fits]
      exact .bare (decimal?_eq_some_iff.mp writes)
  · generalize word.toList = chars
    generalize written : value.toInt = number
    intro integral
    cases integral with
    | plus writes =>
      exact Option.bind_eq_some_iff.mpr
        ⟨_, decimal?_eq_some_iff.mpr writes, positive?_eq_some_iff.mpr written⟩
    | minus writes =>
      exact Option.bind_eq_some_iff.mpr
        ⟨_, decimal?_eq_some_iff.mpr writes, negative?_eq_some_iff.mpr written⟩
    | bare writes =>
      have leads := writes.leads
      split
      · cases leads
      · cases leads
      · exact Option.bind_eq_some_iff.mpr
          ⟨_, decimal?_eq_some_iff.mpr writes, positive?_eq_some_iff.mpr written⟩

theorem stripLead_eq_some_iff {lead : Char} {chars rest : List Char} :
    stripLead lead chars = some rest ↔ chars = lead :: rest := by
  cases chars with
  | nil => exact ⟨nofun, nofun⟩
  | cons c more =>
    rw [stripLead, Option.ite_none_right_eq_some, beq_iff_eq, Option.some.injEq, List.cons.injEq]

theorem stripLast_eq_some_iff {last : Char} {chars front : List Char} :
    stripLast last chars = some front ↔ chars = front ++ [last] := by
  rw [stripLast, Option.map_eq_some_iff]
  constructor
  · rintro ⟨rest, stripped, rfl⟩
    rw [← List.reverse_inj, stripLead_eq_some_iff.mp stripped, List.reverse_append,
      List.reverse_reverse]
    rfl
  · rintro rfl
    exact ⟨front.reverse, stripLead_eq_some_iff.mpr List.reverse_concat, List.reverse_reverse _⟩

end Text

/-! ## Operands -/

namespace Operand

/-- A word is written for an operand: a nonempty text in brackets, a literal that
fits a signed machine word, or a register name with its width letter. -/
inductive Reads (word : String) : Operand → Prop
  | memory {expression : String} (nonempty : expression ≠ "")
      (bracketed : word = "[" ++ expression ++ "]") : Reads word (.memory expression)
  | immediate {value : Int64} (literal : Text.Integral word.toList value.toInt) :
      Reads word (.immediate value)
  | register {ref : RegisterRef} (names : NamesRegister word ref) : Reads word (.register ref)

variable {word : String} {operand : Operand} {fault : DecodeFault}

/-- What a bracket opens is no literal and no name. -/
theorem Reads.of_bracket {inner : List Char} (reads : Reads word operand)
    (opens : word.toList = '[' :: inner) :
    ∃ expression, operand = .memory expression ∧ expression ≠ "" ∧
      inner = expression.toList ++ [']'] := by
  cases reads with
  | memory nonempty bracketed =>
    refine ⟨_, rfl, nonempty, ?_⟩
    rw [bracketed, String.toList_append, String.toList_append] at opens
    exact (List.cons.inj opens).2.symm
  | immediate literal =>
    have leads := literal.leads
    rw [opens] at leads
    cases leads
  | register names =>
    have leads := names.identifies.1
    rw [opens] at leads
    cases leads

/-- A name is no literal. -/
theorem literal?_of_names {ref : RegisterRef} (names : NamesRegister word ref) :
    Text.literal? word = none := by
  have none : ∀ word ∈ Command.registerWords, Text.literal? word = none := by decide +kernel
  exact none word (Command.mem_registerWords names)

/-- What is read is what the word is written for. -/
theorem reads_of_read (accepted : read word = .ok operand) : Reads word operand := by
  unfold read at accepted
  split at accepted
  · rename_i inner opened
    split at accepted
    · rename_i c rest closed
      cases accepted
      refine .memory ?_ (String.toList_inj.mp ?_)
      · rw [ne_eq, ← String.toList_inj, String.toList_ofList]
        exact List.cons_ne_nil c rest
      · rw [Text.stripLead_eq_some_iff.mp opened, Text.stripLast_eq_some_iff.mp closed,
          String.toList_append, String.toList_append, @String.toList_ofList (c :: rest)]
        rfl
    · cases accepted
  · split at accepted
    · rename_i value found
      cases accepted
      exact .immediate (Text.literal?_eq_some_iff.mp found)
    · split at accepted
      · rename_i ref found
        cases accepted
        exact .register (Command.read?_eq_some_iff.mp found)
      · cases accepted

theorem Reads.read_eq (reads : Reads word operand) : read word = .ok operand := by
  unfold read
  cases opened : Text.stripLead '[' word.toList with
  | some inner =>
    rcases reads.of_bracket (Text.stripLead_eq_some_iff.mp opened) with
      ⟨expression, rfl, nonempty, rfl⟩
    cases chars : expression.toList with
    | nil => exact absurd (String.toList_inj.mp chars) nonempty
    | cons c rest =>
      simp only [Text.stripLast_eq_some_iff.mpr rfl]
      rw [← chars, String.ofList_toList]
  | none =>
    cases reads with
    | memory nonempty bracketed =>
      rw [bracketed, String.toList_append, String.toList_append] at opened
      cases opened
    | immediate literal => simp only [Text.literal?_eq_some_iff.mpr literal]
    | register names =>
      simp only [literal?_of_names names, Command.read?_eq_some_iff.mpr names]

theorem read_eq_ok_iff : read word = .ok operand ↔ Reads word operand :=
  ⟨reads_of_read, Reads.read_eq⟩

/-- A word is written for one operand only. -/
theorem Reads.unique {other : Operand} (first : Reads word operand) (second : Reads word other) :
    operand = other :=
  Except.ok.inj (first.read_eq.symm.trans second.read_eq)

/-- A word that is not written for any operand is malformed. -/
theorem read_eq_error_iff :
    read word = .error fault ↔
      fault = .malformedOperand word ∧ ∀ operand, ¬ Reads word operand := by
  have reason {found : DecodeFault} (failed : read word = .error found) :
      found = .malformedOperand word := by
    unfold read at failed
    split at failed
    · split at failed <;> cases failed
      rfl
    · split at failed
      · cases failed
      · split at failed <;> cases failed
        rfl
  constructor
  · intro failed
    refine ⟨reason failed, fun operand reads => ?_⟩
    cases failed.symm.trans reads.read_eq
  · rintro ⟨rfl, unread⟩
    cases outcome : read word with
    | ok operand => exact absurd (reads_of_read outcome) (unread operand)
    | error found => rw [reason outcome]

/-! ## Places for operands -/

/-- What an instruction does with an operand: it takes its value, or it writes it,
perhaps after having taken its value. -/
inductive Role where
  | source
  | destination
  deriving DecidableEq, Repr

namespace Role

/-- Reads a word for the operand in its place. -/
def read : Role → String → Except DecodeFault Operand
  | source => Operand.read
  | destination => Operand.readDestination

/-- The word is written for an operand that can stand in this place. -/
def Accepts (role : Role) (word : String) (operand : Operand) : Prop :=
  Reads word operand ∧ (role = destination → operand.isWritable = true)

/-- Why a word is refused in its place: it is not written for any operand, or for
one that cannot be written to. -/
inductive Refuses (word : String) : Role → DecodeFault → Prop
  | malformed {role : Role} (unread : ∀ operand, ¬ Reads word operand) :
      Refuses word role (.malformedOperand word)
  | fixed {operand : Operand} (reads : Reads word operand) (fixed : operand.isWritable = false) :
      Refuses word destination (.invalidDestination word)

end Role

theorem readDestination_of_reads (reads : Reads word operand) :
    readDestination word =
      if operand.isWritable then .ok operand else .error (.invalidDestination word) := by
  rw [readDestination, reads.read_eq]
  cases reads with
  | memory nonempty bracketed => rfl
  | immediate literal => rfl
  | @register ref names =>
    show (if ref.register.isInternal then _ else _) = if !ref.register.isInternal then _ else _
    cases ref.register.isInternal <;> rfl

namespace Role

variable {role : Role}

theorem read_eq_ok_iff : role.read word = .ok operand ↔ role.Accepts word operand := by
  cases role with
  | source => exact Operand.read_eq_ok_iff.trans ⟨fun reads => ⟨reads, nofun⟩, And.left⟩
  | destination =>
    constructor
    · intro accepted
      cases outcome : Operand.read word with
      | error fault =>
        rw [read, readDestination, outcome] at accepted
        cases accepted
      | ok found =>
        have reads := reads_of_read outcome
        rw [read, readDestination_of_reads reads] at accepted
        split at accepted
        · rename_i writable
          cases accepted
          exact ⟨reads, fun _ => writable⟩
        · cases accepted
    · rintro ⟨reads, writable⟩
      rw [read, readDestination_of_reads reads, if_pos (writable rfl)]

theorem read_eq_error_iff : role.read word = .error fault ↔ role.Refuses word fault := by
  cases role with
  | source =>
    refine Operand.read_eq_error_iff.trans ⟨?_, ?_⟩
    · rintro ⟨rfl, unread⟩
      exact .malformed unread
    · rintro ⟨unread⟩
      exact ⟨rfl, unread⟩
  | destination =>
    constructor
    · intro failed
      cases outcome : Operand.read word with
      | error found =>
        rcases Operand.read_eq_error_iff.mp outcome with ⟨rfl, unread⟩
        rw [read, readDestination, outcome] at failed
        cases failed
        exact .malformed unread
      | ok found =>
        have reads := reads_of_read outcome
        rw [read, readDestination_of_reads reads] at failed
        split at failed
        · cases failed
        · rename_i fixed
          cases failed
          exact .fixed reads (Bool.not_eq_true _ ▸ fixed)
    · rintro (unread | ⟨reads, fixed⟩)
      · rw [read, readDestination, Operand.read_eq_error_iff.mpr ⟨rfl, unread⟩]
        rfl
      · rw [read, readDestination_of_reads reads, fixed]
        rfl

end Role

end Operand
end BranchPipeline
