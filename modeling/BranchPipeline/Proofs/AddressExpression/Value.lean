import Mathlib
import BranchPipeline.Proofs.AddressExpression.Reading
import BranchPipeline.Proofs.Machine.RegisterBytes
import BranchPipeline.Proofs.Operation

namespace BranchPipeline

namespace AddressExpression

/-!
# The value of an address expression

An expression denotes a signed word or nothing at all.  Every operation is done
on the integers that its operands denote and wrapped to 64 bits, a quotient
being cut off towards zero; there is none for a zero divisor, nor for the one
quotient that does not fit.

Running the tokens in postfix order on a stack of words finds just what the
standard reading denotes.  In particular the stack never lacks an operand, and
it never keeps one.
-/

/-! ## What expressions denote -/

/-- The operation on integers that an operator stands for. -/
def Operator.onIntegers : Operator → Int → Int → Int
  | add, first, second => first + second
  | subtract, first, second => first - second
  | multiply, first, second => first * second
  | divide, first, second => first.tdiv second

/-- Only a quotient can be without a value: behind a zero divisor, and where
the least word is divided by minus one. -/
def Operator.Defined (operator : Operator) (first second : Int64) : Prop :=
  operator = divide → ¬(second = 0 ∨ first = Int64.minValue ∧ second = -1)

/-- An operand word denotes the signed literal that it is, or else the low
bytes of the register that it names, extended by zeros. -/
inductive OperandDenotes (file : RegisterFile) (word : String) : Int64 → Prop
  | literal {value : Int64} (spells : Text.literal? word = some value) :
      OperandDenotes file word value
  | register {ref : RegisterRef} {bits : UInt64} (other : Text.literal? word = none)
      (names : RegisterRef.read word = .ok ref)
      (holds : file.content ref.register = .number bits) :
      OperandDenotes file word (UInt64.ofNat (bits.toNat % 2 ^ (8 * ref.width.bytes))).toInt64

/-- The expression has a value, and which. -/
inductive Expression.Denotes (file : RegisterFile) : Expression → Int64 → Prop
  | operand {word : String} {value : Int64} (denotes : OperandDenotes file word value) :
      Denotes file (.operand word) value
  | operation {operator : Operator} {left right : Expression} {first second : Int64}
      (former : Denotes file left first) (latter : Denotes file right second)
      (defined : operator.Defined first second) :
      Denotes file (.operation operator left right)
        (Int64.ofInt (operator.onIntegers first.toInt second.toInt))

/-! ## Operators and operands compute what they denote -/

theorem Operator.apply_eq (operator : Operator) (first second : Int64)
    (defined : operator.Defined first second) :
    operator.apply first second =
      some (Int64.ofInt (operator.onIntegers first.toInt second.toInt)) := by
  cases operator with
  | add => rw [onIntegers, Int64.ofInt_add, Int64.ofInt_toInt, Int64.ofInt_toInt, apply]
  | subtract => rw [onIntegers, Int64.ofInt_sub, Int64.ofInt_toInt, Int64.ofInt_toInt, apply]
  | multiply => rw [onIntegers, Int64.ofInt_mul, Int64.ofInt_toInt, Int64.ofInt_toInt, apply]
  | divide =>
    have fits : ¬(second == 0 || first == Int64.minValue && second == -1) = true := by
      have exceptional := defined rfl
      simpa only [Bool.or_eq_true, Bool.and_eq_true, beq_iff_eq] using exceptional
    have quotient := Int64.ofInt_tdiv first.minValue_le_toInt first.toInt_le
      second.minValue_le_toInt second.toInt_le
    rw [Int64.ofInt_toInt, Int64.ofInt_toInt] at quotient
    rw [apply, if_neg fits, onIntegers, quotient]

theorem Operator.apply_eq_none (operator : Operator) (first second : Int64)
    (undefined : ¬operator.Defined first second) : operator.apply first second = none := by
  rcases Classical.not_imp.mp undefined with ⟨rfl, exceptional⟩
  have exceptional := Classical.not_not.mp exceptional
  rw [apply, if_pos]
  simpa only [Bool.or_eq_true, Bool.and_eq_true, beq_iff_eq] using exceptional

variable {file : RegisterFile}

/-- A register that can be read gives its low bytes, extended by zeros. -/
theorem read_eq_of_content {ref : RegisterRef} {bits : UInt64}
    (holds : file.content ref.register = .number bits) :
    file.read ref = .ok (UInt64.ofNat (bits.toNat % 2 ^ (8 * ref.width.bytes))) := by
  have bytes := ref.width.toNat_truncate bits
  rw [RegisterFile.read, holds, ← bytes, UInt64.ofNat_toNat]

theorem operandValue_eq_ok_iff (word : String) (value : Int64) :
    operandValue file word = .ok value ↔ OperandDenotes file word value := by
  constructor
  · intro evaluates
    unfold operandValue at evaluates
    split at evaluates
    · rename_i literal spells
      cases evaluates
      exact .literal spells
    · rename_i other
      split at evaluates
      · cases evaluates
      · rename_i ref names
        cases holds : file.content ref.register with
        | number bits =>
          rw [read_eq_of_content holds] at evaluates
          cases evaluates
          exact .register other names holds
        | text token =>
          rw [RegisterFile.read, holds] at evaluates
          cases evaluates
  · intro denotes
    cases denotes with
    | literal spells => rw [operandValue, spells]
    | register other names holds => simp only [operandValue, other, names, read_eq_of_content holds]

/-! ## Evaluating the standard reading -/

/-- The value of an expression, its operands taken from left to right. -/
def Expression.value (file : RegisterFile) : Expression → Except Reason Int64
  | operand word => operandValue file word
  | operation operator left right => do
    let first ← left.value file
    let second ← right.value file
    match operator.apply first second with
    | some value => .ok value
    | none => .error .divisionByZero

/-- Whatever lies on the stack, the tokens of an expression in postfix order
put its value on top. -/
theorem Expression.foldlM_runToken (expression : Expression) (stack : List Int64) :
    expression.inPostfixOrder.foldlM (runToken file) stack =
      (expression.value file).map (· :: stack) := by
  induction expression generalizing stack with
  | operand word =>
    rw [inPostfixOrder, List.foldlM_cons, runToken, value]
    cases operandValue file word <;> rfl
  | operation operator left right first second =>
    rw [inPostfixOrder, List.foldlM_append, List.foldlM_append, first, value]
    cases left.value file with
    | error reason => rfl
    | ok former =>
      dsimp only [Except.map, bind, Except.bind]
      rw [second]
      cases right.value file with
      | error reason => rfl
      | ok latter =>
        dsimp only [Except.map, bind, Except.bind]
        rw [List.foldlM_cons, runToken]
        cases operator.apply former latter <;> rfl

theorem Expression.runPostfix_inPostfixOrder (expression : Expression) :
    runPostfix file expression.inPostfixOrder = expression.value file := by
  rw [runPostfix, foldlM_runToken]
  cases expression.value file <;> rfl

/-- An operation has a value where its operands have one and the operator is
defined on them. -/
theorem Expression.value_operation_eq_ok_iff {operator : Operator} {left right : Expression}
    {result : Int64} :
    (operation operator left right).value file = .ok result ↔
      ∃ first second, left.value file = .ok first ∧ right.value file = .ok second ∧
        operator.Defined first second ∧
        Int64.ofInt (operator.onIntegers first.toInt second.toInt) = result := by
  simp only [value, bind_eq_ok_iff]
  constructor
  · rintro ⟨first, former, second, latter, applies⟩
    refine ⟨first, second, former, latter, ?_⟩
    by_cases defined : operator.Defined first second
    · rw [operator.apply_eq first second defined] at applies
      exact ⟨defined, Except.ok.inj applies⟩
    · rw [operator.apply_eq_none first second defined] at applies
      cases applies
  · rintro ⟨first, second, former, latter, defined, rfl⟩
    refine ⟨first, former, second, latter, ?_⟩
    rw [operator.apply_eq first second defined]

/-- An operation fails where one of its operands does, or at a division. -/
theorem Expression.of_value_operation_eq_error {operator : Operator} {left right : Expression}
    {reason : Reason} (fails : (operation operator left right).value file = .error reason) :
    left.value file = .error reason ∨ right.value file = .error reason ∨
      ∃ first second, left.value file = .ok first ∧ right.value file = .ok second ∧
        ¬operator.Defined first second ∧ reason = .divisionByZero := by
  rw [value] at fails
  cases former : left.value file with
  | error cause =>
    rw [former] at fails
    cases fails
    exact Or.inl rfl
  | ok first =>
    cases latter : right.value file with
    | error cause =>
      rw [former, latter] at fails
      cases fails
      exact Or.inr (Or.inl rfl)
    | ok second =>
      rw [former, latter] at fails
      dsimp only [bind, Except.bind] at fails
      by_cases defined : operator.Defined first second
      · rw [operator.apply_eq first second defined] at fails
        cases fails
      · rw [operator.apply_eq_none first second defined] at fails
        cases fails
        exact Or.inr (Or.inr ⟨first, second, rfl, rfl, defined, rfl⟩)

theorem Expression.value_eq_ok_iff (expression : Expression) (result : Int64) :
    expression.value file = .ok result ↔ expression.Denotes file result := by
  induction expression generalizing result with
  | operand word =>
    rw [value, operandValue_eq_ok_iff]
    constructor
    · intro denotes
      exact .operand denotes
    · intro denotes
      cases denotes with
      | operand denotes => exact denotes
  | operation operator left right former latter =>
    rw [value_operation_eq_ok_iff]
    constructor
    · rintro ⟨first, second, one, two, defined, rfl⟩
      exact .operation ((former first).mp one) ((latter second).mp two) defined
    · intro denotes
      cases denotes with
      | operation one two defined =>
        exact ⟨_, _, (former _).mpr one, (latter _).mpr two, defined, rfl⟩

theorem Expression.Denotes.unique {expression : Expression} {value other : Int64}
    (denotes : expression.Denotes file value) (again : expression.Denotes file other) :
    value = other := by
  rw [← expression.value_eq_ok_iff] at denotes again
  exact Except.ok.inj (denotes.symm.trans again)

/-- An expression can only fail at a register or at a division. -/
theorem Expression.reason_of_value {expression : Expression} {reason : Reason}
    (fails : expression.value file = .error reason) :
    reason = .divisionByZero ∨ ∃ fault, reason = .register fault := by
  induction expression with
  | operand word =>
    rw [value, operandValue] at fails
    split at fails
    · cases fails
    · split at fails
      · cases fails
        exact Or.inr ⟨_, rfl⟩
      · split at fails <;> cases fails
        exact Or.inr ⟨_, rfl⟩
  | operation operator left right former latter =>
    rcases of_value_operation_eq_error fails with fails | fails | ⟨_, _, _, _, _, divided⟩
    · exact former fails
    · exact latter fails
    · exact Or.inl divided

/-! ## Where there is no value -/

/-- A word in the expression denotes nothing, or a division whose operands have
values has none. -/
def Expression.Flawed (file : RegisterFile) (expression : Expression) : Prop :=
  (∃ word, (operand word).Part expression ∧ ∀ value, ¬OperandDenotes file word value) ∨
  ∃ left right first second, (operation .divide left right).Part expression ∧
    left.Denotes file first ∧ right.Denotes file second ∧
    (second = 0 ∨ first = Int64.minValue ∧ second = -1)

/-- What is wrong with a part is wrong with the whole. -/
theorem Expression.Flawed.of_part {part whole : Expression} (flawed : part.Flawed file)
    (grows : ∀ {smaller : Expression}, smaller.Part part → smaller.Part whole) :
    whole.Flawed file := by
  rcases flawed with ⟨word, occurs, nothing⟩ |
    ⟨left, right, first, second, occurs, former, latter, exceptional⟩
  · exact Or.inl ⟨word, grows occurs, nothing⟩
  · exact Or.inr ⟨left, right, first, second, grows occurs, former, latter, exceptional⟩

theorem Expression.flawed_of_value {expression : Expression} {reason : Reason}
    (fails : expression.value file = .error reason) : expression.Flawed file := by
  induction expression with
  | operand word =>
    refine Or.inl ⟨word, .whole, ?_⟩
    intro value denotes
    rw [← operandValue_eq_ok_iff] at denotes
    cases fails.symm.trans denotes
  | operation operator left right former latter =>
    rcases of_value_operation_eq_error fails with
      fails | fails | ⟨first, second, one, two, undefined, -⟩
    · exact (former fails).of_part .left
    · exact (latter fails).of_part .right
    · rcases Classical.not_imp.mp undefined with ⟨rfl, exceptional⟩
      exact Or.inr ⟨left, right, first, second, .whole, (left.value_eq_ok_iff first).mp one,
        (right.value_eq_ok_iff second).mp two, Classical.not_not.mp exceptional⟩

/-- Every part of an expression with a value has a value itself. -/
theorem Expression.Part.exists_denotes {part whole : Expression} {value : Int64}
    (occurs : part.Part whole) (denotes : whole.Denotes file value) :
    ∃ result, part.Denotes file result := by
  induction occurs generalizing value with
  | whole => exact ⟨value, denotes⟩
  | left _ inductionHypothesis =>
    cases denotes with
    | operation former _ _ => exact inductionHypothesis former
  | right _ inductionHypothesis =>
    cases denotes with
    | operation _ latter _ => exact inductionHypothesis latter

theorem Expression.Denotes.not_flawed {expression : Expression} {value : Int64}
    (denotes : expression.Denotes file value) : ¬expression.Flawed file := by
  rintro (⟨word, occurs, nothing⟩ |
    ⟨left, right, first, second, occurs, former, latter, exceptional⟩)
  · rcases occurs.exists_denotes denotes with ⟨result, fine⟩
    cases fine with
    | operand fine => exact nothing result fine
  · rcases occurs.exists_denotes denotes with ⟨result, fine⟩
    cases fine with
    | operation one two defined =>
      rw [former.unique one, latter.unique two] at exceptional
      exact defined rfl exceptional

theorem Expression.exists_error_iff (expression : Expression) :
    (∃ reason, expression.value file = .error reason) ↔ expression.Flawed file := by
  constructor
  · rintro ⟨reason, fails⟩
    exact flawed_of_value fails
  · intro flawed
    cases evaluated : expression.value file with
    | error reason => exact ⟨reason, rfl⟩
    | ok value =>
      have denotes := (expression.value_eq_ok_iff value).mp evaluated
      exact absurd flawed denotes.not_flawed

/-! ## Tokens -/

/-- Address expressions are evaluated as arithmetic.  The check lets just the
alternating sequences pass; of these each has one standard reading, and running
its tokens in postfix order gives what the reading denotes.  There is no value
exactly if some operand word denotes nothing or some division has no result,
and then that is the reason: the stack neither lacks an operand nor keeps
one. -/
theorem evaluates_standard_reading (file : RegisterFile) (tokens : List Token) :
    (check tokens = .ok () ↔ Alternates tokens) ∧
    (∀ text, parse text = .ok tokens → Alternates tokens ∧
      evaluate file text = runPostfix file (toPostfix tokens)) ∧
    (Alternates tokens → ∃ expression, Reads tokens expression ∧
      (∀ other, Reads tokens other → other = expression) ∧
      (∀ value, runPostfix file (toPostfix tokens) = .ok value ↔ expression.Denotes file value) ∧
      ((∃ reason, runPostfix file (toPostfix tokens) = .error reason) ↔
        (∃ word, .operand word ∈ tokens ∧ ∀ value, ¬OperandDenotes file word value) ∨
        ∃ left right first second,
          (Expression.operation .divide left right).Part expression ∧
          left.Denotes file first ∧ right.Denotes file second ∧
          (second = 0 ∨ first = Int64.minValue ∧ second = -1)) ∧
      (∀ reason, runPostfix file (toPostfix tokens) = .error reason →
        reason = .divisionByZero ∨ ∃ fault, reason = .register fault) ∧
      runPostfix file (toPostfix tokens) ≠ .error .missingOperand ∧
      runPostfix file (toPostfix tokens) ≠ .error .danglingOperand) := by
  refine ⟨check_eq_ok_iff tokens, ?_, ?_⟩
  · intro text parsed
    have evaluated : evaluate file text = runPostfix file (toPostfix tokens) := by
      rw [evaluate, parsed]
      rfl
    refine ⟨?_, evaluated⟩
    rw [parse] at parsed
    cases scanned : tokenize (strip text) with
    | error reason =>
      rw [scanned] at parsed
      cases parsed
    | ok others =>
      rw [scanned] at parsed
      dsimp only [bind, Except.bind] at parsed
      split at parsed
      · cases parsed
      · rename_i checked
        cases parsed
        exact (check_eq_ok_iff tokens).mp checked
  · intro alternates
    rcases alternates.exists_reads with ⟨expression, reads⟩
    rw [reads.toPostfix_eq, expression.runPostfix_inPostfixOrder]
    have possible : ∀ reason, expression.value file = .error reason →
        reason = .divisionByZero ∨ ∃ fault, reason = .register fault :=
      fun reason => Expression.reason_of_value
    refine ⟨expression, reads, fun other => reads.unique, expression.value_eq_ok_iff, ?_, possible,
      ?_, ?_⟩
    · have words := reads.mem_iff
      simp only [words]
      exact expression.exists_error_iff
    · intro fails
      rcases possible _ fails with impossible | ⟨fault, impossible⟩ <;> cases impossible
    · intro fails
      rcases possible _ fails with impossible | ⟨fault, impossible⟩ <;> cases impossible

/-- Two operators of each kind, and a register: `8 - 3 - 2 * rbx / 4`, where
`rbx` holds six, is `(8 - 3) - ((2 * rbx) / 4)`. -/
theorem evaluates_standard_reading_grouped :
    let file := RegisterFile.write {} (.full .rbx) 6
    let tokens : List Token := [.operand "8", .operator .subtract, .operand "3",
      .operator .subtract, .operand "2", .operator .multiply, .operand "rbx", .operator .divide,
      .operand "4"]
    runPostfix file (toPostfix tokens) = .ok 2 ∧
    ∃ expression, Reads tokens expression ∧ expression.Denotes file 2 := by
  intro file tokens
  have alternates : Alternates tokens := (check_eq_ok_iff tokens).mp rfl
  have computed : runPostfix file (toPostfix tokens) = .ok 2 := by cbv
  rcases (evaluates_standard_reading file tokens).2.2 alternates with
    ⟨expression, reads, -, denotes, -⟩
  exact ⟨computed, expression, reads, (denotes 2).mp computed⟩

end AddressExpression
end BranchPipeline
