import BranchPipeline.AddressExpression.Evaluation

namespace BranchPipeline
namespace AddressExpression

/-!
# The standard reading of an address expression

How an expression is meant is fixed by a grammar of two levels.  A product is
an operand word, or a product with `*` or `/` and one more word behind it; a
sum is a product, or a sum with `+` or `-` and one more product behind it.
Neither precedences nor a stack occur in it.

Every sequence in which words and operators alternate has exactly one reading,
and the order into which the stack of waiting operators brings the tokens is
the one in which each operator stands behind its two operands.
-/

/-- An address expression as it is meant. -/
inductive Expression where
  | operand (word : String)
  | operation (operator : Operator) (left right : Expression)
  deriving DecidableEq, Repr

/-- The tokens are a product that means this expression. -/
inductive ReadsAsProduct : List Token → Expression → Prop
  | operand (word : String) : ReadsAsProduct [.operand word] (.operand word)
  | operation {tokens : List Token} {left : Expression} {operator : Operator}
      (scales : operator = .multiply ∨ operator = .divide) (reads : ReadsAsProduct tokens left)
      (word : String) :
      ReadsAsProduct (tokens ++ [.operator operator, .operand word])
        (.operation operator left (.operand word))

/-- The tokens are a sum that means this expression. -/
inductive Reads : List Token → Expression → Prop
  | product {tokens : List Token} {expression : Expression}
      (reads : ReadsAsProduct tokens expression) : Reads tokens expression
  | operation {tokens others : List Token} {left right : Expression} {operator : Operator}
      (adds : operator = .add ∨ operator = .subtract) (reads : Reads tokens left)
      (follows : ReadsAsProduct others right) :
      Reads (tokens ++ .operator operator :: others) (.operation operator left right)

/-- Words and operators alternate, with a word at both ends. -/
inductive Alternates : List Token → Prop
  | operand (word : String) : Alternates [.operand word]
  | operation (word : String) (operator : Operator) {rest : List Token}
      (alternates : Alternates rest) : Alternates (.operand word :: .operator operator :: rest)

/-! ## Alternating tokens -/

theorem checkFrom_eq_ok_iff (tokens : List Token) {position : Nat} (even : position % 2 = 0) :
    checkFrom position tokens = .ok () ↔ Alternates tokens := by
  have odd : ¬(position + 1) % 2 = 0 := by omega
  match tokens with
  | [] =>
    rw [checkFrom, if_pos even]
    exact iff_of_false nofun nofun
  | .operator operator :: rest =>
    rw [checkFrom, if_pos even]
    exact iff_of_false nofun nofun
  | [.operand word] =>
    rw [checkFrom, if_pos even, checkFrom, if_neg odd]
    exact iff_of_true rfl (.operand word)
  | .operand word :: .operand other :: rest =>
    rw [checkFrom, if_pos even, checkFrom, if_neg odd]
    exact iff_of_false nofun nofun
  | .operand word :: .operator operator :: rest =>
    rw [checkFrom, if_pos even, checkFrom, if_neg odd, checkFrom_eq_ok_iff rest (by omega)]
    constructor
    · intro alternates
      exact .operation word operator alternates
    · intro alternates
      cases alternates with
      | operation _ _ alternates => exact alternates

theorem check_eq_ok_iff (tokens : List Token) : check tokens = .ok () ↔ Alternates tokens :=
  checkFrom_eq_ok_iff tokens rfl

/-! ## There is a reading -/

/-- An operator with a word behind it continues what has been read: a product
takes the word into its last factor, a sum begins a new one. -/
theorem Reads.exists_continued {tokens : List Token} {expression : Expression}
    (reads : Reads tokens expression) (operator : Operator) (word : String) :
    ∃ continued, Reads (tokens ++ [.operator operator, .operand word]) continued := by
  have scaled (scales : operator = .multiply ∨ operator = .divide) :
      ∃ continued, Reads (tokens ++ [.operator operator, .operand word]) continued := by
    cases reads with
    | product reads => exact ⟨_, .product (.operation scales reads word)⟩
    | operation adds reads follows =>
      rw [List.append_assoc, List.cons_append]
      exact ⟨_, .operation adds reads (.operation scales follows word)⟩
  cases operator with
  | add => exact ⟨_, .operation (Or.inl rfl) reads (.operand word)⟩
  | subtract => exact ⟨_, .operation (Or.inr rfl) reads (.operand word)⟩
  | multiply => exact scaled (Or.inl rfl)
  | divide => exact scaled (Or.inr rfl)

theorem Alternates.exists_continued {rest : List Token} (alternates : Alternates rest)
    {tokens : List Token} {expression : Expression} (reads : Reads tokens expression)
    (operator : Operator) :
    ∃ continued, Reads (tokens ++ .operator operator :: rest) continued := by
  induction alternates generalizing tokens expression operator with
  | operand word => exact reads.exists_continued operator word
  | operation word next _ inductionHypothesis =>
    rcases reads.exists_continued operator word with ⟨longer, reads⟩
    have continued := inductionHypothesis reads next
    rw [List.append_assoc] at continued
    exact continued

theorem Alternates.exists_reads {tokens : List Token} (alternates : Alternates tokens) :
    ∃ expression, Reads tokens expression := by
  cases alternates with
  | operand word => exact ⟨_, .product (.operand word)⟩
  | operation word operator alternates =>
    exact alternates.exists_continued (.product (.operand word)) operator

/-! ## Postfix order -/

/-- The tokens of an expression, each operator behind its operands. -/
def Expression.inPostfixOrder : Expression → List Token
  | operand word => [.operand word]
  | operation operator left right =>
    left.inPostfixOrder ++ right.inPostfixOrder ++ [.operator operator]

/-- What may stand behind the operands of an operator: nothing, or an operator
that binds no tighter. -/
inductive Completes (operator : Operator) : List Token → Prop
  | nothing : Completes operator []
  | weaker {next : Operator} {rest : List Token}
      (binds : next.precedence ≤ operator.precedence) : Completes operator (.operator next :: rest)

variable {operator : Operator} {waiting : List Operator} {rest tokens : List Token}
  {expression : Expression}

/-- A waiting operator leaves the stack when its operands are complete. -/
theorem toPostfixFrom_cons (complete : Completes operator rest) :
    toPostfixFrom (operator :: waiting) rest =
      .operator operator :: toPostfixFrom waiting rest := by
  cases complete with
  | nothing => rfl
  | weaker binds =>
    simp only [toPostfixFrom, List.takeWhile_cons, List.dropWhile_cons, binds, decide_true, if_true,
      List.map_cons, List.cons_append]

/-- An operator enters the stack on top of weaker ones. -/
theorem toPostfixFrom_operator
    (weaker : ∀ other ∈ waiting, other.precedence < operator.precedence) :
    toPostfixFrom waiting (.operator operator :: rest) =
      toPostfixFrom (operator :: waiting) rest := by
  rw [toPostfixFrom]
  cases waiting with
  | nil => rfl
  | cons other others =>
    have loose : ¬operator.precedence ≤ other.precedence :=
      Nat.not_le_of_lt (weaker other List.mem_cons_self)
    simp only [List.takeWhile_cons, List.dropWhile_cons, loose, decide_false, Bool.false_eq_true,
      if_false, List.map_nil, List.nil_append]

theorem ReadsAsProduct.toPostfixFrom_append (reads : ReadsAsProduct tokens expression)
    (weaker : ∀ other ∈ waiting, other.precedence < Operator.precedence .multiply)
    (complete : Completes .multiply rest) :
    toPostfixFrom waiting (tokens ++ rest) =
      expression.inPostfixOrder ++ toPostfixFrom waiting rest := by
  induction reads generalizing rest with
  | operand word => rfl
  | @operation tokens left operator scales _ word inductionHypothesis =>
    have binds : operator.precedence = Operator.precedence .multiply := by
      rcases scales with rfl | rfl <;> rfl
    have ends : Completes operator rest := by
      cases complete with
      | nothing => exact .nothing
      | weaker tight => exact .weaker (binds.symm ▸ tight)
    have rewritten : tokens ++ [.operator operator, .operand word] ++ rest =
        tokens ++ .operator operator :: .operand word :: rest := List.append_assoc _ _ _
    rw [rewritten, inductionHypothesis (.weaker (Nat.le_of_eq binds)),
      toPostfixFrom_operator (binds.symm ▸ weaker), toPostfixFrom, toPostfixFrom_cons ends]
    simp only [Expression.inPostfixOrder, List.append_assoc, List.cons_append, List.nil_append]

/-- While a sum is read, at most one addition or subtraction waits, and it
waits for a product only. -/
theorem Reads.toPostfixFrom_append (reads : Reads tokens expression)
    (complete : Completes .add rest) :
    toPostfixFrom [] (tokens ++ rest) = expression.inPostfixOrder ++ toPostfixFrom [] rest := by
  have tighter {operator : Operator} {rest : List Token} (complete : Completes operator rest) :
      Completes .multiply rest := by
    cases complete with
    | nothing => exact .nothing
    | @weaker next => exact .weaker (by cases next <;> decide)
  induction reads generalizing rest with
  | product reads => exact reads.toPostfixFrom_append (List.forall_mem_nil _) (tighter complete)
  | @operation tokens others left right operator adds _ follows inductionHypothesis =>
    have binds : operator.precedence = Operator.precedence .add := by
      rcases adds with rfl | rfl <;> rfl
    have ends : Completes operator rest := by
      cases complete with
      | nothing => exact .nothing
      | weaker tight => exact .weaker (binds.symm ▸ tight)
    have alone : ∀ other ∈ [operator], other.precedence < Operator.precedence .multiply := by
      intro other member
      rw [List.mem_singleton.mp member, binds]
      decide
    have rewritten : tokens ++ .operator operator :: others ++ rest =
        tokens ++ .operator operator :: (others ++ rest) := List.append_assoc _ _ _
    rw [rewritten, inductionHypothesis (.weaker (Nat.le_of_eq binds)),
      toPostfixFrom_operator (List.forall_mem_nil _),
      follows.toPostfixFrom_append alone (tighter complete), toPostfixFrom_cons ends]
    simp only [Expression.inPostfixOrder, List.append_assoc, List.singleton_append]

/-- The stack of waiting operators finds the standard reading. -/
theorem Reads.toPostfix_eq (reads : Reads tokens expression) :
    toPostfix tokens = expression.inPostfixOrder := by
  have whole := reads.toPostfixFrom_append .nothing
  rw [List.append_nil] at whole
  rw [toPostfix, whole, toPostfixFrom, List.map_nil, List.append_nil]

/-! ## There is only one reading -/

/-- Builds expressions on a stack, whose top is first. -/
def Expression.assemble (stack : List Expression) : Token → List Expression
  | .operand word => .operand word :: stack
  | .operator operator =>
    match stack with
    | right :: left :: rest => .operation operator left right :: rest
    | _ => stack

theorem Expression.foldl_assemble (expression : Expression) (stack : List Expression) :
    expression.inPostfixOrder.foldl assemble stack = expression :: stack := by
  induction expression generalizing stack with
  | operand word => rfl
  | operation operator left right first second =>
    rw [inPostfixOrder, List.foldl_append, List.foldl_append, first, second]
    rfl

/-- An expression can be rebuilt from its postfix order. -/
theorem Expression.inPostfixOrder_injective {first second : Expression}
    (same : first.inPostfixOrder = second.inPostfixOrder) : first = second := by
  have rebuilt := second.foldl_assemble []
  rw [← same, first.foldl_assemble] at rebuilt
  exact (List.cons.inj rebuilt).1

theorem Reads.unique {other : Expression} (reads : Reads tokens expression)
    (again : Reads tokens other) : other = expression := by
  apply Expression.inPostfixOrder_injective
  rw [← reads.toPostfix_eq, ← again.toPostfix_eq]

/-! ## The parts of an expression -/

/-- The expression occurs in the other one. -/
inductive Expression.Part (part : Expression) : Expression → Prop
  | whole : Part part part
  | left {operator : Operator} {left right : Expression} (occurs : Part part left) :
      Part part (.operation operator left right)
  | right {operator : Operator} {left right : Expression} (occurs : Part part right) :
      Part part (.operation operator left right)

theorem Expression.operand_part_iff {word : String} (operator : Operator)
    (left right : Expression) :
    (operand word).Part (operation operator left right) ↔
      (operand word).Part left ∨ (operand word).Part right := by
  constructor
  · intro occurs
    cases occurs with
    | left occurs => exact Or.inl occurs
    | right occurs => exact Or.inr occurs
  · rintro (occurs | occurs)
    · exact .left occurs
    · exact .right occurs

theorem Expression.operand_part_operand_iff {word other : String} :
    (operand word).Part (operand other) ↔ word = other := by
  constructor
  · intro occurs
    cases occurs
    rfl
  · rintro rfl
    exact .whole

theorem ReadsAsProduct.mem_iff (reads : ReadsAsProduct tokens expression) (word : String) :
    .operand word ∈ tokens ↔ (Expression.operand word).Part expression := by
  induction reads with
  | operand other =>
    rw [List.mem_singleton, Token.operand.injEq, Expression.operand_part_operand_iff]
  | operation _ _ other inductionHypothesis =>
    rw [Expression.operand_part_iff, Expression.operand_part_operand_iff,
      ← inductionHypothesis]
    simp

/-- The operand words among the tokens are those of the expression. -/
theorem Reads.mem_iff (reads : Reads tokens expression) (word : String) :
    .operand word ∈ tokens ↔ (Expression.operand word).Part expression := by
  induction reads with
  | product reads => exact reads.mem_iff word
  | operation _ _ follows inductionHypothesis =>
    rw [Expression.operand_part_iff, ← inductionHypothesis, ← follows.mem_iff word]
    simp

end AddressExpression
end BranchPipeline
