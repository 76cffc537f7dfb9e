import BranchPipeline.Proofs.Instruction.Groups
import BranchPipeline.Proofs.Machine.Effects

namespace BranchPipeline

open Attempt

/-!
# Operations that cannot tell agreeing machines apart

Two machines agree if they differ at most in the registers of the pipeline and
in their counts of accesses.  A micro-operation that names none of these
registers, neither as its operand nor in an address expression, does the same
to both and gives the same value.  Nor does it matter to a micro-operation
whether it is marked as speculative.
-/

namespace AddressExpression

/-- The register that a token reads. -/
def Token.register? : Token → Option Register
  | operand word => operandRegister? word
  | operator _ => none

/-- No operand word of the expression is a register of the pipeline. -/
def Visible (expression : String) : Prop :=
  ∀ tokens, parse expression = .ok tokens → ∀ word, .operand word ∈ tokens →
    ∀ register, operandRegister? word = some register → register.isInternal = false

instance (expression : String) : Decidable (Visible expression) :=
  match parsed : parse expression with
  | .ok tokens =>
    decidable_of_iff
      (∀ token ∈ tokens, ∀ register ∈ token.register?, register.isInternal = false) <| by
        constructor
        · intro visible others same word member register named
          rw [parsed] at same
          cases same
          exact visible (.operand word) member register named
        · intro visible token member register named
          cases token with
          | operand word => exact visible tokens parsed word member register named
          | operator operator => cases named
  | .error reason => isTrue fun tokens same => by
      rw [parsed] at same
      cases same

/-- Sorting an expression into postfix order creates no operand words. -/
theorem mem_of_toPostfixFrom {waiting : List Operator} {tokens : List Token} {word : String}
    (member : .operand word ∈ toPostfixFrom waiting tokens) : .operand word ∈ tokens := by
  induction tokens generalizing waiting with
  | nil =>
    rcases List.mem_map.mp member with ⟨operator, -, impossible⟩
    cases impossible
  | cons token rest inductionHypothesis =>
    cases token with
    | operand other =>
      rcases List.mem_cons.mp member with same | member
      · rw [same]
        exact List.mem_cons_self
      · exact List.mem_cons_of_mem _ (inductionHypothesis member)
    | operator operator =>
      rcases List.mem_append.mp member with member | member
      · rcases List.mem_map.mp member with ⟨other, -, impossible⟩
        cases impossible
      · exact List.mem_cons_of_mem _ (inductionHypothesis member)

/-- The registers that the operand words of an expression name. -/
def registers (expression : String) : List Register :=
  match parse expression with
  | .ok tokens => tokens.filterMap Token.register?
  | .error _ => []

theorem Visible.internal {expression : String} (visible : Visible expression) :
    ∀ register ∈ registers expression, register.isInternal = false := by
  intro register member
  unfold registers at member
  split at member
  · rename_i tokens parsed
    rcases List.mem_filterMap.mp member with ⟨token, listed, named⟩
    cases token with
    | operand word => exact visible tokens parsed word listed register named
    | operator operator => cases named
  · cases member

variable {first second : RegisterFile}

/-- A word has one value in files that hold the same in the register it names. -/
theorem operandValue_congr {word : String}
    (same : ∀ register, operandRegister? word = some register →
      second.content register = first.content register) :
    operandValue second word = operandValue first word := by
  unfold operandValue
  unfold operandRegister? at same
  cases literal : Text.literal? word with
  | some value => rfl
  | none =>
    rw [literal] at same
    unfold RegisterRef.read
    cases found : RegisterRef.read? word with
    | none => rfl
    | some ref => simp only [RegisterFile.read, same ref.register (by simp [found])]

theorem foldlM_runToken_congr {tokens : List Token}
    (same : ∀ word, .operand word ∈ tokens → ∀ register, operandRegister? word = some register →
      second.content register = first.content register)
    (stack : List Int64) :
    tokens.foldlM (runToken second) stack = tokens.foldlM (runToken first) stack := by
  induction tokens generalizing stack with
  | nil => rfl
  | cons token rest inductionHypothesis =>
    have step : runToken second stack token = runToken first stack token := by
      cases token with
      | operand word =>
        rw [runToken, runToken, operandValue_congr (same word List.mem_cons_self)]
      | operator operator => rfl
    rw [List.foldlM_cons, List.foldlM_cons, step]
    congr 1
    funext next
    exact inductionHypothesis (fun word member => same word (List.mem_cons_of_mem _ member)) next

/-- An expression has one value in files that hold the same in the registers it
names. -/
theorem evaluate_congr {expression : String}
    (same : ∀ register ∈ registers expression,
      second.content register = first.content register) :
    evaluate second expression = evaluate first expression := by
  unfold evaluate
  unfold registers at same
  cases parsed : parse expression with
  | error reason => rfl
  | ok tokens =>
    rw [parsed] at same
    have named : ∀ word, .operand word ∈ toPostfix tokens →
        ∀ register, operandRegister? word = some register →
          second.content register = first.content register := by
      intro word member register named
      exact same register
        (List.mem_filterMap.mpr ⟨.operand word, mem_of_toPostfixFrom member, named⟩)
    show runPostfix second (toPostfix tokens) = runPostfix first (toPostfix tokens)
    rw [runPostfix, runPostfix, foldlM_runToken_congr named]

end AddressExpression

/-- The operand names no register of the pipeline. -/
def Operand.Visible : Operand → Prop
  | register ref => ref.register.isInternal = false
  | memory expression => AddressExpression.Visible expression
  | immediate _ | condition _ => True

instance (operand : Operand) : Decidable operand.Visible :=
  match operand with
  | .register ref => inferInstanceAs (Decidable (ref.register.isInternal = false))
  | .memory expression => inferInstanceAs (Decidable (AddressExpression.Visible expression))
  | .immediate _ | .condition _ => .isTrue trivial

/-- The micro-operation names no register of the pipeline. -/
def MicroOp.Visible (op : MicroOp) : Prop := ∀ operand, op.operand = some operand → operand.Visible

instance (op : MicroOp) : Decidable op.Visible :=
  inferInstanceAs (Decidable (∀ operand ∈ op.operand, operand.Visible))

namespace Machine

variable {first second : Machine}

theorem Agrees.address (agrees : first.Agrees second) {expression : String}
    (visible : AddressExpression.Visible expression) :
    second.registers.address expression = first.registers.address expression := by
  unfold RegisterFile.address
  rw [AddressExpression.evaluate_congr fun register named =>
    agrees.registers register (visible.internal register named)]

theorem Agrees.read (agrees : first.Agrees second) {ref : RegisterRef}
    (visible : ref.register.isInternal = false) :
    second.registers.read ref = first.registers.read ref := by
  unfold RegisterFile.read
  rw [agrees.registers ref.register visible]

/-- Writing the same value to the same register keeps machines in agreement. -/
theorem Agrees.writeRegister (agrees : first.Agrees second) (ref : RegisterRef) (value : UInt64) :
    (first.writeRegister ref value).Agrees (second.writeRegister ref value) where
  registers register visible := by
    show (second.registers.write ref value).content register =
      (first.registers.write ref value).content register
    rw [RegisterFile.write, RegisterFile.write]
    by_cases same : register = ref.register
    · rw [same, RegisterFile.content_put_self, RegisterFile.content_put_self,
        agrees.registers ref.register (same ▸ visible)]
    · rw [RegisterFile.content_put_of_ne _ _ _ _ same, RegisterFile.content_put_of_ne _ _ _ _ same]
      exact agrees.registers register visible
  flags := agrees.flags
  memory := agrees.memory
  output := agrees.output

/-! ## Blind operations -/

/-- What the operation does to a machine, it does to every machine that agrees
with it. -/
def Blind {α : Type} (attempt : Attempt Machine Fault α) : Prop :=
  ∀ ⦃first second after value⦄, first.Agrees second → attempt.Yields first value after →
    ∃ other, attempt.Yields second value other ∧ after.Agrees other

theorem Blind.bind {α β : Type} {attempt : Attempt Machine Fault α}
    {rest : α → Attempt Machine Fault β} (blind : Blind attempt)
    (others : ∀ value, Blind (rest value)) : Blind (attempt >>= rest) := by
  intro first second after value agrees ran
  rcases yields_bind.mp ran with ⟨result, middle, begins, ends⟩
  rcases blind agrees begins with ⟨between, starts, agrees⟩
  rcases others result agrees ends with ⟨other, finishes, agrees⟩
  exact ⟨other, yields_bind.mpr ⟨result, between, starts, finishes⟩, agrees⟩

theorem blind_pure {α : Type} (value : α) : Blind (pure value) := by
  intro first second after result agrees ran
  rcases yields_pure.mp ran with ⟨rfl, rfl⟩
  exact ⟨second, yields_pure.mpr ⟨rfl, rfl⟩, agrees⟩

theorem blind_throw {α : Type} (fault : Fault) : Blind (throw fault : Attempt Machine Fault α) := by
  intro first second after result agrees ran
  exact absurd ran yields_throw

theorem blind_ofExcept {ε α : Type} (wrap : ε → Fault) (result : Except ε α) :
    Blind (ofExcept wrap result) := by
  intro first second after value agrees ran
  rcases yields_ofExcept.mp ran with ⟨holds, rfl⟩
  exact ⟨second, yields_ofExcept.mpr ⟨holds, rfl⟩, agrees⟩

theorem blind_modify {change : Machine → Machine}
    (keeps : ∀ ⦃first second⦄, first.Agrees second → (change first).Agrees (change second)) :
    Blind (modify change) := by
  intro first second after value agrees ran
  rcases yields_modify.mp ran with rfl
  exact ⟨change second, yields_modify.mpr rfl, keeps agrees⟩

/-- An operation may look at the machine as far as agreeing machines are the
same. -/
theorem blind_get {α : Type} {rest : Machine → Attempt Machine Fault α}
    (blind : ∀ machine, Blind (rest machine))
    (same : ∀ ⦃first second⦄, first.Agrees second → rest second = rest first) :
    Blind (get >>= rest) := by
  intro first second after value agrees ran
  simp only [yields_bind, yields_get, and_assoc, exists_and_left, exists_eq_left] at ran ⊢
  rw [same agrees]
  exact blind first agrees ran

theorem blind_readRegister {ref : RegisterRef} (visible : ref.register.isInternal = false) :
    Blind (readRegister ref) := by
  intro first second after value agrees ran
  rcases yields_readRegister.mp ran with ⟨holds, rfl⟩
  rw [← agrees.read visible] at holds
  exact ⟨_, yields_readRegister.mpr ⟨holds, rfl⟩, ⟨agrees.registers, agrees.flags, agrees.memory,
    agrees.output⟩⟩

theorem blind_accumulator (width : Width) : Blind (readRegister (accumulator width)) :=
  blind_readRegister rfl

theorem blind_readCell (address : Address) : Blind (readCell address) := by
  intro first second after cell agrees ran
  rcases yields_readCell.mp ran with ⟨found, rfl⟩
  rw [← agrees.memory] at found
  exact ⟨_, yields_readCell.mpr ⟨found, rfl⟩, ⟨agrees.registers, agrees.flags, agrees.memory,
    agrees.output⟩⟩

theorem blind_readWord (address : Address) : Blind (readWord address) :=
  (blind_readCell address).bind fun _ => blind_ofExcept _ _

theorem blind_writeCell (address : Address) (cell : Cell) : Blind (writeCell address cell) := by
  intro first second after value agrees ran
  simp only [writeCell, yields_bind, yields_get, yields_set, yields_ofExcept, and_assoc,
    exists_and_left, exists_eq_left] at ran ⊢
  rcases ran with ⟨memory, changes, rfl⟩
  rw [← agrees.memory] at changes
  exact ⟨_, ⟨memory, changes, rfl⟩, ⟨agrees.registers, agrees.flags, rfl, agrees.output⟩⟩

theorem blind_effectiveAddress {expression : String}
    (visible : AddressExpression.Visible expression) : Blind (effectiveAddress expression) := by
  intro first second after address agrees ran
  rcases yields_effectiveAddress.mp ran with ⟨value, evaluates, positive, rfl⟩
  rw [← agrees.address visible] at evaluates
  exact ⟨_, yields_effectiveAddress.mpr ⟨value, evaluates, positive, rfl⟩, ⟨agrees.registers,
    agrees.flags, agrees.memory, agrees.output⟩⟩

/-! ## Blind micro-operations -/

theorem blind_readOperand {op : MicroOp} (visible : op.Visible) : Blind (readOperand op) := by
  unfold readOperand
  split
  · rename_i ref named
    refine (blind_readRegister ?_).bind fun value => blind_pure value.toInt64
    exact visible _ named
  · rename_i expression named
    exact (blind_effectiveAddress (visible _ named)).bind fun _ => blind_readWord _
  · exact blind_pure _
  · exact blind_throw _
  · exact blind_throw _

theorem blind_writeOperand {op : MicroOp} (visible : op.Visible) (value : UInt64) :
    Blind (writeOperand op value) := by
  unfold writeOperand
  split
  · exact blind_modify fun _ _ agrees => agrees.writeRegister _ _
  · rename_i expression named
    exact (blind_effectiveAddress (visible _ named)).bind fun _ => blind_writeCell _ _
  all_goals exact blind_throw _

theorem blind_setAccumulator (value : Int64) : Blind (setAccumulator value) :=
  blind_modify fun _ _ agrees => agrees.writeRegister _ _

theorem blind_operate {op : MicroOp} (visible : op.Visible) : Blind (operate op) := by
  unfold operate
  split
  · exact (blind_readOperand visible).bind fun _ => blind_setAccumulator _
  · exact (blind_accumulator _).bind fun _ => blind_writeOperand visible _
  · exact (blind_readOperand visible).bind fun _ =>
      (blind_accumulator _).bind fun _ => blind_setAccumulator _
  · exact (blind_readOperand visible).bind fun _ =>
      (blind_accumulator _).bind fun _ => blind_setAccumulator _
  · refine (blind_readOperand visible).bind fun _ => (blind_accumulator _).bind fun _ => ?_
    exact blind_modify fun _ _ agrees => ⟨agrees.registers, rfl, agrees.memory, agrees.output⟩
  all_goals exact blind_pure _

theorem blind_writeCells : Blind writeCells := by
  refine (blind_readRegister rfl).bind fun _ => (blind_ofExcept _ _).bind fun _ =>
    (blind_readRegister rfl).bind fun length => ?_
  intro first second after value agrees ran
  simp only [yields_bind, yields_get, yields_set, yields_ofExcept, and_assoc, exists_and_left,
    exists_eq_left] at ran ⊢
  rcases ran with ⟨cells, found, output, writes, rfl⟩
  rw [← agrees.memory] at found
  rw [← agrees.output] at writes
  exact ⟨_, ⟨cells, found, output, writes, rfl⟩, ⟨agrees.registers, agrees.flags, agrees.memory,
    rfl⟩⟩

theorem blind_systemCall : Blind systemCall := by
  refine (blind_accumulator _).bind fun number => ?_
  split
  · exact blind_writeCells.bind fun _ => blind_pure _
  · exact blind_pure _

/-- A micro-operation that is not a branch. -/
theorem blind_act {op : MicroOp} (visible : op.Visible) : Blind (act op) := by
  unfold act
  split
  · exact blind_systemCall
  · exact (blind_operate visible).bind fun _ => blind_pure _

/-- A branch depends on the flags and on the accumulator. -/
theorem blind_resolve (op : MicroOp) (location : UInt64) : Blind (resolve op location) := by
  unfold resolve
  split
  · apply blind_get
    · intro machine
      exact (blind_accumulator _).bind fun _ => (blind_ofExcept _ _).bind fun _ => blind_pure _
    · intro first second agrees
      rw [agrees.flags]
  · exact blind_throw _

/-! ## Speculative micro-operations -/

/-- The mark of a micro-operation shows in its faults only. -/
theorem yields_readOperand_marked {op : MicroOp} {speculative : Bool} {before after : Machine}
    {value : Int64} :
    (readOperand (op.marked speculative)).Yields before value after ↔
      (readOperand op).Yields before value after := by
  rcases op with ⟨opcode, operand, width, mark⟩
  rcases operand with _ | operand
  · exact iff_of_false yields_throw yields_throw
  · cases operand with
    | register | memory | immediate => exact Iff.rfl
    | condition =>
      exact iff_of_false yields_throw yields_throw

theorem yields_writeOperand_marked {op : MicroOp} {speculative : Bool} {before after : Machine}
    {value : UInt64} {done : Unit} :
    (writeOperand (op.marked speculative) value).Yields before done after ↔
      (writeOperand op value).Yields before done after := by
  rcases op with ⟨opcode, operand, width, mark⟩
  rcases operand with _ | operand
  · exact iff_of_false yields_throw yields_throw
  · cases operand with
    | register | memory => exact Iff.rfl
    | immediate | condition =>
      exact iff_of_false yields_throw yields_throw

theorem yields_act_marked {op : MicroOp} {speculative : Bool} {before after : Machine}
    {exits : Bool} :
    (act (op.marked speculative)).Yields before exits after ↔
      (act op).Yields before exits after := by
  have same : (op.marked speculative).opcode = op.opcode := rfl
  have width : (op.marked speculative).width = op.width := rfl
  cases opcode : op.opcode <;>
    simp only [act, operate, same, width, opcode, yields_bind, yields_readOperand_marked,
      yields_writeOperand_marked]

theorem yields_resolve_marked {op : MicroOp} {speculative : Bool} {location : UInt64}
    {before after : Machine} {resolution : Resolution} :
    (resolve (op.marked speculative) location).Yields before resolution after ↔
      (resolve op location).Yields before resolution after := by
  rcases op with ⟨opcode, operand, width, mark⟩
  rcases operand with _ | operand
  · exact iff_of_false yields_throw yields_throw
  · cases operand with
    | condition => exact Iff.rfl
    | register | memory | immediate =>
      exact iff_of_false yields_throw yields_throw

end Machine
end BranchPipeline
