import BranchPipeline.Proofs.Instruction.Operands
import BranchPipeline.Proofs.Machine.FailedEffects

namespace BranchPipeline

open Attempt

/-!
# Registers that hold numbers

Fetch leaves the text of an instruction in two registers of the pipeline.  No
micro-operation can write to these, and none writes anything but a number, so
every other register can always be read as a number.  What a micro-operation
cannot read is therefore one of these two, and it names that register itself.
-/

/-- The registers in which fetch leaves an instruction. -/
def Register.latchesText : Register → Bool
  | mbr | cir => true
  | _ => false

theorem Register.latchesText_iff {register : Register} :
    register.latchesText = true ↔ register = mbr ∨ register = cir := by
  cases register <;> simp [latchesText]

namespace RegisterFile

/-- Every register holds a number, except those in which fetch leaves an
instruction. -/
def Numeric (file : RegisterFile) : Prop :=
  ∀ register, register.latchesText = false → ∃ value, file.content register = .number value

variable {file : RegisterFile}

theorem numeric_default : Numeric {} := by
  intro register _
  exact ⟨0, by simp [content]⟩

/-- Writing a number makes no register a text. -/
theorem Numeric.write (numeric : file.Numeric) (ref : RegisterRef) (value : UInt64) :
    (file.write ref value).Numeric := by
  intro register plain
  by_cases same : register = ref.register
  · subst same
    exact ⟨_, content_put_self _ _ _⟩
  · rw [RegisterFile.write, content_put_of_ne _ _ _ _ same]
    exact numeric register plain

/-- An instruction's text may be put where fetch leaves it. -/
theorem Numeric.writeText (numeric : file.Numeric) {register : Register}
    (latches : register.latchesText = true) (token : String) :
    (file.writeText register token).Numeric := by
  intro other plain
  have different : other ≠ register := by
    rintro rfl
    rw [latches] at plain
    cases plain
  rw [RegisterFile.writeText, content_put_of_ne _ _ _ _ different]
  exact numeric other plain

/-- Only a text keeps a register from being read as a number. -/
theorem content_of_read {ref : RegisterRef} {fault : RegisterFault}
    (failed : file.read ref = .error fault) :
    fault = .notNumeric ref.register ∧ ∃ token, file.content ref.register = .text token := by
  unfold read at failed
  split at failed
  · cases failed
  · rename_i token holds
    cases failed
    exact ⟨rfl, token, holds⟩

/-- A text only stands where fetch leaves an instruction. -/
theorem Numeric.latches_of_text (numeric : file.Numeric) {register : Register} {token : String}
    (holds : file.content register = .text token) : register.latchesText = true := by
  cases latches : register.latchesText with
  | true => rfl
  | false =>
    rcases numeric register latches with ⟨value, number⟩
    cases holds.symm.trans number

end RegisterFile

/-! ## Address expressions -/

namespace AddressExpression

variable {file : RegisterFile} {register : Register}

/-- Only an operand word can name a register that holds a text. -/
theorem register_of_operandValue {word : String}
    (failed : operandValue file word = .error (.register (.notNumeric register))) :
    operandRegister? word = some register ∧ ∃ token, file.content register = .text token := by
  unfold operandValue at failed
  split at failed
  · cases failed
  · rename_i other
    unfold RegisterRef.read at failed
    cases found : RegisterRef.read? word with
    | none =>
      rw [found] at failed
      cases failed
    | some ref =>
      rw [found] at failed
      simp only at failed
      cases reads : file.read ref with
      | ok value =>
        rw [reads] at failed
        cases failed
      | error fault =>
        rw [reads] at failed
        rcases RegisterFile.content_of_read reads with ⟨rfl, holds⟩
        cases failed
        exact ⟨by rw [operandRegister?, other, found]; rfl, holds⟩

/-- An evaluation that finds a text has read the register that holds it. -/
theorem consulted_of_foldlM {tokens : List Token} {stack : List Int64}
    (failed : tokens.foldlM (runToken file) stack = .error (.register (.notNumeric register))) :
    register ∈ consultedFrom file stack tokens ∧
      ∃ token, file.content register = .text token := by
  induction tokens generalizing stack with
  | nil => cases failed
  | cons token rest inductionHypothesis =>
    rw [List.foldlM_cons] at failed
    unfold consultedFrom
    cases ran : runToken file stack token with
    | ok next =>
      rw [ran] at failed
      rcases inductionHypothesis failed with ⟨member, holds⟩
      exact ⟨List.mem_append_right _ member, holds⟩
    | error reason =>
      rw [ran] at failed
      cases failed
      cases token with
      | operand word =>
        rw [runToken] at ran
        cases value : operandValue file word with
        | ok number =>
          rw [value] at ran
          cases ran
        | error reason =>
          rw [value] at ran
          cases ran
          rcases register_of_operandValue value with ⟨named, holds⟩
          exact ⟨by simp [named], holds⟩
      | operator operator =>
        simp only [runToken] at ran
        split at ran
        · split at ran <;> cases ran
        · cases ran

theorem checkFrom_ne_register (tokens : List Token) (position : Nat) (fault : RegisterFault) :
    checkFrom position tokens ≠ .error (.register fault) := by
  induction tokens generalizing position with
  | nil =>
    rw [checkFrom]
    split <;> nofun
  | cons token rest inductionHypothesis =>
    cases token with
    | operand word =>
      rw [checkFrom]
      split
      · exact inductionHypothesis _
      · nofun
    | operator operator =>
      rw [checkFrom]
      split
      · nofun
      · exact inductionHypothesis _

/-- Finding the tokens of an expression needs no register. -/
theorem parse_ne_register (expression : String) (fault : RegisterFault) :
    parse expression ≠ .error (.register fault) := by
  intro failed
  unfold parse at failed
  cases tokenized : tokenize (strip expression) with
  | error reason =>
    rw [tokenized] at failed
    cases failed
    unfold tokenize at tokenized
    split at tokenized <;> cases tokenized
  | ok tokens =>
    rw [tokenized] at failed
    cases checked : check tokens with
    | ok _ =>
      change (check tokens >>= fun _ => pure tokens) = _ at failed
      rw [checked] at failed
      cases failed
    | error reason =>
      change (check tokens >>= fun _ => pure tokens) = _ at failed
      rw [checked] at failed
      cases failed
      exact checkFrom_ne_register tokens 0 fault checked

theorem consulted_of_evaluate {expression : String}
    (failed : evaluate file expression = .error (.register (.notNumeric register))) :
    register ∈ consulted file expression ∧ ∃ token, file.content register = .text token := by
  unfold evaluate at failed
  unfold consulted
  cases parsed : parse expression with
  | error reason =>
    rw [parsed] at failed
    cases failed
    exact absurd parsed (parse_ne_register _ _)
  | ok tokens =>
    rw [parsed] at failed
    change runPostfix file (toPostfix tokens) = _ at failed
    unfold runPostfix at failed
    cases ran : (toPostfix tokens).foldlM (runToken file) [] with
    | error reason =>
      rw [ran] at failed
      cases failed
      exact consulted_of_foldlM ran
    | ok stack =>
      rw [ran] at failed
      match stack, failed with
      | [], failed | [_], failed | _ :: _ :: _, failed => cases failed

end AddressExpression

/-! ## Faults of a micro-operation -/

namespace Fault

/-- Neither had a micro-operation nothing that it could act on, nor was a text
read as a number. -/
def Plain : Fault → Prop
  | unexpectedOperand _ => False
  | register (.notNumeric _) => False
  | address ⟨_, .register (.notNumeric _)⟩ => False
  | _ => True

/-- If a text was read as a number, then it is that of an instruction, and the
micro-operation itself reads the register: as its operand, or as an operand of
its address expression. -/
def DueTo (op : MicroOp) (file : RegisterFile) : Fault → Prop
  | unexpectedOperand _ => False
  | register (.notNumeric read) => read.latchesText = true ∧ op.opcode ≠ .store ∧
    ∃ width, op.operand = some (.register ⟨read, width⟩)
  | address ⟨expression, .register (.notNumeric read)⟩ => read.latchesText = true ∧
    op.operand = some (.memory expression) ∧ read ∈ AddressExpression.consulted file expression
  | _ => True

theorem Plain.dueTo {fault : Fault} (plain : fault.Plain) (op : MicroOp) (file : RegisterFile) :
    fault.DueTo op file := by
  unfold DueTo
  split
  · exact plain
  · exact plain.elim
  · exact plain.elim
  · trivial

end Fault

namespace Machine

variable {machine before after : Machine} {op : MicroOp} {allowed : Fault → Prop}

theorem Untouched.numeric (untouched : before.Untouched after)
    (numeric : before.registers.Numeric) : after.registers.Numeric :=
  untouched.registers ▸ numeric

/-- A register in which fetch leaves no instruction can be read. -/
theorem failsOnly_readRegister_of_numeric (numeric : machine.registers.Numeric)
    {ref : RegisterRef} (plain : ref.register.latchesText = false) :
    (readRegister ref).FailsOnly machine allowed := by
  rcases numeric ref.register plain with ⟨number, holds⟩
  have reads : machine.registers.read ref = .ok (ref.width.truncate number) := by
    rw [RegisterFile.read, holds]
  exact Yields.failsOnly (yields_readRegister.mpr ⟨reads, rfl⟩)

theorem failsOnly_readCell_plain (address : Address) :
    (readCell address).FailsOnly machine Fault.Plain := by
  simp [readCell, Fault.Plain]

theorem failsOnly_readToken_plain (address : Address) :
    (readToken address).FailsOnly machine Fault.Plain := by
  simp [readToken, failsOnly_readCell_plain, Fault.Plain]

/-! ## What a micro-operation cannot read -/

theorem failsOnly_effectiveAddress_dueTo (numeric : machine.registers.Numeric)
    {expression : String} (named : op.operand = some (.memory expression)) :
    (effectiveAddress expression).FailsOnly machine (Fault.DueTo op machine.registers) := by
  have evaluates (fault : AddressFault)
      (failed : machine.registers.address expression = .error fault) :
      Fault.DueTo op machine.registers (.address fault) := by
    unfold RegisterFile.address at failed
    split at failed
    · cases failed
    · rename_i reason failed'
      cases failed
      unfold Fault.DueTo
      split
      · rename_i impossible
        cases impossible
      · rename_i impossible
        cases impossible
      · rename_i same
        cases same
        rcases AddressExpression.consulted_of_evaluate failed' with ⟨member, token, holds⟩
        exact ⟨numeric.latches_of_text holds, named, member⟩
      · trivial
  simp only [effectiveAddress, failsOnly_bind, failsOnly_get, failsOnly_set, failsOnly_ofExcept,
    yields_get, true_and]
  rintro current middle ⟨rfl, rfl⟩ _ changed _
  exact ⟨evaluates, fun _ _ _ _ _ => trivial⟩

/-- Reading an operand goes wrong only over what the operand names. -/
theorem failsOnly_readOperand_dueTo (numeric : machine.registers.Numeric)
    (reads : op.opcode ≠ .store)
    (readable : ∃ operand, op.operand = some operand ∧ operand.isReadable = true) :
    (readOperand op).FailsOnly machine (Fault.DueTo op machine.registers) := by
  rcases readable with ⟨operand, named, readable⟩
  unfold readOperand
  rw [named]
  cases operand with
  | register ref =>
    simp only [failsOnly_bind]
    refine ⟨?_, by simp⟩
    simp only [readRegister, failsOnly_bind, failsOnly_modify, failsOnly_get, failsOnly_ofExcept,
      yields_modify, yields_get, true_and]
    rintro _ _ rfl _ _ ⟨rfl, rfl⟩ fault failed
    rcases RegisterFile.content_of_read failed with ⟨rfl, token, holds⟩
    exact ⟨numeric.latches_of_text holds, reads, ref.width, named⟩
  | memory expression =>
    simp only [failsOnly_bind]
    refine ⟨failsOnly_effectiveAddress_dueTo numeric named, ?_⟩
    intro address middle _
    have plain : (readWord address).FailsOnly middle Fault.Plain := by
      simp [readWord, failsOnly_readCell_plain, Fault.Plain]
    exact fun fault after fails => (plain fault after fails).dueTo op _
  | immediate value => exact failsOnly_pure
  | condition met => cases readable

/-- The accumulator can be read behind everything that only reads. -/
theorem failsOnly_accumulator (numeric : machine.registers.Numeric)
    (untouched : machine.Untouched after) (width : Width) :
    (readRegister (accumulator width)).FailsOnly after allowed :=
  failsOnly_readRegister_of_numeric (untouched.numeric numeric) rfl

theorem failsOnly_writeOperand_dueTo (numeric : machine.registers.Numeric) (value : UInt64)
    (writable : ∃ target, op.operand = some target ∧ target.isWritable = true) :
    (writeOperand op value).FailsOnly machine (Fault.DueTo op machine.registers) := by
  rcases writable with ⟨target, named, writable⟩
  unfold writeOperand
  rw [named]
  cases target with
  | register ref => simp
  | memory expression =>
    simp only [failsOnly_bind]
    refine ⟨failsOnly_effectiveAddress_dueTo numeric named, ?_⟩
    intro address middle _
    have plain : (writeCell address (.word value.toInt64)).FailsOnly middle Fault.Plain := by
      simp [writeCell, Fault.Plain]
    exact fun fault after fails => (plain fault after fails).dueTo op _
  | immediate value => cases writable
  | condition met => cases writable

/-- A micro-operation that has something to act on goes wrong only over what it
names. -/
theorem failsOnly_operate_dueTo (numeric : machine.registers.Numeric) (apt : op.Apt) :
    (operate op).FailsOnly machine (Fault.DueTo op machine.registers) := by
  unfold MicroOp.Apt at apt
  have combines {rest : Int64 → UInt64 → Attempt Machine Fault Unit} (reads : op.opcode ≠ .store)
      (readable : ∃ operand, op.operand = some operand ∧ operand.isReadable = true)
      (others : ∀ value current middle, (rest value current).FailsOnly middle
        (Fault.DueTo op machine.registers)) :
      (do
        let value ← readOperand op
        let current ← readRegister (accumulator .quad)
        rest value current).FailsOnly machine (Fault.DueTo op machine.registers) := by
    simp only [failsOnly_bind]
    refine ⟨failsOnly_readOperand_dueTo numeric reads readable, fun value middle ends => ?_⟩
    exact ⟨failsOnly_accumulator numeric (untouched_of_readOperand ends) _,
      fun current later _ => others value current later⟩
  unfold operate
  cases code : op.opcode with
  | load =>
    rw [code] at apt
    simp only [setAccumulator, failsOnly_bind]
    exact ⟨failsOnly_readOperand_dueTo numeric (by simp [code]) apt, by simp⟩
  | store =>
    rw [code] at apt
    simp only [failsOnly_bind]
    refine ⟨failsOnly_readRegister_of_numeric numeric rfl, ?_⟩
    intro value middle reads
    have same := (untouched_of_readRegister reads).registers
    have writes := failsOnly_writeOperand_dueTo (same ▸ numeric) value apt
    rw [same] at writes
    exact writes
  | add | subtract | compare =>
    rw [code] at apt
    exact combines (by simp [code]) apt (by simp [setAccumulator])
  | jump | systemCall | idle => exact failsOnly_pure

/-- A branch finds its target in the accumulator, and a condition in its operand. -/
theorem failsOnly_resolve_plain (numeric : machine.registers.Numeric)
    (conditional : ∃ condition, op.operand = some (.condition condition)) (location : UInt64) :
    (resolve op location).FailsOnly machine Fault.Plain := by
  rcases conditional with ⟨condition, named⟩
  unfold resolve
  rw [named]
  simp only [failsOnly_bind, failsOnly_get, yields_get, true_and]
  rintro _ _ ⟨rfl, rfl⟩
  exact ⟨failsOnly_readRegister_of_numeric numeric rfl, by simp [Fault.Plain]⟩

/-- A system call reads no register but those of a program. -/
theorem failsOnly_systemCall_plain (numeric : machine.registers.Numeric) :
    systemCall.FailsOnly machine Fault.Plain := by
  simp only [systemCall, failsOnly_bind]
  refine ⟨failsOnly_readRegister_of_numeric numeric rfl, ?_⟩
  intro number first reads
  have numeric := (untouched_of_readRegister reads).numeric numeric
  split
  · simp only [writeCells, failsOnly_bind, failsOnly_ofExcept, failsOnly_pure, yields_ofExcept]
    refine ⟨⟨failsOnly_readRegister_of_numeric numeric rfl, ?_⟩, by simp⟩
    intro start second reads
    have numeric := (untouched_of_readRegister reads).numeric numeric
    refine ⟨fun _ _ => trivial, ?_⟩
    rintro address _ ⟨-, rfl⟩
    refine ⟨failsOnly_readRegister_of_numeric numeric rfl, ?_⟩
    simp [Fault.Plain]
  · simp

/-! ## What a micro-operation leaves -/

/-- A micro-operation writes numbers only. -/
theorem numeric_of_operate (numeric : before.registers.Numeric)
    (operates : (operate op).Yields before () after) : after.registers.Numeric := by
  unfold operate at operates
  split at operates
  case h_1 =>
    simp only [setAccumulator, yields_bind, yields_modify] at operates
    rcases operates with ⟨value, middle, reads, rfl⟩
    exact ((untouched_of_readOperand reads).numeric numeric).write _ _
  case h_2 =>
    rcases yields_bind.mp operates with ⟨value, middle, reads, writes⟩
    have numeric := (untouched_of_readRegister reads).numeric numeric
    unfold writeOperand at writes
    split at writes
    · rw [yields_modify] at writes
      subst writes
      exact numeric.write _ _
    · simp only [yields_bind, writeCell, yields_get, yields_set, yields_ofExcept, and_assoc,
        exists_and_left, exists_eq_left] at writes
      rcases writes with ⟨address, found, finds, memory, -, rfl⟩
      exact (untouched_of_effectiveAddress finds).numeric numeric
    all_goals exact absurd writes yields_throw
  case h_3 | h_4 =>
    simp only [setAccumulator, yields_bind, yields_modify] at operates
    rcases operates with ⟨value, first, reads, current, second, counts, rfl⟩
    exact (((untouched_of_readOperand reads).trans
      (untouched_of_readRegister counts)).numeric numeric).write _ _
  case h_5 =>
    simp only [yields_bind, yields_modify] at operates
    rcases operates with ⟨value, first, reads, current, second, counts, rfl⟩
    exact ((untouched_of_readOperand reads).trans
      (untouched_of_readRegister counts)).numeric numeric
  all_goals
    rcases yields_pure.mp operates with ⟨-, rfl⟩
    exact numeric

end Machine
end BranchPipeline
