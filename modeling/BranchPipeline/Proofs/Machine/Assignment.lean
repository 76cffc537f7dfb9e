import BranchPipeline.Proofs.AddressExpression.Value
import BranchPipeline.Proofs.Instruction.Language
import BranchPipeline.Proofs.Machine.Agreement

namespace BranchPipeline

open Attempt

/-!
# What an assignment does

Three instructions change their first operand: one moves a value there, the
others count it up or down by one.  All of them pass the value through the
accumulator.  The address of the target is found after the accumulator has been
overwritten, so it must not depend on it; then the instruction as a whole does
what it says about the machine in front of it, and nothing else.

The widths of the two ends need not be the same.  A source register is read no
wider than the narrowest register among the operands, the accumulator takes the
value whole, the bytes of the narrowest width are taken from there, and the target
register takes them at its own width.
-/

/-- A register that is no narrower than an operation is read at the width of the
operation. -/
theorem Width.bytes_narrower {own asked : Width} (fits : asked.bytes ≤ own.bytes) :
    (own.narrower asked).bytes = asked.bytes := by
  unfold narrower
  split
  · rename_i less
    exact Nat.le_antisymm less fits
  · rfl

/-! ## Assignments -/

/-- Nothing about the operand depends on the register, be it a destination or part
of an address. -/
def Operand.Avoids (register : Register) : Operand → Prop
  | .register ref => ref.register ≠ register
  | .memory expression => register ∉ AddressExpression.registers expression
  | .immediate _ | .condition _ => True

instance (register : Register) (operand : Operand) : Decidable (operand.Avoids register) :=
  match operand with
  | .register ref => inferInstanceAs (Decidable (ref.register ≠ register))
  | .memory expression =>
    inferInstanceAs (Decidable (register ∉ AddressExpression.registers expression))
  | .immediate _ | .condition _ => .isTrue trivial

namespace Machine

/-- The expression has an address as its value. -/
def Addresses (machine : Machine) (expression : String) (address : Address) : Prop :=
  ∃ value, machine.registers.address expression = .ok value ∧ Address.ofInt64 value = .ok address

/-- What an instruction of this width finds in an operand: the literal, the low
bytes of a register, extended by zeros, or the word in a cell. -/
inductive Holds (machine : Machine) (width : Width) : Operand → UInt64 → Prop
  | immediate (value : Int64) : Holds machine width (.immediate value) value.toUInt64
  | register {ref : RegisterRef} {bits : UInt64}
      (holds : machine.registers.content ref.register = .number bits) :
      Holds machine width (.register ref) (UInt64.ofNat (bits.toNat % 2 ^ (8 * width.bytes)))
  | memory {expression : String} {address : Address} {value : Int64}
      (addresses : machine.Addresses expression address)
      (holds : machine.memory.get address = .ok (.word value)) :
      Holds machine width (.memory expression) value.toUInt64

end Machine

/-- How the value comes about that an instruction gives to its target. -/
inductive Change where
  | move (source : Operand)
  | increment
  | decrement
  deriving DecidableEq, Repr

namespace Change

/-- The operands of the instruction with this target. -/
def operands (target : Operand) : Change → List Operand
  | move source => [target, source]
  | increment | decrement => [target]

/-- What the instruction expands into. -/
def steps (target : Operand) : Change → List (MicroOpcode × Option Operand)
  | move source => [(.load, some source), (.store, some target)]
  | increment => [(.load, some target), (.add, some (.immediate 1)), (.store, some target)]
  | decrement => [(.load, some target), (.subtract, some (.immediate 1)), (.store, some target)]

/-- The value that the change leads to. -/
inductive Results (before : Machine) (width : Width) (target : Operand) : Change → UInt64 → Prop
  | move {source : Operand} {value : UInt64} (holds : before.Holds width source value) :
      Results before width target (move source) value
  | increment {value : UInt64} (holds : before.Holds width target value) :
      Results before width target increment (value + 1)
  | decrement {value : UInt64} (holds : before.Holds width target value) :
      Results before width target decrement (value - 1)

end Change

namespace Machine

/-- What the target of an assignment holds afterwards: a register the number in its
low bytes and the others from before, and the addressed cell the whole number. -/
inductive Stored (before after : Machine) (number : Nat) : Operand → Prop
  | register {ref : RegisterRef} {bits : UInt64}
      (holds : after.registers.content ref.register = .number bits)
      (low : bits.toNat % 2 ^ (8 * ref.width.bytes) = number % 2 ^ (8 * ref.width.bytes))
      (high : bits.toNat / 2 ^ (8 * ref.width.bytes) =
        (before.registers.content ref.register).bytes.toNat / 2 ^ (8 * ref.width.bytes)) :
      Stored before after number (.register ref)
  | memory {expression : String} {address : Address}
      (addresses : before.Addresses expression address)
      (holds : after.memory.get address = .ok (.word (UInt64.ofNat number).toInt64)) :
      Stored before after number (.memory expression)

/-- The machine after an assignment differs in the accumulator and in the target,
apart from its counts of accesses. -/
structure Assigned (before : Machine) (target : Operand) (width : Width) (value : UInt64)
    (after : Machine) : Prop where
  accumulator : after.registers.content .rax = .number value
  stored : Stored before after (value.toNat % 2 ^ (8 * width.bytes)) target
  registers : ∀ register, register ≠ .rax →
    (∀ ref, target = .register ref → ref.register ≠ register) →
    after.registers.content register = before.registers.content register
  cells : ∀ address, (∀ expression, target = .memory expression →
      ¬ before.Addresses expression address) →
    after.memory.get address = before.memory.get address
  textSection : after.memory.textSection = before.memory.textSection
  flags : after.registers.flags = before.registers.flags
  output : after.output = before.output

/-! ## Passing a value through the accumulator -/

/-- The machine differs in the accumulator, which has this value, and in its counts
of accesses. -/
structure Accumulates (before : Machine) (value : UInt64) (after : Machine) : Prop where
  holds : after.registers.content .rax = .number value
  registers : ∀ register, register ≠ .rax →
    after.registers.content register = before.registers.content register
  flags : after.registers.flags = before.registers.flags
  memory : after.memory = before.memory
  output : after.output = before.output

section

variable {before middle after : Machine} {operand target : Operand} {width : Width}
  {speculative : Bool} {value : UInt64}

theorem Untouched.accumulates (untouched : before.Untouched middle) (value : UInt64) :
    before.Accumulates value (middle.writeRegister (accumulator .quad) value) where
  holds := RegisterFile.content_write_full _ _ _
  registers register different := by
    rw [← untouched.registers]
    exact RegisterFile.content_put_of_ne _ _ _ _ different
  flags := by
    rw [← untouched.registers]
    rfl
  memory := untouched.memory
  output := untouched.output

/-- Two values in the accumulator after another: the first leaves no trace. -/
theorem Accumulates.trans {first second : UInt64} (earlier : before.Accumulates first middle)
    (later : middle.Accumulates second after) : before.Accumulates second after where
  holds := later.holds
  registers register different :=
    (later.registers register different).trans (earlier.registers register different)
  flags := later.flags.trans earlier.flags
  memory := later.memory.trans earlier.memory
  output := later.output.trans earlier.output

/-- Whatever avoids the accumulator has the address from before. -/
theorem Accumulates.addresses_iff (accumulates : before.Accumulates value middle)
    {expression : String} (avoids : Operand.Avoids .rax (.memory expression)) {address : Address} :
    middle.Addresses expression address ↔ before.Addresses expression address := by
  have same : middle.registers.address expression = before.registers.address expression := by
    unfold RegisterFile.address
    rw [AddressExpression.evaluate_congr fun register named =>
      accumulates.registers register fun accumulator => avoids (accumulator ▸ named)]
  rw [Addresses, Addresses, same]

/-- An operand that is read is found to hold what is read, provided that the width
is no wider than the operand. -/
theorem holds_of_readOperand {value : Int64} {opcode : MicroOpcode}
    (fits : ∀ ref, operand = .register ref → width.bytes ≤ ref.width.bytes)
    (reads : (readOperand ⟨opcode, some operand, width, speculative⟩).Yields before value after) :
    before.Holds width operand value.toUInt64 := by
  cases operand with
  | register ref =>
    simp only [readOperand, yields_bind, yields_readRegister, yields_pure] at reads
    rcases reads with ⟨found, middle, ⟨read, -⟩, rfl, -⟩
    cases content : before.registers.content ref.register with
    | text token =>
      rw [RegisterFile.read, content] at read
      cases read
    | number bits =>
      have low := @AddressExpression.read_eq_of_content before.registers
        ⟨ref.register, ref.width.narrower width⟩ bits content
      rw [low, Width.bytes_narrower (fits ref rfl)] at read
      cases read
      exact .register content
  | memory expression =>
    simp only [readOperand, yields_bind, yields_readWord] at reads
    rcases reads with ⟨address, middle, finds, cell, reads, word⟩
    rcases yields_effectiveAddress.mp finds with ⟨number, evaluates, positive, rfl⟩
    rcases yields_readCell.mp reads with ⟨found, -⟩
    cases cell with
    | token text => cases word
    | word held =>
      cases word
      exact .memory ⟨number, evaluates, positive⟩ found
  | immediate literal =>
    rcases yields_pure.mp reads with ⟨rfl, -⟩
    exact .immediate _
  | condition met => exact absurd reads yields_throw

/-! ## The steps of an assignment -/

theorem accumulates_of_load
    (fits : ∀ ref, operand = .register ref → width.bytes ≤ ref.width.bytes)
    (loads : (operate ⟨.load, some operand, width, speculative⟩).Yields before () after) :
    ∃ value, before.Holds width operand value ∧ before.Accumulates value after := by
  simp only [operate, setAccumulator, yields_bind, yields_modify] at loads
  rcases loads with ⟨value, middle, reads, rfl⟩
  exact ⟨value.toUInt64, holds_of_readOperand fits reads,
    (untouched_of_readOperand reads).accumulates _⟩

/-- The accumulator is read back at any width. -/
theorem Accumulates.read (accumulates : before.Accumulates value middle) {found : UInt64}
    (reads : (readRegister (accumulator width)).Yields middle found after) :
    found = width.truncate value ∧ before.Accumulates value after := by
  rcases yields_readRegister.mp reads with ⟨read, rfl⟩
  have low : middle.registers.read (accumulator width) = .ok (width.truncate value) := by
    simp only [RegisterFile.read, accumulator, accumulates.holds]
  rw [low] at read
  exact ⟨(Except.ok.inj read).symm, accumulates.holds, accumulates.registers, accumulates.flags,
    accumulates.memory, accumulates.output⟩

/-- What an addition and a subtraction have in common. -/
theorem Accumulates.combined (combine : Int64 → Int64 → Int64) {opcode : MicroOpcode}
    {literal : Int64} (accumulates : before.Accumulates value middle)
    (combines : (do
      let found ← readOperand ⟨opcode, some (.immediate literal), width, speculative⟩
      let current ← readRegister (accumulator .quad)
      setAccumulator (combine current.toInt64 found)).Yields middle () after) :
    before.Accumulates (combine value.toInt64 literal).toUInt64 after := by
  simp only [readOperand, setAccumulator, yields_bind, yields_pure, yields_modify] at combines
  rcases combines with ⟨literal, _, ⟨rfl, rfl⟩, current, counted, reads, rfl⟩
  have whole := (accumulates.read reads).1
  rw [Width.truncate_quad] at whole
  rw [whole]
  exact accumulates.trans ((untouched_of_readRegister reads).accumulates _)

theorem Accumulates.add {literal : Int64} (accumulates : before.Accumulates value middle)
    (adds : (operate ⟨.add, some (.immediate literal), width, speculative⟩).Yields middle ()
      after) :
    before.Accumulates (value + literal.toUInt64) after := by
  have sum := accumulates.combined (· + ·) adds
  rwa [Int64.toUInt64_add, UInt64.toUInt64_toInt64] at sum

theorem Accumulates.subtract {literal : Int64} (accumulates : before.Accumulates value middle)
    (subtracts : (operate ⟨.subtract, some (.immediate literal), width, speculative⟩).Yields middle
      () after) :
    before.Accumulates (value - literal.toUInt64) after := by
  have difference := accumulates.combined (· - ·) subtracts
  rwa [Int64.toUInt64_sub, UInt64.toUInt64_toInt64] at difference

theorem Accumulates.assigned_register (accumulates : before.Accumulates value middle)
    {ref : RegisterRef} (avoids : ref.register ≠ .rax) :
    before.Assigned (.register ref) width value
      (middle.writeRegister ref (width.truncate value)) where
  accumulator :=
    (RegisterFile.content_put_of_ne _ _ _ _ avoids.symm).trans accumulates.holds
  stored := by
    refine .register (RegisterFile.content_put_self _ _ _) ?_ ?_
    · rw [Width.overwrite_low, Width.toNat_truncate]
    · rw [Width.overwrite_high, accumulates.registers ref.register avoids]
  registers register different other :=
    (RegisterFile.content_put_of_ne _ _ _ _ (other ref rfl).symm).trans
      (accumulates.registers register different)
  cells address _ := by
    rw [← accumulates.memory]
    rfl
  textSection := congrArg Memory.textSection accumulates.memory
  flags := accumulates.flags
  output := accumulates.output

theorem Accumulates.assigned_memory (accumulates : before.Accumulates value middle)
    {expression : String} {address : Address} {memory : Memory} {accesses : AccessTally}
    (addresses : before.Addresses expression address)
    (changes : before.memory.set address (.word (width.truncate value).toInt64) = .ok memory) :
    before.Assigned (.memory expression) width value { middle with memory, accesses } where
  accumulator := accumulates.holds
  stored := by
    refine .memory addresses ?_
    rw [← Width.toNat_truncate, UInt64.ofNat_toNat]
    exact Memory.get_of_set changes
  registers register different _ := accumulates.registers register different
  cells other elsewhere := by
    refine Memory.get_of_set_of_ne changes fun same => elsewhere expression rfl ?_
    rwa [show other = address from congrArg Address.mk same]
  textSection := Memory.textSection_of_set changes
  flags := accumulates.flags
  output := accumulates.output

/-- Storing the accumulator completes the assignment. -/
theorem Accumulates.assigned (accumulates : before.Accumulates value middle)
    (avoids : target.Avoids .rax)
    (stores : (operate ⟨.store, some target, width, speculative⟩).Yields middle () after) :
    before.Assigned target width value after := by
  simp only [operate, yields_bind] at stores
  rcases stores with ⟨found, counted, reads, writes⟩
  rcases accumulates.read reads with ⟨rfl, accumulates⟩
  cases target with
  | register ref =>
    rw [writeOperand, yields_modify] at writes
    subst writes
    exact accumulates.assigned_register avoids
  | memory expression =>
    simp only [writeOperand, writeCell, yields_bind, yields_get, yields_set, yields_ofExcept,
      and_assoc, exists_and_left, exists_eq_left] at writes
    rcases writes with ⟨address, located, finds, memory, changes, rfl⟩
    rcases yields_effectiveAddress.mp finds with ⟨number, evaluates, positive, rfl⟩
    -- By now the accumulator is the value, which the expression does not see.
    have addresses : before.Addresses expression address :=
      (accumulates.addresses_iff avoids).mp ⟨number, evaluates, positive⟩
    refine accumulates.assigned_memory addresses ?_
    rw [← accumulates.memory]
    exact changes
  | immediate literal => exact absurd writes yields_throw
  | condition met => exact absurd writes yields_throw

end

end Machine

/-! ## Whole instructions -/

namespace Instruction

open Operand (Reads)

/-- The instructions that assign: their words, the target and what becomes of it. -/
inductive Assigns : List String → Operand → Change → Prop
  | move {first second : String} {target source : Operand} (reads : Reads first target)
      (readsToo : Reads second source) : Assigns ["mov", first, second] target (.move source)
  | increment {word : String} {target : Operand} (reads : Reads word target) :
      Assigns ["inc", word] target .increment
  | decrement {word : String} {target : Operand} (reads : Reads word target) :
      Assigns ["dec", word] target .decrement

section

variable {text first : String} {tokens : List String} {speculative : Bool}
  {group : List MicroOp} {target : Operand} {change : Change} {before after : Machine}

/-- The sentences among them have the steps of the change. -/
theorem Assigns.steps_eq {words : List String} {operands : List Operand}
    {steps : List (MicroOpcode × Option Operand)} (assigns : Assigns words target change)
    (sentence : Sentence words operands steps) :
    operands = change.operands target ∧ steps = change.steps target := by
  cases assigns with
  | move reads readsToo =>
    rcases sentence_iff.mp sentence with ⟨mnemonic, names, accepted, rfl⟩
    cases names.unique .move
    rcases accepted with _ | ⟨⟨destination, -⟩, _ | ⟨⟨source, -⟩, ⟨⟩⟩⟩
    cases reads.unique destination
    cases readsToo.unique source
    exact ⟨rfl, rfl⟩
  | increment reads =>
    rcases sentence_iff.mp sentence with ⟨mnemonic, names, accepted, rfl⟩
    cases names.unique .increment
    rcases accepted with _ | ⟨⟨destination, -⟩, ⟨⟩⟩
    cases reads.unique destination
    exact ⟨rfl, rfl⟩
  | decrement reads =>
    rcases sentence_iff.mp sentence with ⟨mnemonic, names, accepted, rfl⟩
    cases names.unique .decrement
    rcases accepted with _ | ⟨⟨destination, -⟩, ⟨⟩⟩
    cases reads.unique destination
    exact ⟨rfl, rfl⟩

/-- The steps of a change, one after the other. -/
theorem assigned_of_steps {width : Width} (narrowest : Narrowest (change.operands target) width)
    (avoids : target.Avoids .rax)
    (executes : (((change.steps target).map fun step =>
      (⟨step.1, step.2, width, speculative⟩ : MicroOp)).forM Machine.operate).Yields before ()
        after) :
    ∃ value, change.Results before width target value ∧
      before.Assigned target width value after := by
  have fits {operand : Operand} (member : operand ∈ change.operands target) :
      ∀ ref, operand = .register ref → width.bytes ≤ ref.width.bytes := by
    rintro ref rfl
    exact narrowest.2 ref member
  cases change with
  | move source =>
    simp only [Change.steps, List.map_cons, List.map_nil, List.forM_eq_forM, List.forM_cons,
      List.forM_nil, yields_bind, yields_pure] at executes
    rcases executes with ⟨_, loaded, loads, _, _, stores, -, rfl⟩
    have member : source ∈ [target, source] := List.mem_cons_of_mem _ List.mem_cons_self
    rcases Machine.accumulates_of_load (fits member) loads with ⟨value, holds, accumulates⟩
    exact ⟨value, .move holds, accumulates.assigned avoids stores⟩
  | increment =>
    simp only [Change.steps, List.map_cons, List.map_nil, List.forM_eq_forM, List.forM_cons,
      List.forM_nil, yields_bind, yields_pure] at executes
    rcases executes with ⟨_, loaded, loads, _, counted, adds, _, _, stores, -, rfl⟩
    rcases Machine.accumulates_of_load (fits List.mem_cons_self) loads with
      ⟨value, holds, accumulates⟩
    exact ⟨value + 1, .increment holds, (accumulates.add adds).assigned avoids stores⟩
  | decrement =>
    simp only [Change.steps, List.map_cons, List.map_nil, List.forM_eq_forM, List.forM_cons,
      List.forM_nil, yields_bind, yields_pure] at executes
    rcases executes with ⟨_, loaded, loads, _, counted, subtracts, _, _, stores, -, rfl⟩
    rcases Machine.accumulates_of_load (fits List.mem_cons_self) loads with
      ⟨value, holds, accumulates⟩
    exact ⟨value - 1, .decrement holds, (accumulates.subtract subtracts).assigned avoids stores⟩

/-- A move, an increment or a decrement that decodes, with a target that does not
depend on the accumulator, changes the machine in front of it in two places.  The
accumulator takes the whole value.  The target takes the bytes of it that the
narrowest register among the operands has, and no others if the target is a wider
register; only that register or the cell that its address denoted beforehand is
written. -/
theorem assigns_as_written (expanded : expand text speculative = .ok group)
    (words : Text.words isSeparator text = first :: tokens)
    (assigns : Assigns (first.map Char.toLower :: tokens) target change)
    (avoids : target.Avoids .rax)
    (executes : (group.forM Machine.operate).Yields before () after) :
    ∃ width value, Narrowest (change.operands target) width ∧
      change.Results before width target value ∧ before.Assigned target width value after := by
  rw [expand, words, expandWords_eq_ok_iff] at expanded
  rcases expanded with ⟨operands, steps, width, sentence, narrowest, rfl⟩
  rcases assigns.steps_eq sentence with ⟨rfl, rfl⟩
  rcases assigned_of_steps narrowest avoids executes with ⟨value, results, assigned⟩
  exact ⟨width, value, narrowest, results, assigned⟩

end

/-- The low byte of a register goes to a cell. -/
theorem assigns_as_written_byte :
    let registers := RegisterFile.write (RegisterFile.write {} (.full .rcx) 0x1234) (.full .rbx) 1
    let before : Machine := { registers, memory := .blank 4, output := .accepting }
    let group : List MicroOp :=
      [⟨.load, some (.register ⟨.rcx, .byte⟩), .byte, false⟩,
        ⟨.store, some (.memory "rbx+1"), .byte, false⟩]
    let target : Operand := .memory "rbx+1"
    let source : Operand := .register ⟨.rcx, .byte⟩
    expand "mov [rbx+1] rcxb" false = .ok group ∧ target.Avoids .rax ∧
    ∃ after, (group.forM Machine.operate).Yields before () after ∧
      ∃ width value, Narrowest [target, source] width ∧ before.Holds width source value ∧
        before.Assigned target width value after := by
  intro registers before group target source
  have expanded : expand "mov [rbx+1] rcxb" false = .ok group := by decide +kernel
  have words : Text.words isSeparator "mov [rbx+1] rcxb" = ["mov", "[rbx+1]", "rcxb"] := by
    decide +kernel
  have assigns : Assigns ("mov".map Char.toLower :: ["[rbx+1]", "rcxb"]) target (.move source) := by
    rw [show "mov".map Char.toLower = "mov" by decide +kernel]
    exact .move (Operand.read_eq_ok_iff.mp (by decide +kernel))
      (Operand.read_eq_ok_iff.mp (by decide +kernel))
  have avoids : target.Avoids .rax := by decide +kernel
  have executes : (group.forM Machine.operate).Yields before ()
      ((group.forM Machine.operate).perform before).2 := by
    refine Prod.ext ?_ rfl
    decide +kernel
  rcases assigns_as_written expanded words assigns avoids executes with
    ⟨width, value, narrowest, ⟨holds⟩, assigned⟩
  exact ⟨expanded, avoids, _, executes, width, value, narrowest, holds, assigned⟩

end Instruction
end BranchPipeline
