import BranchPipeline.Processor.Machine
import BranchPipeline.Proofs.Operation

namespace BranchPipeline

namespace Width

@[simp]
theorem truncate_quad (value : UInt64) : quad.truncate value = value :=
  UInt64.toBitVec_inj.mp BitVec.and_allOnes

@[simp]
theorem overwrite_quad (old value : UInt64) : quad.overwrite old value = value := by
  have nothing : ~~~ quad.mask = 0 := by decide
  have everything := truncate_quad value
  rw [truncate] at everything
  rw [overwrite, nothing, everything, UInt64.and_zero, UInt64.zero_or]

end Width

namespace RegisterFile

/-- A register that holds a number is read at its full width. -/
theorem read_full {file : RegisterFile} {register : Register} {value : UInt64}
    (holds : file.content register = .number value) :
    file.read (.full register) = .ok value := by
  simp [read, RegisterRef.full, holds]

@[simp]
theorem content_write_full (file : RegisterFile) (register : Register) (value : UInt64) :
    (file.write (.full register) value).content register = .number value := by
  simp [write, RegisterRef.full]

end RegisterFile

namespace Memory

variable {memory changed : Memory} {address : Address} {cell : Cell}

theorem set_eq_ok_iff :
    memory.set address cell = .ok changed ↔
      ∃ bound : address.index < memory.cells.size,
        { memory with cells := memory.cells.set address.index cell } = changed := by
  unfold set
  split <;> rename_i bound <;> simp [bound]

theorem textSection_of_set (stored : memory.set address cell = .ok changed) :
    changed.textSection = memory.textSection := by
  rcases set_eq_ok_iff.mp stored with ⟨bound, rfl⟩
  rfl

theorem get_of_set (stored : memory.set address cell = .ok changed) :
    changed.get address = .ok cell := by
  rcases set_eq_ok_iff.mp stored with ⟨bound, rfl⟩
  simp only [get, Array.getElem?_set_self bound]

theorem get_of_set_of_ne {place : Address} (stored : memory.set address cell = .ok changed)
    (different : place.index ≠ address.index) :
    changed.get place = memory.get place := by
  rcases set_eq_ok_iff.mp stored with ⟨bound, rfl⟩
  simp only [get, Array.getElem?_set_ne bound different.symm, size, Array.size_set]

end Memory

namespace Machine

open Attempt

/-!
# What an operation of the machine can change

Reading counts accesses and changes nothing else.  A micro-operation writes
the accumulator, and a store also its operand, be it a register or a memory
cell.  Everything else that holds of a machine before a micro-operation holds
of it afterwards.
-/

/-- The two machines differ in their counts of accesses only. -/
structure Untouched (before after : Machine) : Prop where
  registers : after.registers = before.registers
  memory : after.memory = before.memory
  output : after.output = before.output

section

variable {before after : Machine} {op : MicroOp}

theorem Untouched.refl (machine : Machine) : machine.Untouched machine := ⟨rfl, rfl, rfl⟩

theorem Untouched.trans {middle : Machine} (first : before.Untouched middle)
    (second : middle.Untouched after) : before.Untouched after where
  registers := second.registers.trans first.registers
  memory := second.memory.trans first.memory
  output := second.output.trans first.output

theorem yields_readRegister {ref : RegisterRef} {value : UInt64} :
    (readRegister ref).Yields before value after ↔
      before.registers.read ref = .ok value ∧ after = before.countReads [ref.register] := by
  simp [readRegister, countReads, and_assoc]

theorem yields_readCell {address : Address} {cell : Cell} :
    (readCell address).Yields before cell after ↔
      before.memory.get address = .ok cell ∧
        after = { before with
          accesses := before.accesses.cellRead
            (before.memory.textSection.contains address.index) } := by
  simp [readCell, and_assoc, eq_comm]

theorem yields_readWord {address : Address} {value : Int64} :
    (readWord address).Yields before value after ↔
      ∃ cell, (readCell address).Yields before cell after ∧
        Memory.asWord address cell = .ok value :=
  yields_bind_ofExcept

theorem yields_readToken {address : Address} {token : String} :
    (readToken address).Yields before token after ↔
      ∃ cell, (readCell address).Yields before cell after ∧
        Memory.asToken address cell = .ok token :=
  yields_bind_ofExcept

theorem yields_effectiveAddress {expression : String} {address : Address} :
    (effectiveAddress expression).Yields before address after ↔
      ∃ value, before.registers.address expression = .ok value ∧
        Address.ofInt64 value = .ok address ∧
        after = before.countReads (AddressExpression.consulted before.registers expression) := by
  simp [effectiveAddress, and_assoc]

theorem untouched_of_readRegister {ref : RegisterRef} {value : UInt64}
    (reads : (readRegister ref).Yields before value after) : before.Untouched after := by
  rcases yields_readRegister.mp reads with ⟨-, rfl⟩
  exact ⟨rfl, rfl, rfl⟩

theorem untouched_of_readCell {address : Address} {cell : Cell}
    (reads : (readCell address).Yields before cell after) : before.Untouched after := by
  rcases yields_readCell.mp reads with ⟨-, rfl⟩
  exact ⟨rfl, rfl, rfl⟩

theorem untouched_of_effectiveAddress {expression : String} {address : Address}
    (finds : (effectiveAddress expression).Yields before address after) :
    before.Untouched after := by
  rcases yields_effectiveAddress.mp finds with ⟨value, -, -, rfl⟩
  exact ⟨rfl, rfl, rfl⟩

theorem untouched_of_readOperand {value : Int64}
    (reads : (readOperand op).Yields before value after) : before.Untouched after := by
  unfold readOperand at reads
  split at reads
  · simp only [yields_bind, yields_pure] at reads
    rcases reads with ⟨word, middle, read, -, rfl⟩
    exact untouched_of_readRegister read
  · simp only [yields_bind, yields_readWord] at reads
    rcases reads with ⟨address, middle, finds, cell, reads, -⟩
    exact (untouched_of_effectiveAddress finds).trans (untouched_of_readCell reads)
  · rcases yields_pure.mp reads with ⟨-, rfl⟩
    exact .refl _
  · exact absurd reads yields_throw
  · exact absurd reads yields_throw

/-- Resolving a branch only reads. -/
theorem untouched_of_resolve {location : UInt64} {resolution : Resolution}
    (resolves : (resolve op location).Yields before resolution after) :
    before.Untouched after := by
  unfold resolve at resolves
  split at resolves
  · simp only [yields_bind, yields_get, yields_pure, yields_ofExcept, and_assoc, exists_and_left,
      exists_eq_left] at resolves
    rcases resolves with ⟨value, middle, reads, address, -, -, rfl⟩
    exact untouched_of_readRegister reads
  · exact absurd resolves yields_throw

/-- A system call reads, and may write to the output. -/
theorem untouched_of_systemCall {exits : Bool}
    (calls : systemCall.Yields before exits after) :
    after.registers = before.registers ∧ after.memory = before.memory := by
  simp only [systemCall, yields_bind] at calls
  rcases calls with ⟨number, middle, reads, calls⟩
  have counted := untouched_of_readRegister reads
  split at calls
  · simp only [writeCells, yields_bind, yields_get, yields_set, yields_pure, yields_ofExcept,
      and_assoc, exists_and_left, exists_eq_left] at calls
    rcases calls with ⟨_, _, ⟨start, one, first, address, -, length, two, second, cells, -,
      output, -, rfl⟩, -, rfl⟩
    have counted := (counted.trans (untouched_of_readRegister first)).trans
      (untouched_of_readRegister second)
    exact ⟨counted.registers, counted.memory⟩
  · rcases yields_pure.mp calls with ⟨-, rfl⟩
    exact ⟨counted.registers, counted.memory⟩

end

/-! ## What a program can see -/

/-- The two machines differ in the registers of the pipeline and in their
counts of accesses only. -/
structure Agrees (first second : Machine) : Prop where
  registers : ∀ register, register.isInternal = false →
    second.registers.content register = first.registers.content register
  flags : second.registers.flags = first.registers.flags
  memory : second.memory = first.memory
  output : second.output = first.output

section

variable {first second third : Machine}

theorem Agrees.refl (machine : Machine) : machine.Agrees machine :=
  ⟨fun _ _ => rfl, rfl, rfl, rfl⟩

theorem Agrees.symm (agrees : first.Agrees second) : second.Agrees first where
  registers register visible := (agrees.registers register visible).symm
  flags := agrees.flags.symm
  memory := agrees.memory.symm
  output := agrees.output.symm

theorem Agrees.trans (one : first.Agrees second) (two : second.Agrees third) :
    first.Agrees third where
  registers register visible :=
    (two.registers register visible).trans (one.registers register visible)
  flags := two.flags.trans one.flags
  memory := two.memory.trans one.memory
  output := two.output.trans one.output

theorem Untouched.agrees (untouched : first.Untouched second) : first.Agrees second where
  registers register _ := by rw [untouched.registers]
  flags := by rw [untouched.registers]
  memory := untouched.memory
  output := untouched.output

theorem agrees_put (machine : Machine) {register : Register} (internal : register.isInternal = true)
    (content : Content) (accesses : AccessTally) :
    machine.Agrees { machine with registers := machine.registers.put register content, accesses }
    where
  registers other visible := by
    apply RegisterFile.content_put_of_ne
    rintro rfl
    rw [internal] at visible
    cases visible
  flags := rfl
  memory := rfl
  output := rfl

end

/-! ## What a micro-operation writes -/

/-- The cell that a micro-operation stores to, if it is one that does. -/
def storeAddress? (machine : Machine) (op : MicroOp) : Option Address :=
  match op.opcode, op.operand with
  | .store, some (.memory expression) =>
    match machine.registers.address expression with
    | .ok value => (Address.ofInt64 value).toOption
    | .error _ => none
  | _, _ => none

/-- The effect of a micro-operation is confined to the accumulator and, for a
store, its operand. -/
structure Confined (op : MicroOp) (before after : Machine) : Prop where
  registers : ∀ register, after.registers.content register = before.registers.content register ∨
    register = .rax ∨
    (op.opcode = .store ∧ ∃ ref, op.operand = some (.register ref) ∧ ref.register = register)
  memory : after.memory = before.memory ∨
    ∃ address value, before.storeAddress? op = some address ∧
      before.memory.set address (.word value) = .ok after.memory

section

variable {before after : Machine} {op : MicroOp}

theorem Untouched.confined (untouched : before.Untouched after) : Confined op before after where
  registers register := Or.inl (by rw [untouched.registers])
  memory := Or.inl untouched.memory

/-- Writing the accumulator after some reading. -/
theorem Untouched.confined_accumulator {middle : Machine} (untouched : before.Untouched middle)
    (value : UInt64) : Confined op before (middle.writeRegister (accumulator .quad) value) where
  registers register := by
    by_cases same : register = .rax
    · exact Or.inr (Or.inl same)
    · left
      rw [← untouched.registers]
      exact RegisterFile.content_put_of_ne _ _ _ _ same
  memory := Or.inl untouched.memory

theorem confined_of_store (stores : op.opcode = .store) {value : UInt64}
    (writes : (writeOperand op value).Yields before () after) : Confined op before after := by
  unfold writeOperand at writes
  split at writes
  · rename_i ref named
    rw [yields_modify] at writes
    subst writes
    refine ⟨?_, Or.inl rfl⟩
    intro register
    by_cases same : register = ref.register
    · exact Or.inr (Or.inr ⟨stores, ref, named, same.symm⟩)
    · exact Or.inl (RegisterFile.content_put_of_ne _ _ _ _ same)
  · rename_i expression named
    simp only [yields_bind, writeCell, yields_get, yields_set, yields_ofExcept, and_assoc,
      exists_and_left, exists_eq_left] at writes
    rcases writes with ⟨address, middle, finds, memory, changes, rfl⟩
    have untouched := untouched_of_effectiveAddress finds
    rcases yields_effectiveAddress.mp finds with ⟨number, evaluates, positive, -⟩
    refine ⟨?_, Or.inr ⟨address, value.toInt64, ?_, ?_⟩⟩
    · intro register
      exact Or.inl (by rw [untouched.registers])
    · simp only [storeAddress?, stores, named, evaluates, positive, Except.toOption]
    · rw [← untouched.memory]
      exact changes
  all_goals exact absurd writes yields_throw

/-- Every micro-operation is confined so. -/
theorem confined_of_operate (operates : (operate op).Yields before () after) :
    Confined op before after := by
  unfold operate at operates
  split at operates
  case h_1 =>
    simp only [setAccumulator, yields_bind, yields_modify] at operates
    rcases operates with ⟨value, middle, reads, rfl⟩
    exact (untouched_of_readOperand reads).confined_accumulator _
  case h_2 stores =>
    rcases yields_bind.mp operates with ⟨value, middle, reads, writes⟩
    have untouched := untouched_of_readRegister reads
    have confined := confined_of_store stores writes
    refine ⟨?_, ?_⟩
    · rw [← untouched.registers]
      exact confined.registers
    · have address : middle.storeAddress? op = before.storeAddress? op := by
        rw [storeAddress?, storeAddress?, untouched.registers]
      rw [← untouched.memory, ← address]
      exact confined.memory
  case h_3 | h_4 =>
    simp only [setAccumulator, yields_bind, yields_modify] at operates
    rcases operates with ⟨value, first, reads, current, second, counts, rfl⟩
    exact ((untouched_of_readOperand reads).trans
      (untouched_of_readRegister counts)).confined_accumulator _
  case h_5 =>
    simp only [yields_bind, yields_modify] at operates
    rcases operates with ⟨value, first, reads, current, second, counts, rfl⟩
    have untouched := (untouched_of_readOperand reads).trans (untouched_of_readRegister counts)
    refine ⟨?_, Or.inl untouched.memory⟩
    intro register
    left
    rw [← untouched.registers]
    rfl
  all_goals
    rcases yields_pure.mp operates with ⟨-, rfl⟩
    exact (Untouched.refl _).confined

end

/-- Makes a micro-operation that is not a branch take effect, and says whether
it ends the program. -/
def act (op : MicroOp) : Attempt Machine Fault Bool :=
  match op.opcode with
  | .systemCall => systemCall
  | _ => do
    operate op
    return false

theorem confined_of_act {before after : Machine} {op : MicroOp} {exits : Bool}
    (acts : (act op).Yields before exits after) : Confined op before after := by
  unfold act at acts
  split at acts
  · rcases untouched_of_systemCall acts with ⟨registers, memory⟩
    exact ⟨fun register => Or.inl (by rw [registers]), Or.inl memory⟩
  · simp only [yields_bind, yields_pure] at acts
    rcases acts with ⟨_, middle, operates, -, rfl⟩
    exact confined_of_operate operates

end Machine
end BranchPipeline
