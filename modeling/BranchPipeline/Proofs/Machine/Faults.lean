import BranchPipeline.Processor.Machine
import BranchPipeline.Proofs.Instruction.Groups

namespace BranchPipeline

/-!
# Faults of the machine

The machine has no buffers, so whatever goes wrong in it is not the fault of
one.  And whatever goes wrong, the registers of the pipeline, which hold what was
fetched last, stay as they are: a program cannot write to them.
-/

/-- The fault comes from elsewhere than a buffer or a table. -/
def Fault.Foreign : Fault → Prop
  | buffer _ => False
  | _ => True

namespace Machine

open Attempt

variable {α : Type} {machine : Machine} {op : MicroOp} {register : Register}

theorem failsOnly_readRegister (ref : RegisterRef) :
    (readRegister ref).FailsOnly machine Fault.Foreign := by
  simp [readRegister, Fault.Foreign]

theorem failsOnly_readCell (address : Address) :
    (readCell address).FailsOnly machine Fault.Foreign := by
  simp [readCell, Fault.Foreign]

theorem failsOnly_readWord (address : Address) :
    (readWord address).FailsOnly machine Fault.Foreign := by
  simp [readWord, failsOnly_readCell, Fault.Foreign]

theorem failsOnly_readToken (address : Address) :
    (readToken address).FailsOnly machine Fault.Foreign := by
  simp [readToken, failsOnly_readCell, Fault.Foreign]

theorem failsOnly_effectiveAddress (expression : String) :
    (effectiveAddress expression).FailsOnly machine Fault.Foreign := by
  simp [effectiveAddress, Fault.Foreign]

theorem failsOnly_readOperand : (readOperand op).FailsOnly machine Fault.Foreign := by
  unfold readOperand
  split
  · simp [failsOnly_readRegister]
  · simp [failsOnly_effectiveAddress, failsOnly_readWord]
  all_goals simp [Fault.Foreign]

theorem failsOnly_writeOperand (value : UInt64) :
    (writeOperand op value).FailsOnly machine Fault.Foreign := by
  unfold writeOperand
  split
  · simp
  · simp [writeCell, failsOnly_effectiveAddress, Fault.Foreign]
  all_goals simp [Fault.Foreign]

theorem failsOnly_operate : (operate op).FailsOnly machine Fault.Foreign := by
  unfold operate
  split <;>
    simp [setAccumulator, failsOnly_readRegister, failsOnly_readOperand, failsOnly_writeOperand]

theorem failsOnly_resolve (location : UInt64) :
    (resolve op location).FailsOnly machine Fault.Foreign := by
  unfold resolve
  split
  · simp [failsOnly_readRegister, Fault.Foreign]
  · simp [Fault.Foreign]

theorem failsOnly_systemCall : systemCall.FailsOnly machine Fault.Foreign := by
  rw [systemCall, failsOnly_bind]
  refine ⟨failsOnly_readRegister _, ?_⟩
  intro number middle _
  split
  · simp [writeCells, failsOnly_readRegister, Fault.Foreign]
  · simp

/-! ## Registers that stay -/

/-- However the operation ends, the register holds what it held before. -/
abbrev Spares (register : Register) (operation : Attempt Machine Fault α) : Prop :=
  ∀ content, operation.Keeps (fun machine => machine.registers.content register = content)
    Fault.Foreign

theorem spares_readRegister (ref : RegisterRef) : Spares register (readRegister ref) := by
  intro content
  refine Keeps.bind (keeps_modify fun machine same => same) fun _ => ?_
  exact keeps_get_bind fun machine same => keeps_ofExcept (fun _ _ => trivial) machine same

theorem spares_readCell (address : Address) : Spares register (readCell address) := by
  intro content
  refine keeps_get_bind fun machine same => ?_
  simp only [ends_bind, ends_ofExcept, ends_set, ends_pure]
  exact ⟨fun _ _ => same, fun _ _ => ⟨trivial, same⟩⟩

theorem spares_readWord (address : Address) : Spares register (readWord address) :=
  fun content => (spares_readCell address content).bind fun _ => keeps_ofExcept fun _ _ => trivial

theorem spares_effectiveAddress (expression : String) :
    Spares register (effectiveAddress expression) := by
  intro content
  refine keeps_get_bind fun machine same => ?_
  simp only [ends_bind, ends_set, ends_ofExcept]
  refine ⟨fun value _ => ⟨fun _ _ => same, fun _ _ => ⟨trivial, same⟩⟩,
    fun _ _ => ⟨trivial, same⟩⟩

theorem spares_readOperand : Spares register (readOperand op) := by
  intro content
  unfold readOperand
  split
  · exact (spares_readRegister _ content).bind fun _ => keeps_pure
  · exact (spares_effectiveAddress _ content).bind fun address => spares_readWord address content
  · exact keeps_pure
  all_goals exact keeps_throw trivial

theorem spares_writeOperand (value : UInt64)
    (elsewhere : ∀ ref, op.operand = some (.register ref) → register ≠ ref.register) :
    Spares register (writeOperand op value) := by
  intro content
  unfold writeOperand
  split
  · rename_i ref named
    refine keeps_modify fun machine same => ?_
    exact (RegisterFile.content_put_of_ne _ _ _ _ (elsewhere ref named)).trans same
  · refine (spares_effectiveAddress _ content).bind fun address => ?_
    refine keeps_get_bind fun machine same => ?_
    simp only [ends_bind, ends_ofExcept, ends_set]
    exact ⟨fun _ _ => same, fun _ _ => ⟨trivial, same⟩⟩
  all_goals exact keeps_throw trivial

theorem spares_setAccumulator (apart : register ≠ .rax) (value : Int64) :
    Spares register (setAccumulator value) :=
  fun _ => keeps_modify fun _ same =>
    (RegisterFile.content_put_of_ne _ _ _ _ apart).trans same

/-- A micro-operation that stores only where a program may leaves the registers
of the pipeline alone. -/
theorem spares_operate (internal : register.isInternal = true)
    (writable : op.opcode = .store → ∃ target, op.operand = some target ∧
      target.isWritable = true) : Spares register (operate op) := by
  have apart : register ≠ .rax := by
    rintro rfl
    cases internal
  intro content
  unfold operate
  split
  · exact (spares_readOperand content).bind fun value => spares_setAccumulator apart value content
  · rename_i stores
    refine (spares_readRegister _ content).bind fun value => spares_writeOperand value ?_ content
    rintro ref named rfl
    rcases writable stores with ⟨target, operand, visible⟩
    rw [named] at operand
    cases operand
    rw [Operand.isWritable, internal] at visible
    cases visible
  · exact (spares_readOperand content).bind fun _ => (spares_readRegister _ content).bind fun _ =>
      spares_setAccumulator apart _ content
  · exact (spares_readOperand content).bind fun _ => (spares_readRegister _ content).bind fun _ =>
      spares_setAccumulator apart _ content
  · exact (spares_readOperand content).bind fun _ => (spares_readRegister _ content).bind fun _ =>
      keeps_modify fun _ same => same
  all_goals exact keeps_pure

theorem spares_resolve (location : UInt64) : Spares register (resolve op location) := by
  intro content
  unfold resolve
  split
  · refine keeps_get_bind fun machine same => ?_
    refine (spares_readRegister _ content).bind (fun _ => ?_) machine same
    exact Keeps.bind (keeps_ofExcept fun _ _ => trivial) fun _ => keeps_pure
  · exact keeps_throw trivial

theorem spares_systemCall : Spares register systemCall := by
  intro content
  refine (spares_readRegister _ content).bind fun number => ?_
  split
  · refine Keeps.bind ?_ fun _ => keeps_pure
    refine (spares_readRegister _ content).bind fun start => ?_
    refine Keeps.bind (keeps_ofExcept fun _ _ => trivial) fun address => ?_
    refine (spares_readRegister _ content).bind fun length => ?_
    refine keeps_get_bind fun machine same => ?_
    simp only [ends_bind, ends_ofExcept, ends_set]
    exact ⟨fun _ _ => ⟨fun _ _ => same, fun _ _ => ⟨trivial, same⟩⟩,
      fun _ _ => ⟨trivial, same⟩⟩
  · exact keeps_pure

end Machine
end BranchPipeline
