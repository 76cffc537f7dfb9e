import BranchPipeline.Proofs.Instruction.Operands
import BranchPipeline.Proofs.Machine.Agreement

namespace BranchPipeline
namespace Machine

open Attempt

/-!
# Machines that agree fail alike

A micro-operation that cannot tell agreeing machines apart also fails on both or
on none of them, and for the same reason.
-/

variable {α β : Type} {op : MicroOp}

/-- Where the operation fails on a machine, it fails with the same fault on every
machine that agrees with it. -/
def FailsAlike (attempt : Attempt Machine Fault α) : Prop :=
  ∀ ⦃first second fault after⦄, first.Agrees second → attempt.Fails first fault after →
    ∃ other, attempt.Fails second fault other

/-- In front of the rest of a sequence the machines must stay in agreement. -/
theorem FailsAlike.bind {attempt : Attempt Machine Fault α} {rest : α → Attempt Machine Fault β}
    (alike : FailsAlike attempt) (blind : Blind attempt)
    (others : ∀ value, FailsAlike (rest value)) : FailsAlike (attempt >>= rest) := by
  intro first second fault after agrees fails
  rcases fails_bind.mp fails with fails | ⟨value, middle, begins, fails⟩
  · rcases alike agrees fails with ⟨other, fails⟩
    exact ⟨other, fails_bind.mpr (Or.inl fails)⟩
  · rcases blind agrees begins with ⟨between, starts, agrees⟩
    rcases others value agrees fails with ⟨other, fails⟩
    exact ⟨other, fails_bind.mpr (Or.inr ⟨value, between, starts, fails⟩)⟩

theorem failsAlike_pure (value : α) : FailsAlike (pure value) :=
  fun _ _ _ _ _ fails => absurd fails fails_pure

theorem failsAlike_modify (change : Machine → Machine) : FailsAlike (modify change) :=
  fun _ _ _ _ _ fails => absurd fails fails_modify

theorem failsAlike_throw (fault : Fault) :
    FailsAlike (throw fault : Attempt Machine Fault α) := by
  intro first second thrown after agrees fails
  rcases fails_throw.mp fails with ⟨rfl, -⟩
  exact ⟨second, fails_throw.mpr ⟨rfl, rfl⟩⟩

theorem failsAlike_ofExcept {ε : Type} (wrap : ε → Fault) (result : Except ε α) :
    FailsAlike (ofExcept wrap result) := by
  intro first second fault after agrees fails
  rcases fails_ofExcept.mp fails with ⟨cause, failed, rfl, -⟩
  exact ⟨second, fails_ofExcept.mpr ⟨cause, failed, rfl, rfl⟩⟩

theorem failsAlike_readRegister {ref : RegisterRef} (visible : ref.register.isInternal = false) :
    FailsAlike (readRegister ref) := by
  intro first second fault after agrees fails
  simp only [readRegister, fails_bind, fails_modify, fails_get, fails_ofExcept, yields_modify,
    yields_get, false_or, and_assoc, exists_and_left, exists_eq_left] at fails ⊢
  rcases fails with ⟨_, cause, failed, wrapped, -⟩
  exact ⟨_, (), cause, (agrees.read visible).trans failed, wrapped, rfl⟩

theorem failsAlike_readCell (address : Address) : FailsAlike (readCell address) := by
  intro first second fault after agrees fails
  simp only [readCell, fails_bind, fails_get, fails_ofExcept, fails_set, fails_pure, yields_get,
    false_or, or_false, and_false, exists_false, and_assoc, exists_and_left, exists_eq_left]
    at fails ⊢
  rcases fails with ⟨cause, failed, wrapped, -⟩
  exact ⟨_, cause, agrees.memory.symm ▸ failed, wrapped, rfl⟩

theorem failsAlike_readWord (address : Address) : FailsAlike (readWord address) :=
  (failsAlike_readCell address).bind (blind_readCell address) fun _ => failsAlike_ofExcept _ _

theorem failsAlike_writeCell (address : Address) (cell : Cell) :
    FailsAlike (writeCell address cell) := by
  intro first second fault after agrees fails
  simp only [writeCell, fails_bind, fails_get, fails_ofExcept, fails_set, yields_get, false_or,
    or_false, and_false, exists_false, and_assoc, exists_and_left, exists_eq_left] at fails ⊢
  rcases fails with ⟨cause, failed, wrapped, -⟩
  exact ⟨_, cause, agrees.memory.symm ▸ failed, wrapped, rfl⟩

theorem failsAlike_effectiveAddress {expression : String}
    (visible : AddressExpression.Visible expression) :
    FailsAlike (effectiveAddress expression) := by
  intro first second fault after agrees fails
  simp only [effectiveAddress, fails_bind, fails_get, fails_set, fails_ofExcept, yields_get,
    yields_set, yields_ofExcept, false_or, and_assoc, exists_and_left, exists_eq_left,
    agrees.address visible] at fails ⊢
  rcases fails with ⟨_, ⟨cause, failed, wrapped, -⟩ | ⟨value, evaluates, cause, failed, wrapped, -⟩⟩
  · exact ⟨_, (), Or.inl ⟨cause, failed, wrapped, rfl⟩⟩
  · exact ⟨_, (), Or.inr ⟨value, evaluates, cause, failed, wrapped, rfl⟩⟩

/-! ## Micro-operations -/

theorem failsAlike_readOperand (visible : op.Visible) : FailsAlike (readOperand op) := by
  unfold readOperand
  split
  · rename_i ref named
    have shown : ref.register.isInternal = false := visible _ named
    refine (failsAlike_readRegister ?_).bind (blind_readRegister ?_) fun value =>
      failsAlike_pure value.toInt64
    · exact shown
    · exact shown
  · rename_i expression named
    have shown := visible _ named
    exact (failsAlike_effectiveAddress shown).bind (blind_effectiveAddress shown) fun _ =>
      failsAlike_readWord _
  · exact failsAlike_pure _
  all_goals exact failsAlike_throw _

theorem failsAlike_writeOperand (visible : op.Visible) (value : UInt64) :
    FailsAlike (writeOperand op value) := by
  unfold writeOperand
  split
  · exact failsAlike_modify _
  · rename_i expression named
    have shown := visible _ named
    exact (failsAlike_effectiveAddress shown).bind (blind_effectiveAddress shown) fun _ =>
      failsAlike_writeCell _ _
  all_goals exact failsAlike_throw _

theorem failsAlike_accumulator (width : Width) : FailsAlike (readRegister (accumulator width)) :=
  failsAlike_readRegister rfl

theorem failsAlike_operate (visible : op.Visible) : FailsAlike (operate op) := by
  have reads := failsAlike_readOperand visible
  have blind := blind_readOperand visible
  unfold operate
  split
  · exact reads.bind blind fun _ => failsAlike_modify _
  · exact (failsAlike_accumulator _).bind (blind_accumulator _) fun _ =>
      failsAlike_writeOperand visible _
  · exact reads.bind blind fun _ => (failsAlike_accumulator _).bind (blind_accumulator _) fun _ =>
      failsAlike_modify _
  · exact reads.bind blind fun _ => (failsAlike_accumulator _).bind (blind_accumulator _) fun _ =>
      failsAlike_modify _
  · exact reads.bind blind fun _ => (failsAlike_accumulator _).bind (blind_accumulator _) fun _ =>
      failsAlike_modify _
  all_goals exact failsAlike_pure _

theorem failsAlike_writeCells : FailsAlike writeCells := by
  have reads {ref : RegisterRef} (visible : ref.register.isInternal = false)
      {rest : UInt64 → Attempt Machine Fault Unit} (others : ∀ value, FailsAlike (rest value)) :
      FailsAlike (readRegister ref >>= rest) :=
    (failsAlike_readRegister visible).bind (blind_readRegister visible) others
  refine reads rfl fun _ => (failsAlike_ofExcept _ _).bind (blind_ofExcept _ _) fun _ =>
    reads rfl fun length => ?_
  intro first second fault after agrees fails
  simp only [fails_bind, fails_get, fails_set, fails_ofExcept, yields_get, yields_ofExcept,
    false_or, or_false, and_false, exists_false, and_assoc, exists_and_left, exists_eq_left]
    at fails ⊢
  rw [agrees.memory, agrees.output]
  rcases fails with ⟨cause, failed, wrapped, -⟩ | ⟨cells, found, cause, failed, wrapped, -⟩
  · exact ⟨_, Or.inl ⟨cause, failed, wrapped, rfl⟩⟩
  · exact ⟨_, Or.inr ⟨cells, found, cause, failed, wrapped, rfl⟩⟩

theorem failsAlike_systemCall : FailsAlike systemCall := by
  refine (failsAlike_accumulator _).bind (blind_accumulator _) fun number => ?_
  split
  · exact failsAlike_writeCells.bind blind_writeCells fun _ => failsAlike_pure _
  · exact failsAlike_pure _

/-- A micro-operation that is not a branch. -/
theorem failsAlike_act (visible : op.Visible) : FailsAlike (act op) := by
  unfold act
  split
  · exact failsAlike_systemCall
  · exact (failsAlike_operate visible).bind (blind_operate visible) fun _ => failsAlike_pure _

/-- A branch reads the accumulator, which both machines see. -/
theorem failsAlike_resolve (op : MicroOp) (location : UInt64) :
    FailsAlike (resolve op location) := by
  unfold resolve
  split
  · intro first second fault after agrees fails
    simp only [fails_bind, fails_get, fails_pure, fails_ofExcept, yields_get, yields_ofExcept,
      false_or, or_false, and_false, exists_false, and_assoc, exists_and_left, exists_eq_left]
      at fails ⊢
    rcases fails with fails | ⟨value, middle, reads, failed⟩
    · rcases failsAlike_accumulator _ agrees fails with ⟨other, fails⟩
      exact ⟨other, Or.inl fails⟩
    · rcases blind_accumulator _ agrees reads with ⟨between, reads, -⟩
      rcases failed with ⟨cause, failed, wrapped, -⟩
      exact ⟨_, Or.inr ⟨value, between, reads, cause, failed, wrapped, rfl⟩⟩
  · exact failsAlike_throw _

end Machine
end BranchPipeline
