import BranchPipeline.Proofs.Machine.Effects

namespace BranchPipeline
namespace Machine

open Attempt

/-!
# What a failed operation leaves

A micro-operation writes last.  If it fails, it has only counted the accesses
that it has made until then, so nothing keeps one from executing it again.
-/

variable {α β : Type} {op : MicroOp}

/-- Where the operation fails, it leaves all but the counts of accesses. -/
def FailsUntouched (attempt : Attempt Machine Fault α) : Prop :=
  ∀ ⦃before fault after⦄, attempt.Fails before fault after → before.Untouched after

/-- What is in front of another operation must leave everything else too. -/
theorem FailsUntouched.bind {attempt : Attempt Machine Fault α}
    {rest : α → Attempt Machine Fault β} (untouched : FailsUntouched attempt)
    (reads : ∀ {before value after}, attempt.Yields before value after → before.Untouched after)
    (others : ∀ value, FailsUntouched (rest value)) : FailsUntouched (attempt >>= rest) := by
  intro before fault after fails
  rcases fails_bind.mp fails with fails | ⟨value, middle, begins, fails⟩
  · exact untouched fails
  · exact (reads begins).trans (others value fails)

theorem failsUntouched_pure (value : α) : FailsUntouched (pure value) :=
  fun _ _ _ fails => absurd fails fails_pure

theorem failsUntouched_modify (change : Machine → Machine) : FailsUntouched (modify change) :=
  fun _ _ _ fails => absurd fails fails_modify

theorem failsUntouched_throw (fault : Fault) :
    FailsUntouched (throw fault : Attempt Machine Fault α) := by
  intro before thrown after fails
  rcases fails_throw.mp fails with ⟨-, rfl⟩
  exact .refl _

theorem failsUntouched_ofExcept {ε : Type} (wrap : ε → Fault) (result : Except ε α) :
    FailsUntouched (ofExcept wrap result) := by
  intro before fault after fails
  rcases fails_ofExcept.mp fails with ⟨cause, -, -, rfl⟩
  exact .refl _

theorem failsUntouched_readRegister (ref : RegisterRef) : FailsUntouched (readRegister ref) := by
  intro before fault after fails
  simp only [readRegister, fails_bind, fails_modify, fails_get, fails_ofExcept, yields_modify,
    yields_get, false_or, and_assoc, exists_and_left, exists_eq_left] at fails
  rcases fails with ⟨_, cause, -, -, rfl⟩
  exact ⟨rfl, rfl, rfl⟩

theorem failsUntouched_readCell (address : Address) : FailsUntouched (readCell address) := by
  intro before fault after fails
  simp only [readCell, fails_bind, fails_get, fails_ofExcept, fails_set, fails_pure, yields_get,
    false_or, or_false, and_false, exists_false, and_assoc, exists_and_left, exists_eq_left]
    at fails
  rcases fails with ⟨cause, -, -, rfl⟩
  exact .refl _

theorem failsUntouched_readWord (address : Address) : FailsUntouched (readWord address) :=
  (failsUntouched_readCell address).bind untouched_of_readCell fun _ =>
    failsUntouched_ofExcept _ _

theorem failsUntouched_writeCell (address : Address) (cell : Cell) :
    FailsUntouched (writeCell address cell) := by
  intro before fault after fails
  simp only [writeCell, fails_bind, fails_get, fails_ofExcept, fails_set, yields_get, false_or,
    or_false, and_false, exists_false, and_assoc, exists_and_left, exists_eq_left] at fails
  rcases fails with ⟨cause, -, -, rfl⟩
  exact .refl _

theorem failsUntouched_effectiveAddress (expression : String) :
    FailsUntouched (effectiveAddress expression) := by
  intro before fault after fails
  simp only [effectiveAddress, fails_bind, fails_get, fails_set, fails_ofExcept, yields_get,
    yields_set, yields_ofExcept, false_or, and_assoc, exists_and_left, exists_eq_left] at fails
  rcases fails with ⟨_, ⟨cause, -, -, rfl⟩ | ⟨value, -, cause, -, -, rfl⟩⟩
  · exact ⟨rfl, rfl, rfl⟩
  · exact ⟨rfl, rfl, rfl⟩

/-! ## Micro-operations -/

theorem failsUntouched_readOperand : FailsUntouched (readOperand op) := by
  unfold readOperand
  split
  · exact (failsUntouched_readRegister _).bind untouched_of_readRegister fun value =>
      failsUntouched_pure value.toInt64
  · exact (failsUntouched_effectiveAddress _).bind untouched_of_effectiveAddress fun _ =>
      failsUntouched_readWord _
  · exact failsUntouched_pure _
  all_goals exact failsUntouched_throw _

theorem failsUntouched_writeOperand (value : UInt64) : FailsUntouched (writeOperand op value) := by
  unfold writeOperand
  split
  · exact failsUntouched_modify _
  · exact (failsUntouched_effectiveAddress _).bind untouched_of_effectiveAddress fun _ =>
      failsUntouched_writeCell _ _
  all_goals exact failsUntouched_throw _

theorem failsUntouched_operate : FailsUntouched (operate op) := by
  -- what is read, with the accumulator, before the accumulator or the flags are written
  have combines {rest : Int64 → UInt64 → Attempt Machine Fault Unit}
      (others : ∀ value current, FailsUntouched (rest value current)) :
      FailsUntouched (do
        let value ← readOperand op
        let current ← readRegister (accumulator .quad)
        rest value current) :=
    failsUntouched_readOperand.bind untouched_of_readOperand fun value =>
      (failsUntouched_readRegister _).bind untouched_of_readRegister (others value)
  unfold operate
  split
  · exact failsUntouched_readOperand.bind untouched_of_readOperand fun _ =>
      failsUntouched_modify _
  · exact (failsUntouched_readRegister _).bind untouched_of_readRegister
      failsUntouched_writeOperand
  · exact combines fun _ _ => failsUntouched_modify _
  · exact combines fun _ _ => failsUntouched_modify _
  · exact combines fun _ _ => failsUntouched_modify _
  all_goals exact failsUntouched_pure _

theorem failsUntouched_writeCells : FailsUntouched writeCells := by
  have reads {ref : RegisterRef} {rest : UInt64 → Attempt Machine Fault Unit}
      (others : ∀ value, FailsUntouched (rest value)) :
      FailsUntouched (readRegister ref >>= rest) :=
    (failsUntouched_readRegister ref).bind untouched_of_readRegister others
  have checks {ε α : Type} {wrap : ε → Fault} {result : Except ε α}
      {rest : α → Attempt Machine Fault Unit} (others : ∀ value, FailsUntouched (rest value)) :
      FailsUntouched (ofExcept wrap result >>= rest) := by
    refine (failsUntouched_ofExcept wrap result).bind ?_ others
    intro before value after ends
    rcases yields_ofExcept.mp ends with ⟨-, rfl⟩
    exact .refl _
  refine reads fun _ => checks fun _ => reads fun _ => ?_
  intro before fault after fails
  simp only [fails_bind, fails_get, fails_set, fails_ofExcept, yields_get, yields_ofExcept,
    false_or, or_false, and_false, exists_false, and_assoc, exists_and_left, exists_eq_left]
    at fails
  rcases fails with ⟨cause, -, -, rfl⟩ | ⟨cells, -, cause, -, -, rfl⟩
  · exact .refl _
  · exact .refl _

theorem failsUntouched_systemCall : FailsUntouched systemCall := by
  refine (failsUntouched_readRegister _).bind untouched_of_readRegister fun number => ?_
  split
  · intro before fault after fails
    rcases fails_bind.mp fails with fails | ⟨_, middle, -, fails⟩
    · exact failsUntouched_writeCells fails
    · exact absurd fails fails_pure
  · exact failsUntouched_pure _

theorem failsUntouched_act : FailsUntouched (act op) := by
  unfold act
  split
  · exact failsUntouched_systemCall
  · intro before fault after fails
    rcases fails_bind.mp fails with fails | ⟨_, middle, -, fails⟩
    · exact failsUntouched_operate fails
    · exact absurd fails fails_pure

theorem failsUntouched_resolve (location : UInt64) : FailsUntouched (resolve op location) := by
  unfold resolve
  split
  · intro before fault after fails
    simp only [fails_bind, fails_get, fails_pure, fails_ofExcept, yields_get, yields_ofExcept,
      false_or, or_false, and_false, exists_false, and_assoc, exists_and_left, exists_eq_left]
      at fails
    rcases fails with fails | ⟨value, middle, reads, cause, -, -, rfl⟩
    · exact failsUntouched_readRegister _ fails
    · exact untouched_of_readRegister reads
  · exact failsUntouched_throw _

end Machine
end BranchPipeline
