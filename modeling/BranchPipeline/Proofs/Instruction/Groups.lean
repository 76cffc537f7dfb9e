import BranchPipeline.Instruction
import BranchPipeline.Proofs.Operation

namespace BranchPipeline

/-!
# The shape of an instruction's group

The pipeline relies on a few properties of the groups that it issues.  A group
is never empty and never longer than `maxGroupLength`.  A branch ends its group
and does not start it, so some cycle lies between the decoding of a branch and
its resolution.  Only operands that an instruction may write are stored to.
The mark of speculation changes nothing else about a group.

All of this is read off one list of the plans that instructions have.
-/

namespace Operand

/-- An operand that an instruction may write. -/
def isWritable : Operand → Bool
  | register ref => !ref.register.isInternal
  | memory _ => true
  | immediate _ | condition _ => false

theorem isWritable_of_readDestination {token : String} {operand : Operand}
    (accepted : readDestination token = .ok operand) : operand.isWritable = true := by
  rcases bind_eq_ok_iff.mp accepted with ⟨found, reads, accepted⟩
  cases found with
  | immediate value => cases accepted
  | register ref =>
    simp only at accepted
    split at accepted
    · cases accepted
    · rename_i visible
      cases accepted
      simpa [isWritable] using visible
  | memory expression =>
    cases accepted
    rfl
  | condition met =>
    unfold read at reads
    split at reads
    · split at reads <;> cases reads
    · split at reads
      · cases reads
      · split at reads <;> cases reads

end Operand

namespace MicroOp

/-- The micro-operation with another mark of speculation. -/
def marked (op : MicroOp) (speculative : Bool) : MicroOp := { op with speculative }

end MicroOp

namespace Instruction

/-- The lists of steps that instructions stand for. -/
inductive Shape : List (MicroOpcode × Option Operand) → Prop
  | move (source : Operand) {target : Operand} (writable : target.isWritable = true) :
      Shape [(.load, some source), (.store, some target)]
  | compare (left right : Operand) : Shape [(.load, some right), (.compare, some left)]
  | increment {target : Operand} (writable : target.isWritable = true) :
      Shape [(.load, some target), (.add, some (.immediate 1)), (.store, some target)]
  | decrement {target : Operand} (writable : target.isWritable = true) :
      Shape [(.load, some target), (.subtract, some (.immediate 1)), (.store, some target)]
  | jump (target : Operand) (condition : Condition) :
      Shape [(.load, some target), (.jump, some (.condition condition))]
  | systemCall : Shape [(.systemCall, none)]
  | idle : Shape [(.idle, none)]

/-- A readable instruction, up to the mark of speculation. -/
structure Plan where
  operands : List Operand
  steps : List (MicroOpcode × Option Operand)
  shape : Shape steps

/-- The group of a plan. -/
def Plan.group (plan : Plan) (speculative : Bool) : List MicroOp :=
  Instruction.group plan.operands speculative plan.steps

/-- The operands of an instruction are read in the same way for either mark. -/
theorem exists_plan_of_operands {name : String} {mnemonic : Mnemonic} {tokens : List String}
    {speculative : Bool} {group : List MicroOp}
    (expanded : expandOperands name mnemonic tokens speculative = .ok group) :
    ∃ plan : Plan, ∀ mark, expandOperands name mnemonic tokens mark = .ok (plan.group mark) := by
  unfold expandOperands at expanded ⊢
  split at expanded
  · rcases bind_eq_ok_iff.mp expanded with ⟨target, targetRead, expanded⟩
    rcases bind_eq_ok_iff.mp expanded with ⟨source, sourceRead, -⟩
    have writable := Operand.isWritable_of_readDestination targetRead
    refine ⟨⟨[target, source], _, .move source writable⟩, ?_⟩
    intro mark
    simp only [targetRead, sourceRead]
    rfl
  · rcases bind_eq_ok_iff.mp expanded with ⟨left, leftRead, expanded⟩
    rcases bind_eq_ok_iff.mp expanded with ⟨right, rightRead, -⟩
    refine ⟨⟨[left, right], _, .compare left right⟩, ?_⟩
    intro mark
    simp only [leftRead, rightRead]
    rfl
  · rcases bind_eq_ok_iff.mp expanded with ⟨target, targetRead, -⟩
    have writable := Operand.isWritable_of_readDestination targetRead
    refine ⟨⟨[target], _, .increment writable⟩, ?_⟩
    intro mark
    simp only [targetRead]
    rfl
  · rcases bind_eq_ok_iff.mp expanded with ⟨target, targetRead, -⟩
    have writable := Operand.isWritable_of_readDestination targetRead
    refine ⟨⟨[target], _, .decrement writable⟩, ?_⟩
    intro mark
    simp only [targetRead]
    rfl
  · rename_i condition first
    rcases bind_eq_ok_iff.mp expanded with ⟨target, targetRead, -⟩
    refine ⟨⟨[target], _, .jump target condition⟩, ?_⟩
    intro mark
    simp only [targetRead]
    rfl
  · exact ⟨⟨[], _, .systemCall⟩, fun _ => rfl⟩
  · exact ⟨⟨[], _, .idle⟩, fun _ => rfl⟩
  · cases expanded

theorem exists_plan {text : String} {speculative : Bool} {group : List MicroOp}
    (expanded : expand text speculative = .ok group) :
    ∃ plan : Plan, ∀ mark, expand text mark = .ok (plan.group mark) := by
  unfold expand at expanded ⊢
  generalize Text.words isSeparator text = tokens at expanded ⊢
  cases tokens with
  | nil => cases expanded
  | cons first tokens =>
    simp only [expandWords] at expanded ⊢
    split at expanded
    · cases expanded
    · exact exists_plan_of_operands expanded

/-- A text whose first word names no instruction has no expansion. -/
theorem expand_of_unnamed {text first name : String} {rest : List String}
    (words : Text.words isSeparator text = first :: rest) (lower : first.map Char.toLower = name)
    (unnamed : Mnemonic.named? name = none) (speculative : Bool) :
    expand text speculative = .error (.invalidOpcode name) := by
  rw [expand, words, expandWords, lower]
  simp only [unnamed]

/-- What the group of an instruction is: the group of a plan. -/
theorem exists_plan_eq {text : String} {speculative : Bool} {group : List MicroOp}
    (expanded : expand text speculative = .ok group) :
    ∃ plan : Plan, group = plan.group speculative ∧
      ∀ mark, expand text mark = .ok (plan.group mark) := by
  rcases exists_plan expanded with ⟨plan, expands⟩
  have same := expanded.symm.trans (expands speculative)
  injection same with same
  exact ⟨plan, same, expands⟩

/-! ## What all groups have in common -/

theorem Shape.length_pos {steps : List (MicroOpcode × Option Operand)} (shape : Shape steps) :
    0 < steps.length := by
  cases shape <;> exact Nat.succ_pos _

theorem Shape.length_le {steps : List (MicroOpcode × Option Operand)} (shape : Shape steps) :
    steps.length ≤ maxGroupLength := by
  cases shape <;> simp [maxGroupLength]

/-- A branch stands at the end of its steps, and not at their start. -/
theorem Shape.last_of_jump {front later : List (MicroOpcode × Option Operand)}
    {operand : Option Operand} (shape : Shape (front ++ (.jump, operand) :: later)) :
    later = [] ∧ front ≠ [] := by
  generalize listed : front ++ (.jump, operand) :: later = steps at shape
  cases shape with
  | jump target condition =>
    rcases front with _ | ⟨first, _ | ⟨second, rest⟩⟩
    · cases listed
    · injection listed with _ listed
      injection listed with _ ended
      exact ⟨ended, List.cons_ne_nil _ _⟩
    · simp at listed
  | _ =>
    have present : (.jump, operand) ∈ front ++ (.jump, operand) :: later := by simp
    rw [listed] at present
    simp at present

theorem Shape.writable_of_store {steps : List (MicroOpcode × Option Operand)} (shape : Shape steps)
    {operand : Option Operand} (stored : (.store, operand) ∈ steps) :
    ∃ target, operand = some target ∧ target.isWritable = true := by
  cases shape with
  | move source writable | increment writable | decrement writable =>
    simp only [List.mem_cons, Prod.mk.injEq, reduceCtorEq, false_and, true_and, false_or,
      List.not_mem_nil, or_false] at stored
    exact ⟨_, stored, writable⟩
  | _ => simp at stored

theorem length_pos {text : String} {speculative : Bool} {group : List MicroOp}
    (expanded : expand text speculative = .ok group) : 0 < group.length := by
  rcases exists_plan_eq expanded with ⟨plan, rfl, -⟩
  rw [Plan.group, Instruction.group, List.length_map]
  exact plan.shape.length_pos

theorem length_le {text : String} {speculative : Bool} {group : List MicroOp}
    (expanded : expand text speculative = .ok group) : group.length ≤ maxGroupLength := by
  rcases exists_plan_eq expanded with ⟨plan, rfl, -⟩
  rw [Plan.group, Instruction.group, List.length_map]
  exact plan.shape.length_le

/-- The mark of speculation changes nothing else about a group. -/
theorem expand_marked {text : String} {speculative : Bool} {group : List MicroOp}
    (expanded : expand text speculative = .ok group) (mark : Bool) :
    expand text mark = .ok (group.map (·.marked mark)) := by
  rcases exists_plan_eq expanded with ⟨plan, rfl, expands⟩
  rw [expands mark, Plan.group, Plan.group, Instruction.group, Instruction.group, List.map_map]
  rfl

theorem speculative_of_mem {text : String} {speculative : Bool} {group : List MicroOp}
    {op : MicroOp} (expanded : expand text speculative = .ok group) (member : op ∈ group) :
    op.speculative = speculative := by
  rcases exists_plan_eq expanded with ⟨plan, rfl, -⟩
  rcases List.mem_map.mp member with ⟨step, -, rfl⟩
  rfl

theorem last_of_jump {text : String} {speculative : Bool} {front later : List MicroOp}
    {op : MicroOp} (expanded : expand text speculative = .ok (front ++ op :: later))
    (branches : op.opcode = .jump) : later = [] ∧ front ≠ [] := by
  rcases exists_plan_eq expanded with ⟨plan, same, -⟩
  rcases List.append_eq_map_iff.mp same with ⟨before, others, split, rfl, rest⟩
  cases others with
  | nil => cases rest
  | cons step after =>
    injection rest with here rest
    rcases step with ⟨opcode, operand⟩
    subst here
    replace branches : opcode = .jump := branches
    subst branches
    have shape := plan.shape
    rw [split] at shape
    rcases shape.last_of_jump with ⟨rfl, started⟩
    exact ⟨rest.symm, fun empty => started (List.map_eq_nil_iff.mp empty)⟩

theorem writable_of_store {text : String} {speculative : Bool} {group : List MicroOp}
    {op : MicroOp} (expanded : expand text speculative = .ok group) (member : op ∈ group)
    (stores : op.opcode = .store) :
    ∃ target, op.operand = some target ∧ target.isWritable = true := by
  rcases exists_plan_eq expanded with ⟨plan, rfl, -⟩
  rcases List.mem_map.mp member with ⟨⟨opcode, operand⟩, listed, rfl⟩
  replace stores : opcode = .store := stores
  subst stores
  exact plan.shape.writable_of_store listed

end Instruction
end BranchPipeline
