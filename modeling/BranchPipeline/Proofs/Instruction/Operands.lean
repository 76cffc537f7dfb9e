import BranchPipeline.Proofs.Instruction.Groups
import BranchPipeline.Proofs.Machine.Effects

namespace BranchPipeline

/-!
# What micro-operations act on

The machine has a fault for a micro-operation whose operand it can do nothing
with.  No instruction expands into such a micro-operation.  And the mark of
speculation shows in no other fault, so marking a micro-operation that an
instruction expands into changes neither its effects nor its faults.  Nor does
the mark matter to the faults of expanding an instruction.
-/

namespace Operand

/-- An operand that has a value. -/
def isReadable : Operand → Bool
  | register _ | memory _ | immediate _ => true
  | condition _ => false

@[simp]
theorem isReadable_immediate (value : Int64) : (immediate value).isReadable = true := rfl

theorem isReadable_of_read {token : String} {operand : Operand}
    (accepted : read token = .ok operand) : operand.isReadable = true := by
  unfold read at accepted
  split at accepted
  · split at accepted <;> cases accepted
    rfl
  · split at accepted
    · cases accepted
      rfl
    · split at accepted <;> cases accepted
      rfl

/-- What may be written may be read. -/
theorem isReadable_of_isWritable {operand : Operand} (writable : operand.isWritable = true) :
    operand.isReadable = true := by
  cases operand with
  | condition met => cases writable
  | register | memory | immediate => rfl

end Operand

/-- The operand is one that the micro-operation can act on. -/
def MicroOp.Apt (op : MicroOp) : Prop :=
  match op.opcode with
  | .load | .add | .subtract | .compare =>
    ∃ operand, op.operand = some operand ∧ operand.isReadable = true
  | .store => ∃ target, op.operand = some target ∧ target.isWritable = true
  | .jump => ∃ condition, op.operand = some (.condition condition)
  | .systemCall | .idle => True

namespace Instruction

/-- The operands of an instruction are read in the same way for either mark. -/
theorem expandOperands_marked (name : String) (mnemonic : Mnemonic) (tokens : List String)
    (speculative mark : Bool) :
    expandOperands name mnemonic tokens mark =
      (expandOperands name mnemonic tokens speculative).map (·.map (·.marked mark)) := by
  unfold expandOperands
  split
  · rename_i first second
    cases Operand.readDestination first with
    | error fault => rfl
    | ok target => cases Operand.read second <;> rfl
  · rename_i first second
    cases Operand.read first with
    | error fault => rfl
    | ok left => cases Operand.read second <;> rfl
  · rename_i first
    cases Operand.readDestination first <;> rfl
  · rename_i first
    cases Operand.readDestination first <;> rfl
  · rename_i condition first
    cases Operand.read first <;> rfl
  all_goals rfl

/-- A text that has no expansion has none for either mark, and for one reason. -/
theorem expand_eq_error_marked {text : String} {speculative : Bool} {fault : DecodeFault}
    (failed : expand text speculative = .error fault) (mark : Bool) :
    expand text mark = .error fault := by
  unfold expand at failed ⊢
  generalize Text.words isSeparator text = tokens at failed ⊢
  cases tokens with
  | nil => exact failed
  | cons first tokens =>
    simp only [expandWords] at failed ⊢
    split at failed
    · exact failed
    · rw [expandOperands_marked _ _ _ speculative, failed]
      rfl

theorem apt_of_expandOperands {name : String} {mnemonic : Mnemonic} {tokens : List String}
    {speculative : Bool} {group : List MicroOp}
    (expanded : expandOperands name mnemonic tokens speculative = .ok group) :
    ∀ op ∈ group, op.Apt := by
  unfold expandOperands at expanded
  split at expanded
  · rcases bind_eq_ok_iff.mp expanded with ⟨target, targetRead, expanded⟩
    rcases bind_eq_ok_iff.mp expanded with ⟨source, sourceRead, expanded⟩
    cases expanded
    have writable := Operand.isWritable_of_readDestination targetRead
    have readable := Operand.isReadable_of_read sourceRead
    simp [group, MicroOp.Apt, readable, writable]
  · rcases bind_eq_ok_iff.mp expanded with ⟨left, leftRead, expanded⟩
    rcases bind_eq_ok_iff.mp expanded with ⟨right, rightRead, expanded⟩
    cases expanded
    have first := Operand.isReadable_of_read leftRead
    have second := Operand.isReadable_of_read rightRead
    simp [group, MicroOp.Apt, first, second]
  · rcases bind_eq_ok_iff.mp expanded with ⟨target, targetRead, expanded⟩
    cases expanded
    have writable := Operand.isWritable_of_readDestination targetRead
    have readable := Operand.isReadable_of_isWritable writable
    simp [group, MicroOp.Apt, readable, writable]
  · rcases bind_eq_ok_iff.mp expanded with ⟨target, targetRead, expanded⟩
    cases expanded
    have writable := Operand.isWritable_of_readDestination targetRead
    have readable := Operand.isReadable_of_isWritable writable
    simp [group, MicroOp.Apt, readable, writable]
  · rcases bind_eq_ok_iff.mp expanded with ⟨target, targetRead, expanded⟩
    cases expanded
    have readable := Operand.isReadable_of_read targetRead
    simp [group, MicroOp.Apt, readable]
  · cases expanded
    simp [group, MicroOp.Apt]
  · cases expanded
    simp [group, MicroOp.Apt]
  · cases expanded

/-- An instruction only expands into micro-operations that have something to act
on. -/
theorem apt_of_mem {text : String} {speculative : Bool} {group : List MicroOp} {op : MicroOp}
    (expanded : expand text speculative = .ok group) (member : op ∈ group) : op.Apt := by
  unfold expand at expanded
  generalize Text.words isSeparator text = tokens at expanded
  cases tokens with
  | nil => cases expanded
  | cons first tokens =>
    simp only [expandWords] at expanded
    split at expanded
    · cases expanded
    · exact apt_of_expandOperands expanded op member

end Instruction

namespace Machine

/-- The mark of a micro-operation that has something to act on does not show. -/
theorem act_marked {op : MicroOp} (apt : op.Apt) (speculative : Bool) :
    act (op.marked speculative) = act op := by
  rcases op with ⟨opcode, operand, width, mark⟩
  cases opcode with
  | load | add | subtract | compare =>
    rcases apt with ⟨operand, named, readable⟩
    cases named
    cases operand with
    | condition met => cases readable
    | register | memory | immediate => rfl
  | store =>
    rcases apt with ⟨operand, named, writable⟩
    cases named
    cases operand with
    | condition met => cases writable
    | immediate value => cases writable
    | register | memory => rfl
  | jump | systemCall | idle => rfl

theorem resolve_marked {op : MicroOp} (apt : op.Apt) (branches : op.opcode = .jump)
    (speculative : Bool) (location : UInt64) :
    resolve (op.marked speculative) location = resolve op location := by
  rcases op with ⟨opcode, operand, width, mark⟩
  cases branches
  rcases apt with ⟨condition, named⟩
  cases named
  rfl

end Machine
end BranchPipeline
