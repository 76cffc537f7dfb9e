import BranchPipeline.Proofs.Machine.Assignment

namespace BranchPipeline

open Attempt

/-!
# What a comparison tells a jump

A comparison takes its second operand to the accumulator, subtracts the first one
there and keeps of the difference no more than its sign and whether it is zero.
So a jump that asks whether the first operand is greater looks for a negative
difference.  As long as the difference fits a word, the conditions then follow the
order of the two operands as signed numbers, whatever kinds of operands these are.

One condition does not do what its name says.  "Less" only asks for a difference
that is not negative, and so does "less or equal": equal operands meet both.
-/

namespace Condition

/-- What the name of a condition says about the operands of a comparison. -/
def Orders (first second : Int) : Condition → Prop
  | always => True
  | equal => first = second
  | notEqual => first ≠ second
  | greater => second < first
  | less => first < second
  | greaterEqual => second ≤ first
  | lessEqual => first ≤ second

end Condition

/-- The number is one that a signed word can hold. -/
def FitsWord (number : Int) : Prop :=
  Int64.minValue.toInt ≤ number ∧ number ≤ Int64.maxValue.toInt

instance (number : Int) : Decidable (FitsWord number) :=
  inferInstanceAs (Decidable (_ ∧ _))

/-! ## Flags of a difference -/

namespace Flags

variable (value : Int64)

theorem sign_of_iff : (of value).sign = true ↔ value.toInt < 0 := by
  rw [of, decide_eq_true_iff, Int64.lt_iff_toInt_lt, Int64.toInt_zero]

theorem zero_of_iff : (of value).zero = true ↔ value.toInt = 0 := by
  rw [of, beq_iff_eq, ← Int64.toInt_inj, Int64.toInt_zero]

end Flags

namespace Condition

variable {first second : Int64}

theorem toInt_difference (fits : FitsWord (second.toInt - first.toInt)) :
    (second - first).toInt = second.toInt - first.toInt := by
  rcases fits with ⟨low, high⟩
  have least : Int64.minValue.toInt = -2 ^ 63 := rfl
  have greatest : Int64.maxValue.toInt = 2 ^ 63 - 1 := rfl
  rw [Int64.toInt_sub]
  exact Int.bmod_eq_of_le_mul_two (by omega) (by omega)

/-- Equal operands meet the condition too. -/
theorem isMet_less_iff (fits : FitsWord (second.toInt - first.toInt)) :
    less.isMet (Flags.of (second - first)) = true ↔ first.toInt ≤ second.toInt := by
  have sign := Flags.sign_of_iff (second - first)
  rw [toInt_difference fits] at sign
  rw [isMet, Bool.not_eq_true', ← Bool.not_eq_true, sign]
  omega

theorem isMet_iff_orders (fits : FitsWord (second.toInt - first.toInt)) {condition : Condition}
    (honest : condition ≠ less) :
    condition.isMet (Flags.of (second - first)) = true ↔
      condition.Orders first.toInt second.toInt := by
  have sign := Flags.sign_of_iff (second - first)
  have zero := Flags.zero_of_iff (second - first)
  rw [toInt_difference fits] at sign zero
  cases condition with
  | always => exact iff_of_true rfl trivial
  | equal =>
    rw [isMet, zero, Orders]
    omega
  | notEqual =>
    rw [isMet, Bool.not_eq_true', ← Bool.not_eq_true, zero, Orders]
    omega
  | greater =>
    rw [isMet, sign, Orders]
    omega
  | less => exact absurd rfl honest
  | greaterEqual =>
    rw [isMet, Bool.or_eq_true, sign, zero, Orders]
    omega
  | lessEqual =>
    rw [isMet, Bool.or_eq_true, Bool.not_eq_true', ← Bool.not_eq_true, sign, zero, Orders]
    omega

end Condition

/-! ## The steps of a comparison -/

namespace Machine

variable {before middle after : Machine} {operand : Operand} {width : Width}
  {speculative : Bool} {value : UInt64}

theorem Addresses.unique {expression : String} {address other : Address}
    (addresses : before.Addresses expression address)
    (again : before.Addresses expression other) : address = other := by
  rcases addresses with ⟨number, evaluates, positive⟩
  rcases again with ⟨same, evaluatesToo, positiveToo⟩
  cases evaluates.symm.trans evaluatesToo
  exact Except.ok.inj (positive.symm.trans positiveToo)

/-- An operand holds one value. -/
theorem Holds.unique {other : UInt64} (holds : before.Holds width operand value)
    (again : before.Holds width operand other) : value = other := by
  cases holds with
  | immediate literal =>
    cases again
    rfl
  | register content =>
    cases again with
    | register contentToo =>
      cases content.symm.trans contentToo
      rfl
  | memory addresses content =>
    cases again with
    | memory addressesToo contentToo =>
      cases addresses.unique addressesToo
      cases content.symm.trans contentToo
      rfl

theorem Accumulates.of_untouched (accumulates : before.Accumulates value middle)
    (untouched : middle.Untouched after) : before.Accumulates value after where
  holds := by rw [untouched.registers, accumulates.holds]
  registers register different := by
    rw [untouched.registers, accumulates.registers register different]
  flags := by rw [untouched.registers, accumulates.flags]
  memory := untouched.memory.trans accumulates.memory
  output := untouched.output.trans accumulates.output

/-- An operand that avoids the accumulator is the same before it was overwritten. -/
theorem Accumulates.holds_before (accumulates : before.Accumulates value middle)
    (avoids : operand.Avoids .rax) {found : UInt64} (holds : middle.Holds width operand found) :
    before.Holds width operand found := by
  cases holds with
  | immediate literal => exact .immediate literal
  | register content =>
    rw [accumulates.registers _ avoids] at content
    exact .register content
  | memory addresses content =>
    rw [accumulates.memory] at content
    exact .memory ((accumulates.addresses_iff avoids).mp addresses) content

/-- The flags describe the accumulator less the operand. -/
theorem Accumulates.compare (accumulates : before.Accumulates value middle)
    (avoids : operand.Avoids .rax)
    (fits : ∀ ref, operand = .register ref → width.bytes ≤ ref.width.bytes)
    (compares : (operate ⟨.compare, some operand, width, speculative⟩).Yields middle () after) :
    ∃ found, before.Holds width operand found ∧
      after.registers.flags = Flags.of (value.toInt64 - found.toInt64) := by
  simp only [operate, yields_bind, yields_modify] at compares
  rcases compares with ⟨found, seen, reads, current, counted, readsToo, rfl⟩
  have whole := ((accumulates.of_untouched (untouched_of_readOperand reads)).read readsToo).1
  rw [Width.truncate_quad] at whole
  refine ⟨found.toUInt64, accumulates.holds_before avoids (holds_of_readOperand fits reads), ?_⟩
  rw [whole]
  rfl

end Machine

/-! ## Whole instructions -/

namespace Instruction

open Operand (Reads)

/-- The instructions that compare: their words and what they compare. -/
inductive Compares : List String → Operand → Operand → Prop
  | compare {first second : String} {left right : Operand} (reads : Reads first left)
      (readsToo : Reads second right) : Compares ["cmp", first, second] left right

section

variable {text first : String} {tokens : List String} {speculative : Bool}
  {group : List MicroOp} {left right : Operand} {before after : Machine}

/-- The sentences among them load the second operand and compare the first. -/
theorem Compares.steps_eq {words : List String} {operands : List Operand}
    {steps : List (MicroOpcode × Option Operand)} (compares : Compares words left right)
    (sentence : Sentence words operands steps) :
    operands = [left, right] ∧ steps = [(.load, some right), (.compare, some left)] := by
  cases compares with
  | compare reads readsToo =>
    rcases sentence_iff.mp sentence with ⟨mnemonic, names, accepted, rfl⟩
    cases names.unique .compare
    rcases accepted with _ | ⟨⟨former, -⟩, _ | ⟨⟨latter, -⟩, ⟨⟩⟩⟩
    cases reads.unique former
    cases readsToo.unique latter
    exact ⟨rfl, rfl⟩

theorem compared_of_steps {width : Width} (narrowest : Narrowest [left, right] width)
    (avoids : left.Avoids .rax)
    (executes : (([(.load, some right), (.compare, some left)].map fun step =>
      (⟨step.1, step.2, width, speculative⟩ : MicroOp)).forM Machine.operate).Yields before ()
        after) :
    ∃ one two, before.Holds width left one ∧ before.Holds width right two ∧
      after.registers.flags = Flags.of (two.toInt64 - one.toInt64) := by
  have fits {operand : Operand} (member : operand ∈ [left, right]) :
      ∀ ref, operand = .register ref → width.bytes ≤ ref.width.bytes := by
    rintro ref rfl
    exact narrowest.2 ref member
  simp only [List.map_cons, List.map_nil, List.forM_eq_forM, List.forM_cons, List.forM_nil,
    yields_bind, yields_pure] at executes
  rcases executes with ⟨_, loaded, loads, _, _, compares, -, rfl⟩
  have member : right ∈ [left, right] := List.mem_cons_of_mem _ List.mem_cons_self
  rcases Machine.accumulates_of_load (fits member) loads with ⟨two, holds, accumulates⟩
  rcases accumulates.compare avoids (fits List.mem_cons_self) compares with ⟨one, found, flags⟩
  exact ⟨one, two, found, holds, flags⟩

/-- A comparison that decodes, with a first operand that does not depend on the
accumulator, leaves the flags by which the conditions order the two operands as they
were in front of it, read at the width of the narrowest register among them.  Unless
the difference of the two is too large for a word, a condition is then met exactly
if it says the truth, but for one: "less" is met by equal operands as well. -/
theorem compares_as_signed (expanded : expand text speculative = .ok group)
    (words : Text.words isSeparator text = first :: tokens)
    (compares : Compares (first.map Char.toLower :: tokens) left right)
    (avoids : left.Avoids .rax)
    (executes : (group.forM Machine.operate).Yields before () after) :
    ∃ width one two, Narrowest [left, right] width ∧
      before.Holds width left one ∧ before.Holds width right two ∧
      (FitsWord (two.toInt64.toInt - one.toInt64.toInt) →
        (∀ condition : Condition, condition ≠ .less →
          (condition.isMet after.registers.flags = true ↔
            condition.Orders one.toInt64.toInt two.toInt64.toInt)) ∧
        (Condition.less.isMet after.registers.flags = true ↔
          one.toInt64.toInt ≤ two.toInt64.toInt)) := by
  rw [expand, words, expandWords_eq_ok_iff] at expanded
  rcases expanded with ⟨operands, steps, width, sentence, narrowest, rfl⟩
  rcases compares.steps_eq sentence with ⟨rfl, rfl⟩
  rcases compared_of_steps narrowest avoids executes with ⟨one, two, found, holds, flags⟩
  refine ⟨width, one, two, narrowest, found, holds, fun inRange => ?_⟩
  rw [flags]
  exact ⟨fun condition honest => Condition.isMet_iff_orders inRange honest,
    Condition.isMet_less_iff inRange⟩

end

/-- The word in a cell is minus five and the low byte of the register is fifty-two,
so a jump on "less" is taken and one on "greater or equal" is not. -/
theorem compares_as_signed_mixed :
    let registers := RegisterFile.write (RegisterFile.write {} (.full .rcx) 0x1234) (.full .rbx) 1
    let before : Machine :=
      { registers, memory := ⟨#[.word 0, .word 0, .word (-5)], ⟨0, 0⟩⟩, output := .accepting }
    let group : List MicroOp :=
      [⟨.load, some (.register ⟨.rcx, .byte⟩), .byte, false⟩,
        ⟨.compare, some (.memory "rbx+1"), .byte, false⟩]
    let left : Operand := .memory "rbx+1"
    expand "cmp [rbx+1] rcxb" false = .ok group ∧ left.Avoids .rax ∧ FitsWord (0x34 - -5) ∧
    ∃ after, (group.forM Machine.operate).Yields before () after ∧
      Condition.less.isMet after.registers.flags = true ∧
      ¬Condition.greaterEqual.isMet after.registers.flags = true := by
  intro registers before group left
  have expanded : expand "cmp [rbx+1] rcxb" false = .ok group := by decide +kernel
  have words : Text.words isSeparator "cmp [rbx+1] rcxb" = ["cmp", "[rbx+1]", "rcxb"] := by
    decide +kernel
  have compares : Compares ("cmp".map Char.toLower :: ["[rbx+1]", "rcxb"]) left
      (.register ⟨.rcx, .byte⟩) := by
    rw [show "cmp".map Char.toLower = "cmp" by decide +kernel]
    exact .compare (Operand.read_eq_ok_iff.mp (by decide +kernel))
      (Operand.read_eq_ok_iff.mp (by decide +kernel))
  have avoids : left.Avoids .rax := by decide +kernel
  have executes : (group.forM Machine.operate).Yields before ()
      ((group.forM Machine.operate).perform before).2 := by
    refine Prod.ext ?_ rfl
    decide +kernel
  have fits : FitsWord (0x34 - -5) := by decide
  rcases compares_as_signed expanded words compares avoids executes with
    ⟨width, one, two, narrowest, found, holds, ordered⟩
  obtain rfl : width = .byte := narrowest.unique (narrowest_groupWidth _)
  have address : before.Addresses "rbx+1" ⟨2⟩ := ⟨2, by decide +kernel, by decide +kernel⟩
  cases found.unique (.memory address rfl)
  cases holds.unique (.register rfl)
  rcases ordered fits with ⟨others, less⟩
  refine ⟨expanded, avoids, fits, _, executes, less.mpr (by decide), ?_⟩
  rw [others .greaterEqual nofun]
  exact (by decide : ¬(52 : Int) ≤ -5)

/-- Three is not less than three, and still a jump on "less" would be taken. -/
theorem less_met_by_equals :
    let registers := RegisterFile.write {} (.full .rbx) 3
    let before : Machine := { registers, memory := .blank 4, output := .accepting }
    let group : List MicroOp :=
      [⟨.load, some (.immediate 3), .quad, false⟩,
        ⟨.compare, some (.register (.full .rbx)), .quad, false⟩]
    expand "cmp rbx 3" false = .ok group ∧
    ∃ after, (group.forM Machine.operate).Yields before () after ∧
      before.Holds .quad (.register (.full .rbx)) 3 ∧ before.Holds .quad (.immediate 3) 3 ∧
      FitsWord (3 - 3) ∧
      ¬(Condition.less.isMet after.registers.flags = true ↔ Condition.less.Orders 3 3) := by
  intro registers before group
  have executes : (group.forM Machine.operate).Yields before ()
      ((group.forM Machine.operate).perform before).2 := by
    refine Prod.ext ?_ rfl
    decide +kernel
  have met : Condition.less.isMet
      ((group.forM Machine.operate).perform before).2.registers.flags = true := by decide +kernel
  have three : before.Holds .quad (.register (.full .rbx)) 3 :=
    @Machine.Holds.register before .quad (.full .rbx) 3 rfl
  refine ⟨by decide +kernel, _, executes, three, .immediate 3, by decide, ?_⟩
  exact fun same => Int.lt_irrefl 3 (same.mp met)

end Instruction
end BranchPipeline
