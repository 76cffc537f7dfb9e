import BranchPipeline.Proofs.Pipeline.Sequential

namespace BranchPipeline

open Attempt

/-!
# How a sequential run stops

A sequential run stops for good when the program ends or when something fails,
and then it is the same however many micro-operations are asked for.
-/

theorem Instruction.begin_eq_error {token : String} {fault : DecodeFault}
    (failed : expand token false = .error fault) : Instruction.begin token = .error fault := by
  unfold Instruction.begin
  split <;> rename_i found <;> rw [failed] at found <;> cases found
  rfl

namespace Sequential

variable {state after last : Sequential} {op : MicroOp} {rest ops : List MicroOp}
  {machine : Machine} {fault : Fault} {count more : Nat}

/-! ## One micro-operation -/

/-- Where the counter stands there is no instruction. -/
theorem next_eq_error {token : String} {cause : DecodeFault} (fresh : state.rest = [])
    (found : state.machine.memory.tokenAt state.counter = .ok token)
    (failed : Instruction.expand token false = .error cause) :
    state.next = .error (.decode cause) := by
  rw [next, fresh]
  simp only [found]
  show (Instruction.begin token).mapError Fault.decode = _
  rw [Instruction.begin_eq_error failed]
  rfl

/-- Without a next micro-operation there is no step. -/
theorem fails_step_of_next (failed : state.next = .error fault) :
    step.Fails state fault state := by
  simp only [step, fails_bind, fails_get, fails_ofExcept, yields_get, false_or, and_assoc,
    exists_and_left, exists_eq_left]
  exact Or.inl ⟨fault, failed, rfl, trivial⟩

theorem fails_step (first : state.next = .ok (op, rest))
    (fails : (execute op rest).Fails state fault last) : step.Fails state fault last := by
  simp only [step, fails_bind, fails_get, yields_get, yields_ofExcept, false_or, and_assoc,
    exists_and_left, exists_eq_left, first]
  exact Or.inr ⟨(op, rest), rfl, Or.inl fails⟩

theorem fails_step_of_jump (first : state.next = .ok (op, rest)) (branches : op.opcode = .jump)
    (fails : (Machine.resolve op state.counter).Fails state.machine fault machine) :
    step.Fails state fault { state with machine } := by
  refine fails_step first ?_
  simp only [execute, branches, fails_bind, fails_get, yields_get, onMachine, fails_onPart,
    false_or, and_assoc, exists_and_left, exists_eq_left]
  exact Or.inl ⟨fault, machine, fails, rfl, rfl⟩

theorem fails_step_of_act (first : state.next = .ok (op, rest)) (plain : op.opcode ≠ .jump)
    (fails : (Machine.act op).Fails state.machine fault machine) :
    step.Fails state fault { state with machine } := by
  refine fails_step first ?_
  simp only [execute, fails_bind, fails_get, yields_get, onMachine, fails_onPart,
    false_or, and_assoc, exists_and_left, exists_eq_left]
  exact Or.inl ⟨fault, machine, fails, rfl, rfl⟩

/-! ## A run -/

theorem run_succ_of_fails (ran : state.run count = .ok (ops, after))
    (running : after.running = true) (fails : step.Fails after fault last) :
    state.run (count + 1) = .error fault := by
  rw [run, ran]
  show (if after.running then _ else _) = _
  rw [if_pos running, show step.perform after = _ from fails]

theorem run_of_error (failed : state.run count = .error fault) (enough : count ≤ more) :
    state.run more = .error fault := by
  induction enough with
  | refl => exact failed
  | step enough inductionHypothesis =>
    rw [Nat.succ_eq_add_one, run, inductionHypothesis]
    rfl

theorem run_of_stopped (ran : state.run count = .ok (ops, after)) (stopped : after.running = false)
    (enough : count ≤ more) : state.run more = .ok (ops, after) := by
  induction enough with
  | refl => exact ran
  | step enough inductionHypothesis =>
    rw [Nat.succ_eq_add_one, run, inductionHypothesis]
    show (if after.running then _ else _) = _
    rw [if_neg (by rw [stopped]; exact Bool.false_ne_true)]

/-- A run that has not ended has executed as many micro-operations as were asked
for. -/
theorem length_of_run (ran : state.run count = .ok (ops, after)) (running : after.running = true) :
    ops.length = count := by
  induction count generalizing ops after with
  | zero =>
    cases ran
    rfl
  | succ count inductionHypothesis =>
    rw [run] at ran
    rcases bind_eq_ok_iff.mp ran with ⟨⟨earlier, before⟩, ranBefore, further⟩
    simp only at further
    split at further
    · rename_i going
      split at further
      · cases further
        rw [List.length_append, List.length_singleton, inductionHypothesis ranBefore going]
      · cases further
    · rename_i stopped
      cases further
      exact absurd running stopped

/-- A longer run begins as a shorter one. -/
theorem prefix_of_run {others : List MicroOp} {moved : Sequential}
    (ran : state.run count = .ok (ops, after))
    (goesOn : state.run (count + more) = .ok (others, moved)) : ops <+: others := by
  induction more generalizing others moved with
  | zero =>
    cases ran.symm.trans goesOn
    exact List.prefix_rfl
  | succ more inductionHypothesis =>
    rw [← Nat.add_assoc, run] at goesOn
    rcases bind_eq_ok_iff.mp goesOn with ⟨⟨shorter, middle⟩, before, further⟩
    have began := inductionHypothesis before
    simp only at further
    split at further
    · split at further
      · cases further
        exact began.trans (List.prefix_append _ _)
      · cases further
    · cases further
      exact began

/-- A run that has ended never fails. -/
theorem run_ne_error_of_stopped (ran : state.run count = .ok (ops, after))
    (stopped : after.running = false) (other : Nat) (fault : Fault) :
    state.run other ≠ .error fault := by
  intro failed
  rcases Nat.le_total other count with fewer | more
  · cases ran.symm.trans (run_of_error failed fewer)
  · cases failed.symm.trans (run_of_stopped ran stopped more)

/-- Within so many micro-operations the program ends or fails. -/
def Stops (state : Sequential) (count : Nat) : Prop :=
  match state.run count with
  | .ok (_, reached) => reached.running = false
  | .error _ => True

theorem stops_of_error (failed : state.run count = .error fault) : state.Stops count := by
  unfold Stops
  rw [failed]
  trivial

theorem stops_of_stopped (ran : state.run count = .ok (ops, after))
    (stopped : after.running = false) : state.Stops count := by
  unfold Stops
  rw [ran]
  exact stopped

theorem Stops.of_le (stops : state.Stops count) (enough : count ≤ more) : state.Stops more := by
  cases ran : state.run count with
  | error fault => exact stops_of_error (run_of_error ran enough)
  | ok reached =>
    have stopped : reached.2.running = false := by
      unfold Stops at stops
      rwa [ran] at stops
    exact stops_of_stopped (run_of_stopped ran stopped enough) stopped

/-- It can be computed that a program goes on. -/
theorem not_stops_of_check (checked : (state.run count).toOption.any (·.2.running) = true) :
    ¬ state.Stops count := by
  intro stops
  unfold Stops at stops
  cases ran : state.run count with
  | error fault =>
    rw [ran] at checked
    cases checked
  | ok reached =>
    rw [ran] at stops checked
    cases stops.symm.trans checked

/-- It can be computed that a program has ended. -/
theorem exists_stopped_of_check
    (checked : (state.run count).toOption.any (!·.2.running) = true) :
    ∃ ops final, state.run count = .ok (ops, final) ∧ final.running = false := by
  cases ran : state.run count with
  | error fault =>
    rw [ran] at checked
    cases checked
  | ok reached =>
    rw [ran] at checked
    exact ⟨reached.1, reached.2, rfl, (Bool.not_eq_true' _).mp checked⟩

end Sequential
end BranchPipeline
