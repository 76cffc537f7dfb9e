import BranchPipeline.Proofs.Pipeline.CycleCount
import BranchPipeline.Proofs.Simulation.Calls

namespace BranchPipeline

/-!
# Where the calls of a simulator lead

A cycle under the control of a user does what the next cycle without a debugger
would have done, up to the counts of accesses.  So the number of completed
cycles says where a simulator is, and a run to the exit from the start passes
the same places.  What else is known of the counts may be added, as long as it
survives a cycle on both sides.
-/

namespace Processor

variable {configuration : Configuration} {kind : PredictorKind} {executable : Executable}
  {output : Output} {start before after : Processor}

/-! ## Cycles without a debugger -/

/-- A cycle that does not fail ends the program exactly if it says so. -/
theorem Condition.exit_iff {trace : CycleTrace} {flow : Flow} (condition : before.Condition)
    (ran : before.runCycle = (.ok (trace, flow), after)) :
    flow = .exit ↔ after.running = false := by
  cases condition with
  | going running stocked =>
    rcases stocked.exists_turn running ran with ⟨-, -, ends⟩
    exact ends
  | exited stopped holds stalled =>
    rw [runCycle_of_stopped stopped] at ran
    cases ran
    exact ⟨fun _ => stopped, fun _ => rfl⟩

/-- Only a running processor counts its cycles. -/
theorem Condition.cycle_eq {trace : CycleTrace} {flow : Flow} (condition : before.Condition)
    (ran : before.runCycle = (.ok (trace, flow), after)) :
    after.cycle = before.cycle + before.running.toNat := by
  cases condition with
  | going running stocked =>
    rcases stocked.turns running ran with ⟨reached, turns⟩
    rw [(turns.accounts stocked running).counted, running]
    rfl
  | exited stopped holds stalled =>
    rw [runCycle_of_stopped stopped] at ran
    cases ran
    rw [stopped]
    rfl

/-- A processor that has stopped does not start again. -/
theorem running_of_runCycle {result : CycleTrace × Flow}
    (ran : before.runCycle = (.ok result, after)) (running : after.running = true) :
    before.running = true := by
  cases going : before.running with
  | true => rfl
  | false =>
    rw [runCycle_of_stopped going] at ran
    cases ran
    exact going.symm.trans running

/-- A run has completed no more cycles than it was asked for, and as many if the
program still runs. -/
theorem Loaded.cycle_of_runCycles {count : Nat} {traces : List CycleTrace}
    (loaded : Loaded configuration kind executable output start)
    (ran : start.runCycles count = .ok (traces, after)) :
    after.cycle ≤ count ∧ (after.running = true → after.cycle = count) := by
  induction count generalizing traces after with
  | zero =>
    cases ran
    exact ⟨Nat.le_of_eq loaded.cycle, fun _ => loaded.cycle⟩
  | succ count inductionHypothesis =>
    rcases runCycles_succ.mp ran with ⟨earlier, before, trace, flow, shorter, once, rfl⟩
    rcases inductionHypothesis shorter with ⟨few, exact⟩
    have counted := (loaded.condition_of_runCycles shorter).cycle_eq once
    constructor
    · have most : before.running.toNat ≤ 1 := Bool.toNat_le before.running
      omega
    · intro still
      have running := running_of_runCycle once still
      rw [counted, running, exact running]
      rfl

end Processor

namespace Simulator

open Processor

/-! ## Where the calls lead -/

variable {configuration : Configuration} {kind : PredictorKind} {executable : Executable}
  {output : Output} {start : Processor} {before middle after : Simulator}

/-- The processors differ at most in their counts of accesses, and what else is
said of them survives a cycle of both. -/
structure LockStep (tie : Processor → Processor → Prop) : Prop where
  same ⦃first second : Processor⦄ (tied : tie first second) : first.SameButAccesses second
  runCycle ⦃first second : Processor⦄ (tied : tie first second) :
    Attempt.Alike tie first.runCycle second.runCycle

theorem lockStep_sameButAccesses : LockStep Processor.SameButAccesses :=
  ⟨fun _ _ same => same, fun _ _ same => same.runCycle⟩

/-- What one of them does in a cycle, the other does. -/
theorem LockStep.exists_runCycle {tie : Processor → Processor → Prop}
    {first second reached : Processor} {outcome : Except Fault (CycleTrace × Flow)}
    (lockStep : LockStep tie) (tied : tie first second)
    (ran : second.runCycle = (outcome, reached)) :
    ∃ other, first.runCycle = (outcome, other) ∧ tie other reached := by
  have alike := lockStep.runCycle tied
  rw [ran] at alike
  exact ⟨first.runCycle.2, Prod.ext alike.result rfl, alike.state⟩

/-- The simulator is tied to where as many cycles lead without a debugger or,
after a fault, to where the failing cycle behind them does. -/
inductive Tracks (tie : Processor → Processor → Prop) (start : Processor)
    (simulator : Simulator) : Prop
  | sound {traces : List CycleTrace} {unwatched : Processor} (failure : simulator.failure = none)
      (ran : start.runCycles simulator.cycle = .ok (traces, unwatched))
      (same : tie unwatched simulator.processor)
  | broken {fault : Fault} {traces : List CycleTrace} {reached unwatched : Processor}
      (failure : simulator.failure = some fault)
      (ran : start.runCycles simulator.cycle = .ok (traces, reached))
      (fails : reached.runCycle = (.error fault, unwatched))
      (same : tie unwatched simulator.processor)

/-- The simulator is where as many cycles lead without a debugger or, after a
fault, where the failing cycle behind them does. -/
abbrev Follows (start : Processor) (simulator : Simulator) : Prop :=
  Tracks Processor.SameButAccesses start simulator

/-- The program has ended, and no cycle has failed. -/
structure Halted (simulator : Simulator) : Prop where
  failure : simulator.failure = none
  stopped : simulator.processor.running = false

/-- A cycle has failed. -/
def Failed (simulator : Simulator) : Prop := simulator.failure ≠ none

theorem LookedAt.cycle_eq (looked : before.LookedAt after) : after.cycle = before.cycle :=
  looked.processor.cycle_eq

theorem Follows.of_lookedAt (follows : Follows start before) (looked : before.LookedAt after) :
    Follows start after := by
  cases follows with
  | sound failure ran same =>
    rw [← looked.cycle_eq] at ran
    exact .sound (looked.failure.trans failure) ran (same.trans looked.processor)
  | broken failure ran fails same =>
    rw [← looked.cycle_eq] at ran
    exact .broken (looked.failure.trans failure) ran fails (same.trans looked.processor)

theorem Halted.of_lookedAt (halted : before.Halted) (looked : before.LookedAt after) :
    after.Halted :=
  ⟨looked.failure.trans halted.failure, looked.processor.running_eq.trans halted.stopped⟩

theorem Failed.of_lookedAt (failed : before.Failed) (looked : before.LookedAt after) :
    after.Failed := by
  rw [Failed, looked.failure]
  exact failed

/-- A cycle under the control of a user is one without a debugger. -/
theorem Tracks.next {tie : Processor → Processor → Prop}
    {result : Except Fault (CycleTrace × Flow)} (lockStep : LockStep tie)
    (loaded : Loaded configuration kind executable output start)
    (tracks : Tracks tie start before) (sound : before.failure = none)
    (advances : before.Advances result after) : Tracks tie start after := by
  cases tracks with
  | broken failure _ _ _ =>
    rw [sound] at failure
    cases failure
  | @sound traces unwatched _ ran same =>
    have reached : before.cycle = unwatched.cycle := (lockStep.same same).cycle_eq
    cases advances with
    | @ok done after failure once =>
      rcases lockStep.exists_runCycle same once with ⟨next, alone, same⟩
      have counted := (loaded.condition_of_runCycles ran).cycle_eq alone
      rw [← (lockStep.same same).cycle_eq, ← reached] at counted
      have goes : ∃ traces, start.runCycles after.processor.cycle = .ok (traces, next) := by
        rw [counted]
        cases running : unwatched.running with
        | true =>
          exact ⟨_, runCycles_succ.mpr ⟨traces, unwatched, done.1, done.2, ran, alone, rfl⟩⟩
        | false =>
          rw [runCycle_of_stopped running] at alone
          cases alone
          exact ⟨traces, ran⟩
      rcases goes with ⟨traces, goes⟩
      exact .sound (failure.trans sound) goes same
    | @error fault after failure fails =>
      rcases lockStep.exists_runCycle same fails with ⟨next, alone, same⟩
      have counted := (lockStep.same same).cycle_eq.trans (cycle_of_fails alone)
      rw [← reached] at counted
      rw [← counted] at ran
      exact .broken failure ran alone same

theorem Follows.next {result : Except Fault (CycleTrace × Flow)}
    (loaded : Loaded configuration kind executable output start) (follows : Follows start before)
    (sound : before.failure = none) (advances : before.Advances result after) :
    Follows start after :=
  Tracks.next lockStep_sameButAccesses loaded follows sound advances

/-- The last cycle of a program halts the processor. -/
theorem Follows.halted {trace : CycleTrace}
    (loaded : Loaded configuration kind executable output start) (follows : Follows start before)
    (sound : before.failure = none) (advances : before.Advances (.ok (trace, .exit)) after) :
    after.Halted := by
  cases follows with
  | broken failure _ _ _ =>
    rw [sound] at failure
    cases failure
  | sound _ ran same =>
    cases advances with
    | ok failure once =>
      rcases lockStep_sameButAccesses.exists_runCycle same once with ⟨next, alone, same⟩
      have stopped := ((loaded.condition_of_runCycles ran).exit_iff alone).mp rfl
      exact ⟨failure.trans sound, same.running_eq.trans stopped⟩

/-- What is known when a call has come to its end. -/
structure Ended (start : Processor) (ending : RunEnd) (after : Simulator) : Prop where
  follows : Follows start after
  exited : ending = .exited → after.Halted
  failed : ∀ watched, ending = .stopped .failed watched → after.Failed

theorem Pursues.ended {ending : RunEnd}
    (loaded : Loaded configuration kind executable output start)
    (pursues : before.Pursues ending after) (follows : Follows start before)
    (sound : before.failure = none) : Ended start ending after := by
  induction pursues with
  | stopped other looked =>
    refine ⟨follows.of_lookedAt looked, nofun, ?_⟩
    rintro watched same
    cases same
    exact absurd rfl other
  | exited advances =>
    exact ⟨follows.next loaded sound advances, fun _ => follows.halted loaded sound advances, nofun⟩
  | failed advances looked =>
    refine ⟨(follows.next loaded sound advances).of_lookedAt looked, nofun, ?_⟩
    rintro watched -
    refine Failed.of_lookedAt ?_ looked
    cases advances with
    | error failure fails =>
      rw [Failed, failure]
      exact Option.some_ne_none _
  | proceeded advances later inductionHypothesis =>
    refine inductionHypothesis (follows.next loaded sound advances) ?_
    cases advances with
    | ok failure ran => exact failure.trans sound

theorem Runs.ended {ending : RunEnd}
    (loaded : Loaded configuration kind executable output start)
    (runs : before.Runs ending after) (follows : Follows start before) :
    Ended start ending after := by
  cases runs with
  | refused failure looked => exact ⟨follows.of_lookedAt looked, nofun, nofun⟩
  | pursued sound pursues => exact pursues.ended loaded follows sound

/-- After the exit, a call only finds that the program has ended. -/
theorem Halted.runs {ending : RunEnd} (halted : before.Halted) (runs : before.Runs ending after) :
    after.Halted := by
  cases runs with
  | refused failure looked => exact halted.of_lookedAt looked
  | pursued sound pursues =>
    induction pursues with
    | stopped other looked => exact halted.of_lookedAt looked
    | exited advances =>
      cases advances with
      | ok failure ran =>
        rw [runCycle_of_stopped halted.stopped] at ran
        have same := (Prod.mk.inj ran).2
        exact ⟨failure.trans halted.failure, same ▸ halted.stopped⟩
    | failed advances looked =>
      cases advances with
      | error failure fails =>
        rw [runCycle_of_stopped halted.stopped] at fails
        cases fails
    | proceeded advances later inductionHypothesis =>
      cases advances with
      | ok failure ran =>
        rw [runCycle_of_stopped halted.stopped] at ran
        cases ran

/-- After a fault, a call only looks. -/
theorem Failed.runs {ending : RunEnd} (failed : before.Failed) (runs : before.Runs ending after) :
    after.Failed := by
  cases runs with
  | refused failure looked => exact failed.of_lookedAt looked
  | pursued sound pursues => exact absurd sound failed

/-! ## A run to the exit -/

section

variable {β : Type} {observe : Observer β} {simulator : Simulator} {count budget : Nat}
  {traces : List CycleTrace} {reached : Processor}

/-- A run to the exit passes everything that a running program passes. -/
theorem exists_pursueExit (loaded : Loaded configuration kind executable output start)
    (fresh : simulator.processor = start) (ran : start.runCycles count = .ok (traces, reached))
    (running : reached.running = true) (observe : Observer β) (seen : β) :
    ∃ middle result, middle.processor = reached ∧ ∀ budget,
      pursueExit observe (count + budget) simulator seen =
        pursueExit observe budget middle result := by
  induction count generalizing traces reached with
  | zero =>
    cases ran
    refine ⟨simulator, seen, fresh, ?_⟩
    intro budget
    rw [Nat.zero_add]
  | succ count inductionHypothesis =>
    rcases runCycles_succ.mp ran with ⟨earlier, before, trace, flow, shorter, once, rfl⟩
    have proceeds : flow = .proceed := by
      cases flow with
      | proceed => rfl
      | exit =>
        have stopped := ((loaded.condition_of_runCycles shorter).exit_iff once).mp rfl
        rw [running] at stopped
        cases stopped
    subst proceeds
    rcases inductionHypothesis shorter (running_of_runCycle once running) with
        ⟨middle, result, rfl, passes⟩
    rcases exists_advance once with ⟨next, step, rfl⟩
    refine ⟨next, observe next.processor trace result, rfl, ?_⟩
    intro budget
    rw [Nat.add_assoc, Nat.add_comm 1, passes, pursueExit, step]

/-- Where the program ends, a run to the exit exits. -/
theorem runToExit_of_stopped (loaded : Loaded configuration kind executable output start)
    (fresh : simulator.processor = start) (sound : simulator.failure = none)
    (ran : start.runCycles count = .ok (traces, reached)) (stopped : reached.running = false)
    (counted : reached.cycle = count) (enough : count ≤ budget) (seen : β) :
    ∃ last result, simulator.runToExit observe budget seen =
      some (.ok reached.record, last, result) ∧ last.cycle = count := by
  cases count with
  | zero =>
    cases ran
    rw [loaded.running] at stopped
    cases stopped
  | succ count =>
    rcases runCycles_succ.mp ran with ⟨earlier, before, trace, flow, shorter, once, rfl⟩
    have condition := loaded.condition_of_runCycles shorter
    have running : before.running = true := by
      cases running : before.running with
      | true => rfl
      | false =>
        rw [runCycle_of_stopped running] at once
        cases once
        have few := (loaded.cycle_of_runCycles shorter).1
        omega
    cases (condition.exit_iff once).mpr stopped
    rcases exists_pursueExit loaded fresh shorter running observe seen with
        ⟨middle, result, rfl, passes⟩
    rcases Nat.exists_eq_add_of_le enough with ⟨spare, rfl⟩
    rcases exists_advance once with ⟨last, step, rfl⟩
    refine ⟨last, observe last.processor trace result, ?_, counted⟩
    rw [runToExit, sound]
    simp only
    rw [Nat.add_assoc, Nat.add_comm 1, passes, pursueExit, step]

/-- Where a cycle fails, a run to the exit fails with the same fault. -/
theorem runToExit_of_fault {fault : Fault} {broken : Processor}
    (loaded : Loaded configuration kind executable output start)
    (fresh : simulator.processor = start) (sound : simulator.failure = none)
    (ran : start.runCycles count = .ok (traces, reached))
    (fails : reached.runCycle = (.error fault, broken)) (enough : count < budget) (seen : β) :
    ∃ last result, simulator.runToExit observe budget seen =
      some (.error fault.message, last, result) ∧ last.failure = some fault := by
  rcases exists_pursueExit loaded fresh ran (running_of_fails fails) observe seen with
      ⟨middle, result, rfl, passes⟩
  rcases Nat.exists_eq_add_of_lt enough with ⟨spare, rfl⟩
  rcases exists_failing_advance fails with ⟨last, step, failure⟩
  refine ⟨last, result, ?_, failure⟩
  rw [runToExit, sound]
  simp only
  rw [Nat.add_assoc, passes, pursueExit, step]

end

end Simulator
end BranchPipeline
