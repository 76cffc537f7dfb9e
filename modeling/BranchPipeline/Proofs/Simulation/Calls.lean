import BranchPipeline.Proofs.Pipeline.Accesses
import BranchPipeline.Simulation.Simulator

namespace BranchPipeline

open Attempt

/-!
# What a call of a simulator does

Between its cycles a simulator is only looked at, which leaves its traces in
the counts of accesses and nowhere else.  `Pursues` lists how a run comes to its
end, in terms of cycles and looks; the options decide which of these happens,
and an observer decides nothing.
-/

namespace Simulator

/-! ## Looking at a simulator -/

/-- The simulators differ at most in their counts of accesses. -/
def SameButAccesses (first second : Simulator) : Prop :=
  ∃ accesses, second = { first with processor := first.processor.withAccesses accesses }

/-- The simulator has been looked at. -/
structure LookedAt (before after : Simulator) : Prop where
  failure : after.failure = before.failure
  processor : before.processor.SameButAccesses after.processor

section

variable {before middle after : Simulator}

theorem SameButAccesses.refl (simulator : Simulator) : simulator.SameButAccesses simulator :=
  ⟨simulator.processor.machine.accesses, rfl⟩

theorem SameButAccesses.trans (one : before.SameButAccesses middle)
    (two : middle.SameButAccesses after) : before.SameButAccesses after := by
  rcases one with ⟨_, rfl⟩
  rcases two with ⟨accesses, rfl⟩
  exact ⟨accesses, rfl⟩

theorem SameButAccesses.failure_eq (same : before.SameButAccesses after) :
    after.failure = before.failure := by
  rcases same with ⟨accesses, rfl⟩
  rfl

theorem SameButAccesses.lookedAt (same : before.SameButAccesses after) : before.LookedAt after := by
  rcases same with ⟨accesses, rfl⟩
  exact ⟨rfl, accesses, rfl⟩

theorem LookedAt.refl (simulator : Simulator) : simulator.LookedAt simulator :=
  ⟨rfl, .refl _⟩

theorem LookedAt.trans (one : before.LookedAt middle) (two : middle.LookedAt after) :
    before.LookedAt after :=
  ⟨two.failure.trans one.failure, one.processor.trans two.processor⟩

theorem sameButAccesses_readRegister (simulator : Simulator) (ref : RegisterRef) :
    simulator.SameButAccesses (simulator.readRegister ref).2 :=
  ⟨_, rfl⟩

theorem sameButAccesses_readCell (simulator : Simulator) (address : Address) :
    simulator.SameButAccesses (simulator.readCell address).2 := by
  have untouched : simulator.processor.machine.Untouched
      ((Machine.readCell address).perform simulator.processor.machine).2 := by
    simp only [Machine.readCell, perform_bind, perform_get, perform_ofExcept]
    cases simulator.processor.machine.memory.get address with
    | ok cell => exact ⟨rfl, rfl, rfl⟩
    | error fault => exact .refl _
  rcases Processor.SameButAccesses.of_untouched untouched with ⟨accesses, same⟩
  refine ⟨accesses, ?_⟩
  rw [← same]
  rfl

/-- One look after the other. -/
theorem sameButAccesses_foldl {α β : Type} {look : β × Simulator → α → β × Simulator}
    (looks : ∀ (seen : β × Simulator) item, seen.2.SameButAccesses (look seen item).2)
    (items : List α) (seen : β × Simulator) :
    seen.2.SameButAccesses (items.foldl look seen).2 := by
  induction items generalizing seen with
  | nil => exact .refl _
  | cons item later inductionHypothesis =>
    exact (looks seen item).trans (inductionHypothesis (look seen item))

theorem sameButAccesses_gather (watchings : Watchings) (simulator : Simulator) :
    simulator.SameButAccesses (simulator.gather watchings).2 := by
  change simulator.SameButAccesses (List.foldl _ ([], (List.foldl _ ([], simulator)
    watchings.registers).2) watchings.addresses).2
  refine (sameButAccesses_foldl ?_ watchings.registers ([], simulator)).trans
    (sameButAccesses_foldl ?_ watchings.addresses ([], _))
  · intro seen ref
    exact sameButAccesses_readRegister seen.2 ref
  · intro seen address
    exact sameButAccesses_readCell seen.2 address

/-- A run that stops says why, and reads what is watched. -/
theorem sameButAccesses_of_stop {options : Options} {reason : StopReason} {ending : RunEnd}
    (stops : before.stop options reason = (ending, after)) :
    (∃ watched, ending = .stopped reason watched) ∧ before.SameButAccesses after := by
  cases stops
  exact ⟨⟨_, rfl⟩, sameButAccesses_gather options.watchings before⟩

theorem lookedAt_of_stop {options : Options} {reason : StopReason} {ending : RunEnd}
    (stops : before.stop options reason = (ending, after)) :
    (∃ watched, ending = .stopped reason watched) ∧ before.LookedAt after := by
  rcases sameButAccesses_of_stop stops with ⟨stopped, same⟩
  exact ⟨stopped, same.lookedAt⟩

/-! ## What a call does -/

/-- A cycle under the control of a user. -/
inductive Advances (before : Simulator) : Except Fault (CycleTrace × Flow) → Simulator → Prop
  | ok {result : CycleTrace × Flow} {after : Simulator} (failure : after.failure = before.failure)
      (ran : before.processor.runCycle = (.ok result, after.processor)) :
      Advances before (.ok result) after
  | error {fault : Fault} {after : Simulator} (failure : after.failure = some fault)
      (fails : before.processor.runCycle = (.error fault, after.processor)) :
      Advances before (.error fault) after

theorem advances_of_advance {result : Except Fault (CycleTrace × Flow)}
    (advances : before.advance = (result, after)) : before.Advances result after := by
  unfold advance at advances
  cases ran : before.processor.runCycle with
  | mk outcome processor =>
    rw [ran] at advances
    cases outcome with
    | ok done =>
      cases advances
      exact .ok rfl ran
    | error fault =>
      cases advances
      exact .error rfl ran

theorem failure_of_advance {result : CycleTrace × Flow}
    (advances : before.advance = (.ok result, after)) : after.failure = before.failure := by
  cases advances_of_advance advances with
  | ok failure _ => exact failure

theorem exists_advance {result : CycleTrace × Flow} {reached : Processor}
    (ran : before.processor.runCycle = (.ok result, reached)) :
    ∃ next, before.advance = (.ok result, next) ∧ next.processor = reached := by
  rw [advance, ran]
  exact ⟨_, rfl, rfl⟩

theorem exists_failing_advance {fault : Fault} {reached : Processor}
    (fails : before.processor.runCycle = (.error fault, reached)) :
    ∃ next, before.advance = (.error fault, next) ∧ next.failure = some fault := by
  rw [advance, fails]
  exact ⟨_, rfl, rfl⟩

/-- A simulator that has just been loaded has not failed. -/
theorem failure_of_load {configuration : Configuration} {kind : PredictorKind}
    {executable : Executable} {output : Output}
    (loads : load configuration kind executable output = .ok before) : before.failure = none := by
  rcases bind_eq_ok_iff.mp loads with ⟨processor, -, done⟩
  cases done
  rfl

/-- How a run of a simulator that has not failed comes to its end. -/
inductive Pursues : Simulator → RunEnd → Simulator → Prop
  | stopped {simulator after : Simulator} {reason : StopReason} {watched : WatchedValues}
      (sound : reason ≠ .failed) (looked : simulator.LookedAt after) :
      Pursues simulator (.stopped reason watched) after
  | exited {simulator after : Simulator} {trace : CycleTrace}
      (advances : simulator.Advances (.ok (trace, .exit)) after) : Pursues simulator .exited after
  | failed {simulator middle after : Simulator} {fault : Fault} {watched : WatchedValues}
      (advances : simulator.Advances (.error fault) middle) (looked : middle.LookedAt after) :
      Pursues simulator (.stopped .failed watched) after
  | proceeded {simulator middle after : Simulator} {trace : CycleTrace} {ending : RunEnd}
      (advances : simulator.Advances (.ok (trace, .proceed)) middle)
      (later : Pursues middle ending after) : Pursues simulator ending after

theorem Goal.met_ne_failed {goal : Goal} {cycle : Nat} {reason : StopReason}
    (met : goal.met? cycle = some reason) : reason ≠ .failed := by
  rintro rfl
  cases goal with
  | endless => cases met
  | reach awaited entered =>
    rw [Goal.met?] at met
    split at met <;> cases met
  | remaining count =>
    rw [Goal.met?] at met
    split at met <;> cases met

variable {β γ : Type} {options : Options} {observe : Observer β} {budget : Nat} {goal : Goal}
  {simulator : Simulator} {seen shown : β} {ending : RunEnd}

theorem pursues_of_pursue
    (ran : pursue options observe budget goal simulator seen = some (ending, after, shown)) :
    simulator.Pursues ending after := by
  fun_induction pursue options observe budget goal simulator seen with
  | case1 budget goal simulator seen reason met ended stopped stops =>
    cases ran
    rcases lookedAt_of_stop stops with ⟨⟨watched, rfl⟩, looked⟩
    exact .stopped (Goal.met_ne_failed met) looked
  | case2 goal simulator seen unmet => cases ran
  | case3 goal simulator seen unmet budget fault middle advances ended stopped stops =>
    cases ran
    rcases lookedAt_of_stop stops with ⟨⟨watched, rfl⟩, looked⟩
    exact .failed (advances_of_advance advances) looked
  | case4 goal simulator seen unmet budget trace middle noted advances =>
    clear_value noted
    cases ran
    exact .exited (advances_of_advance advances)
  | case5 goal simulator seen unmet budget trace middle noted breakpoint hit ended stopped stops
      advances =>
    clear_value noted
    cases ran
    rcases lookedAt_of_stop stops with ⟨⟨watched, rfl⟩, looked⟩
    exact .proceeded (advances_of_advance advances) (.stopped nofun looked)
  | case6 goal simulator seen unmet budget trace middle noted unhit advances
      inductionHypothesis =>
    exact .proceeded (advances_of_advance advances) (inductionHypothesis ran)

/-- A call for a run. -/
inductive Runs (before : Simulator) : RunEnd → Simulator → Prop
  | refused {after : Simulator} {fault : Fault} {watched : WatchedValues}
      (failure : before.failure = some fault) (looked : before.LookedAt after) :
      Runs before (.stopped .cannotRestart watched) after
  | pursued {after : Simulator} {ending : RunEnd} (sound : before.failure = none)
      (pursues : before.Pursues ending after) : Runs before ending after

theorem runs_of_run
    (ran : run options observe budget simulator seen = some (ending, after, shown)) :
    simulator.Runs ending after := by
  unfold run at ran
  cases failure : simulator.failure with
  | some fault =>
    simp only [failure] at ran
    cases stops : simulator.stop options .cannotRestart with
    | mk ended stopped =>
      rw [stops] at ran
      cases ran
      rcases lookedAt_of_stop stops with ⟨⟨watched, rfl⟩, looked⟩
      exact .refused failure looked
  | none =>
    simp only [failure] at ran
    exact .pursued failure (pursues_of_pursue ran)

/-- What is observed, and by whom, makes no difference to a run. -/
theorem pursue_of_observer
    (ran : pursue options observe budget goal simulator seen = some (ending, after, shown))
    (other : Observer γ) (instead : γ) :
    ∃ result, pursue options other budget goal simulator instead =
      some (ending, after, result) := by
  fun_induction pursue options observe budget goal simulator seen generalizing instead with
  | case1 budget goal simulator seen reason met ended stopped stops =>
    cases ran
    refine ⟨instead, ?_⟩
    unfold pursue
    simp only [met, stops]
  | case2 goal simulator seen unmet => cases ran
  | case3 goal simulator seen unmet budget fault middle advances ended stopped stops =>
    cases ran
    rw [pursue, unmet]
    simp only [advances, stops]
    exact ⟨_, rfl⟩
  | case4 goal simulator seen unmet budget trace middle noted advances =>
    clear_value noted
    cases ran
    rw [pursue, unmet]
    simp only [advances]
    exact ⟨_, rfl⟩
  | case5 goal simulator seen unmet budget trace middle noted breakpoint hit ended stopped stops
      advances =>
    clear_value noted
    cases ran
    rw [pursue, unmet]
    simp only [advances, hit, stops]
    exact ⟨_, rfl⟩
  | case6 goal simulator seen unmet budget trace middle noted unhit advances
      inductionHypothesis =>
    rw [pursue, unmet]
    simp only [advances, unhit]
    exact inductionHypothesis ran _

theorem run_of_observer
    (ran : run options observe budget simulator seen = some (ending, after, shown))
    (other : Observer γ) (instead : γ) :
    ∃ result, run options other budget simulator instead = some (ending, after, result) := by
  unfold run at ran ⊢
  cases failure : simulator.failure with
  | some fault =>
    rw [failure] at ran
    cases ran
    exact ⟨instead, rfl⟩
  | none =>
    rw [failure] at ran
    exact pursue_of_observer ran other instead

end

end Simulator
end BranchPipeline
