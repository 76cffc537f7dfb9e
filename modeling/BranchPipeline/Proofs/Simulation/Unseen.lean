import BranchPipeline.Proofs.Simulation.Calls

namespace BranchPipeline
namespace Simulator

/-!
# Looks do not steer a run

Two simulators that differ in their counts of accesses only, asked for the same
run, take the same cycles and come to the same kind of end, whatever is watched
and whoever observes them.  So a session cannot be told from one with other
looks by where it has led.
-/

variable {first second after reached : Simulator}

theorem SameButAccesses.symm (same : first.SameButAccesses second) :
    second.SameButAccesses first := by
  rcases same with ⟨_, rfl⟩
  exact ⟨first.processor.machine.accesses, rfl⟩

theorem SameButAccesses.cycle_eq (same : first.SameButAccesses second) :
    second.cycle = first.cycle :=
  same.lookedAt.processor.cycle_eq

/-- The same cycle, with the same trace or the same fault. -/
theorem SameButAccesses.advance {result other : Except Fault (CycleTrace × Flow)}
    (same : first.SameButAccesses second) (one : first.advance = (result, after))
    (two : second.advance = (other, reached)) :
    other = result ∧ after.SameButAccesses reached := by
  have alike := same.lookedAt.processor.runCycle
  rcases same with ⟨accesses, rfl⟩
  unfold Simulator.advance at one two
  cases ran : first.processor.runCycle with
  | mk outcome processor =>
    cases repeated : (first.processor.withAccesses accesses).runCycle with
    | mk outcome' processor' =>
      rw [ran, repeated] at alike
      rcases alike with ⟨rfl, ⟨changed, rfl⟩⟩
      simp only [ran] at one
      simp only [repeated] at two
      cases outcome with
      | ok done =>
        cases one
        cases two
        exact ⟨rfl, changed, rfl⟩
      | error fault =>
        cases one
        cases two
        exact ⟨rfl, changed, rfl⟩

variable {β γ : Type} {options others : Options} {observe : Observer β} {watch : Observer γ}
  {budget spare : Nat} {goal : Goal} {seen shown : β} {instead told : γ}
  {ending ended : RunEnd}

/-- Both runs exit, or neither does. -/
def SameEnd (first second : RunEnd) : Prop := first = .exited ↔ second = .exited

theorem SameButAccesses.stop {reason other : StopReason}
    (same : first.SameButAccesses second)
    (one : first.stop options reason = (ending, after))
    (two : second.stop others other = (ended, reached)) :
    SameEnd ending ended ∧ after.SameButAccesses reached := by
  rcases sameButAccesses_of_stop one with ⟨⟨watched, rfl⟩, looked⟩
  rcases sameButAccesses_of_stop two with ⟨⟨elsewhere, rfl⟩, lookedToo⟩
  exact ⟨⟨nofun, nofun⟩, looked.symm.trans (same.trans lookedToo)⟩

/-- A run whose goal is not met yet takes the next cycle, and so does the other. -/
theorem SameButAccesses.exists_advance {result : Except Fault (CycleTrace × Flow)}
    (same : first.SameButAccesses second) (unmet : goal.met? first.cycle = none)
    (one : first.advance = (result, after))
    (two : pursue others watch spare goal second instead = some (ended, reached, told)) :
    ∃ fewer middle, spare = fewer + 1 ∧ goal.met? second.cycle = none ∧
      second.advance = (result, middle) ∧ after.SameButAccesses middle := by
  have still : goal.met? second.cycle = none := same.cycle_eq ▸ unmet
  cases spare with
  | zero =>
    rw [Simulator.pursue, still] at two
    cases two
  | succ fewer =>
    cases advances : second.advance with
    | mk other middle =>
      rcases same.advance one advances with ⟨rfl, alike⟩
      exact ⟨fewer, middle, rfl, still, rfl, alike⟩

theorem SameButAccesses.pursue (same : first.SameButAccesses second)
    (breakpoints : others.breakpoints = options.breakpoints)
    (one : pursue options observe budget goal first seen = some (ending, after, shown))
    (two : pursue others watch spare goal second instead = some (ended, reached, told)) :
    SameEnd ending ended ∧ after.SameButAccesses reached := by
  fun_induction Simulator.pursue options observe budget goal first seen
    generalizing second spare instead with
  | case1 budget goal first seen reason met stoppedEnd stopped stops =>
    cases one
    unfold Simulator.pursue at two
    simp only [same.cycle_eq, met] at two
    cases other : second.stop others reason with
    | mk otherEnd otherStopped =>
      rw [other] at two
      cases two
      exact same.stop stops other
  | case2 goal first seen unmet => cases one
  | case3 goal first seen unmet budget fault middle advances stoppedEnd stopped stops =>
    cases one
    rcases same.exists_advance unmet advances two with ⟨fewer, between, rfl, still, repeats, alike⟩
    rw [Simulator.pursue, still] at two
    simp only [repeats] at two
    cases other : between.stop others .failed with
    | mk otherEnd otherStopped =>
      rw [other] at two
      cases two
      exact alike.stop stops other
  | case4 goal first seen unmet budget trace middle noted =>
    rename_i advances
    clear_value noted
    cases one
    rcases same.exists_advance unmet advances two with ⟨fewer, between, rfl, still, repeats, alike⟩
    rw [Simulator.pursue, still] at two
    simp only [repeats] at two
    cases two
    exact ⟨Iff.rfl, alike⟩
  | case5 goal first seen unmet budget trace middle noted breakpoint hit stoppedEnd stopped stops =>
    rename_i advances
    clear_value noted
    cases one
    rcases same.exists_advance unmet advances two with ⟨fewer, between, rfl, still, repeats, alike⟩
    rw [Simulator.pursue, still] at two
    simp only [repeats, breakpoints, hit] at two
    cases other : between.stop others (.breakpoint breakpoint.id) with
    | mk otherEnd otherStopped =>
      rw [other] at two
      cases two
      exact alike.stop stops other
  | case6 goal first seen unmet budget trace middle noted unhit advances =>
    rename_i inductionHypothesis
    rcases same.exists_advance unmet advances two with ⟨fewer, between, rfl, still, repeats, alike⟩
    rw [Simulator.pursue, still] at two
    simp only [repeats, breakpoints, unhit] at two
    exact inductionHypothesis alike one two

/-- Where a run leads does not depend on what is watched. -/
theorem SameButAccesses.run (same : first.SameButAccesses second)
    (mode : others.mode = options.mode) (breakpoints : others.breakpoints = options.breakpoints)
    (one : run options observe budget first seen = some (ending, after, shown))
    (two : run others watch spare second instead = some (ended, reached, told)) :
    SameEnd ending ended ∧ after.SameButAccesses reached := by
  unfold Simulator.run at one two
  rw [same.failure_eq] at two
  cases failure : first.failure with
  | some fault =>
    simp only [failure] at one two
    cases stops : first.stop options .cannotRestart with
    | mk stoppedEnd stopped =>
      cases other : second.stop others .cannotRestart with
      | mk otherEnd otherStopped =>
        rw [stops] at one
        rw [other] at two
        cases one
        cases two
        exact same.stop stops other
  | none =>
    simp only [failure, mode] at one two
    exact same.pursue breakpoints one two

end Simulator
end BranchPipeline
