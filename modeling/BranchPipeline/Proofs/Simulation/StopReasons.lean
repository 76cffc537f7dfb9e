import BranchPipeline.Proofs.Simulation.Calls

namespace BranchPipeline

/-!
# Where a run stops

A run goes on cycle by cycle until there is a reason to stop.  A fault comes
before the exit of the program, the exit before a breakpoint, a breakpoint
before the mode; and of several breakpoints it is the one with the smallest
number that is reported.  What a mode asks for is described by counting cycles
from the entry of the run, without the goal that the run carries along.
-/

/-! ## Breakpoints -/

namespace BreakCondition

/-- What a condition waits for: the number of a cycle, or what is executed in it. -/
inductive Meets (number : Nat) (executed : Option MicroOp) : BreakCondition → Prop
  | opcode {op : MicroOp} (executes : executed = some op) :
      Meets number executed (.opcode op.opcode)
  | operand {op : MicroOp} (executes : executed = some op) :
      Meets number executed (.operand op.operandText)
  | cycle : Meets number executed (.cycle number)

theorem hits_iff {condition : BreakCondition} {number : Nat} {executed : Option MicroOp} :
    condition.hits number executed = true ↔ Meets number executed condition := by
  constructor
  · intro hits
    cases condition with
    | cycle awaited =>
      rw [beq_iff_eq.mp hits]
      exact .cycle
    | opcode awaited =>
      rcases (Option.any_eq_true _ _).mp hits with ⟨op, executes, same⟩
      rw [← beq_iff_eq.mp same]
      exact .opcode executes
    | operand text =>
      rcases (Option.any_eq_true _ _).mp hits with ⟨op, executes, same⟩
      rw [← beq_iff_eq.mp same]
      exact .operand executes
  · rintro (executes | executes | _)
    · exact executes ▸ beq_self_eq_true _
    · exact executes ▸ beq_self_eq_true _
    · exact beq_self_eq_true _

end BreakCondition

namespace Breakpoints

variable {breakpoints : Breakpoints} {number : Nat} {executed : Option MicroOp}
  {breakpoint : Breakpoint}

/-- Each number is given once, and the numbers increase. -/
def Ordered (breakpoints : Breakpoints) : Prop :=
  breakpoints.Pairwise fun first second => first.id < second.id

theorem mem_insert {added : Breakpoint} (member : breakpoint ∈ breakpoints.insert added) :
    breakpoint = added ∨ breakpoint ∈ breakpoints := by
  induction breakpoints with
  | nil => exact Or.inl (List.mem_singleton.mp member)
  | cons first rest inductionHypothesis =>
    rw [insert] at member
    split at member
    · exact List.mem_cons.mp member
    · split at member
      · exact (List.mem_cons.mp member).imp_right (List.mem_cons_of_mem _)
      · rcases List.mem_cons.mp member with rfl | later
        · exact Or.inr List.mem_cons_self
        · exact (inductionHypothesis later).imp_right (List.mem_cons_of_mem _)

theorem Ordered.insert (ordered : breakpoints.Ordered) (added : Breakpoint) :
    (breakpoints.insert added).Ordered := by
  induction ordered with
  | nil => exact List.pairwise_singleton _ _
  | @cons first rest least ordered inductionHypothesis =>
    rw [Breakpoints.insert]
    split
    · rename_i before
      refine .cons ?_ (.cons least ordered)
      intro other member
      rcases List.mem_cons.mp member with rfl | later
      · exact before
      · exact Nat.lt_trans before (least other later)
    · split
      · rename_i same
        refine .cons ?_ ordered
        intro other member
        rw [same]
        exact least other member
      · rename_i notBefore different
        refine .cons ?_ inductionHypothesis
        intro other member
        rcases mem_insert member with rfl | later
        · exact Nat.lt_of_le_of_ne (Nat.le_of_not_lt notBefore) (Ne.symm different)
        · exact least other later

theorem Ordered.erase (ordered : breakpoints.Ordered) (id : Nat) :
    (breakpoints.erase id).Ordered :=
  List.Pairwise.filter _ ordered

/-- The breakpoint waits for a cycle of this number that executes this. -/
def Hits (breakpoints : Breakpoints) (number : Nat) (executed : Option MicroOp)
    (breakpoint : Breakpoint) : Prop :=
  breakpoint ∈ breakpoints ∧ breakpoint.condition.Meets number executed

theorem hit?_eq_none_iff :
    breakpoints.hit? number executed = none ↔
      ∀ breakpoint, ¬ breakpoints.Hits number executed breakpoint := by
  rw [hit?, List.find?_eq_none]
  simp only [BreakCondition.hits_iff, Hits, not_and]

/-- Breakpoints in order are hit by their smallest number. -/
theorem Ordered.least_of_hit? (ordered : breakpoints.Ordered)
    (hit : breakpoints.hit? number executed = some breakpoint) :
    breakpoints.Hits number executed breakpoint ∧
      ∀ other, breakpoints.Hits number executed other → breakpoint.id ≤ other.id := by
  rcases List.find?_eq_some_iff_append.mp hit with ⟨hits, earlier, later, rfl, missed⟩
  refine ⟨⟨List.mem_append_right _ List.mem_cons_self, BreakCondition.hits_iff.mp hits⟩, ?_⟩
  rintro other ⟨member, meets⟩
  have order := (List.pairwise_cons.mp (List.pairwise_append.mp ordered).2.1).1
  rcases List.mem_append.mp member with before | behind
  · have unmet := missed other before
    rw [BreakCondition.hits_iff.mpr meets] at unmet
    cases unmet
  · rcases List.mem_cons.mp behind with rfl | behind
    · exact Nat.le_refl _
    · exact Nat.le_of_lt (order other behind)

theorem Ordered.exists_hit? (ordered : breakpoints.Ordered)
    (hits : breakpoints.Hits number executed breakpoint)
    (least : ∀ other, breakpoints.Hits number executed other → breakpoint.id ≤ other.id) :
    ∃ found, breakpoints.hit? number executed = some found ∧ found.id = breakpoint.id := by
  cases hit : breakpoints.hit? number executed with
  | none => exact absurd hits (hit?_eq_none_iff.mp hit breakpoint)
  | some found =>
    rcases ordered.least_of_hit? hit with ⟨present, first⟩
    exact ⟨found, rfl, Nat.le_antisymm (first breakpoint hits) (least found present)⟩

end Breakpoints

/-! ## Modes -/

namespace Mode

/-- Whether a mode is satisfied, and what is reported then.  The first number is
the count of cycles on entry, the second the present one; the third says how
many cycles have been run since. -/
def satisfied? (entry cycle count : Nat) : Mode → Option StopReason
  | .free => none
  | .until awaited => if cycle = max awaited (entry + 1) then some (.reached awaited) else none
  | .steps asked => if count = asked.getD 1 then some .stepsDone else none

/-- The goal that is left after so many cycles. -/
def goal (mode : Mode) (count : Nat) : Simulator.Goal :=
  match mode with
  | .free => .endless
  | .until awaited => .reach awaited (decide (0 < count))
  | .steps asked => .remaining (asked.getD 1 - count)

theorem goal_zero (mode : Mode) : mode.goal 0 = .ofMode mode := by
  cases mode <;> rfl

theorem goal_succ (mode : Mode) (count : Nat) :
    mode.goal (count + 1) = (mode.goal count).afterCycle := by
  cases mode with
  | free => rfl
  | «until» awaited =>
    rw [goal, goal, Simulator.Goal.afterCycle, decide_eq_true (Nat.succ_pos count)]
  | steps asked => rfl

/-- What a mode asks for has not been passed. -/
def Within (entry cycle count : Nat) : Mode → Prop
  | .free => True
  | .until awaited => cycle ≤ max awaited (entry + 1)
  | .steps asked => count ≤ asked.getD 1

theorem within_start (entry : Nat) (mode : Mode) : mode.Within entry entry 0 := by
  cases mode with
  | free => trivial
  | «until» awaited => exact Nat.le_trans (Nat.le_succ entry) (Nat.le_max_right _ _)
  | steps asked => exact Nat.zero_le _

/-- As long as a mode is not satisfied, there is room for one more cycle. -/
theorem Within.next {entry cycle count : Nat} {mode : Mode} (within : mode.Within entry cycle count)
    (unsatisfied : mode.satisfied? entry cycle count = none) :
    mode.Within entry (cycle + 1) (count + 1) := by
  cases mode with
  | free => trivial
  | «until» awaited =>
    rw [satisfied?, ite_eq_right_iff] at unsatisfied
    exact Nat.lt_of_le_of_ne within fun same => nomatch unsatisfied same
  | steps asked =>
    rw [satisfied?, ite_eq_right_iff] at unsatisfied
    exact Nat.lt_of_le_of_ne within fun same => nomatch unsatisfied same

/-- A goal is met exactly where the mode is satisfied. -/
theorem Within.met?_goal {entry count : Nat} {mode : Mode}
    (within : mode.Within entry (entry + count) count) :
    (mode.goal count).met? (entry + count) = mode.satisfied? entry (entry + count) count := by
  cases mode with
  | free => rfl
  | «until» awaited =>
    have reached : (0 < count ∧ awaited ≤ entry + count) ↔
        entry + count = max awaited (entry + 1) := by
      rw [Within] at within
      omega
    simp only [goal, Simulator.Goal.met?, satisfied?, Bool.and_eq_true, decide_eq_true_eq, reached]
  | steps asked =>
    have done : asked.getD 1 - count = 0 ↔ count = asked.getD 1 := by
      rw [Within] at within
      omega
    simp only [goal, Simulator.Goal.met?, satisfied?, done]

end Mode

namespace Simulator

variable {β : Type} {options : Options} {observe : Observer β} {start last before after : Simulator}
  {cycles observed : List (Processor × CycleTrace)} {budget count : Nat} {ending : RunEnd}

/-! ## Cycles without a reason to stop -/

/-- After these cycles no reason to stop has come up in them, and none before
the last of them.  Each one is listed with the processor that it has left. -/
inductive Quiet (options : Options) (start : Simulator) :
    List (Processor × CycleTrace) → Simulator → Prop
  | start : Quiet options start [] start
  | next {cycles : List (Processor × CycleTrace)} {before after : Simulator} {trace : CycleTrace}
      (earlier : Quiet options start cycles before)
      (unsatisfied : options.mode.satisfied? start.cycle before.cycle cycles.length = none)
      (advances : before.advance = (.ok (trace, .proceed), after))
      (unhit : ∀ breakpoint, ¬ options.breakpoints.Hits before.cycle trace.executed breakpoint) :
      Quiet options start (cycles ++ [(after.processor, trace)]) after

/-- What happens to a run: the cycles that did not fail, the number of all of
them, and how the run ends. -/
inductive StopsAfter (options : Options) (start : Simulator) :
    List (Processor × CycleTrace) → Nat → RunEnd → Simulator → Prop
  | satisfied {cycles : List (Processor × CycleTrace)} {last : Simulator} {reason : StopReason}
      (quiet : Quiet options start cycles last)
      (satisfied : options.mode.satisfied? start.cycle last.cycle cycles.length = some reason) :
      StopsAfter options start cycles cycles.length
        (.stopped reason (last.gather options.watchings).1) (last.gather options.watchings).2
  | failed {cycles : List (Processor × CycleTrace)} {before after : Simulator} {fault : Fault}
      (quiet : Quiet options start cycles before)
      (unsatisfied : options.mode.satisfied? start.cycle before.cycle cycles.length = none)
      (fails : before.advance = (.error fault, after)) :
      StopsAfter options start cycles (cycles.length + 1)
        (.stopped .failed (after.gather options.watchings).1) (after.gather options.watchings).2
  | exited {cycles : List (Processor × CycleTrace)} {before after : Simulator} {trace : CycleTrace}
      (quiet : Quiet options start cycles before)
      (unsatisfied : options.mode.satisfied? start.cycle before.cycle cycles.length = none)
      (exits : before.advance = (.ok (trace, .exit), after)) :
      StopsAfter options start (cycles ++ [(after.processor, trace)]) (cycles.length + 1)
        .exited after
  | hit {cycles : List (Processor × CycleTrace)} {before after : Simulator} {trace : CycleTrace}
      {breakpoint : Breakpoint} (quiet : Quiet options start cycles before)
      (unsatisfied : options.mode.satisfied? start.cycle before.cycle cycles.length = none)
      (advances : before.advance = (.ok (trace, .proceed), after))
      (hits : options.breakpoints.Hits before.cycle trace.executed breakpoint)
      (least : ∀ other, options.breakpoints.Hits before.cycle trace.executed other →
        breakpoint.id ≤ other.id) :
      StopsAfter options start (cycles ++ [(after.processor, trace)]) (cycles.length + 1)
        (.stopped (.breakpoint breakpoint.id) (after.gather options.watchings).1)
        (after.gather options.watchings).2

/-- A cycle after which a run goes on has the number of the cycles before it, and
is counted. -/
theorem cycle_of_advance {trace : CycleTrace}
    (advances : before.advance = (.ok (trace, .proceed), after)) :
    trace.cycle = before.cycle ∧ after.cycle = before.cycle + 1 := by
  rcases advances_of_advance advances with ⟨-, ran⟩
  cases running : before.processor.running with
  | true => exact Processor.counted_of_runCycle running ran
  | false =>
    rw [Processor.runCycle_of_stopped running] at ran
    cases ran

theorem Quiet.cycle_eq (quiet : Quiet options start cycles last) :
    last.cycle = start.cycle + cycles.length := by
  induction quiet with
  | start => rfl
  | next earlier unsatisfied advances unhit inductionHypothesis =>
    rw [(cycle_of_advance advances).2, inductionHypothesis, List.length_append]
    rfl

theorem Quiet.within (quiet : Quiet options start cycles last) :
    options.mode.Within start.cycle last.cycle cycles.length := by
  induction quiet with
  | start => exact options.mode.within_start start.cycle
  | next earlier unsatisfied advances unhit inductionHypothesis =>
    rw [(cycle_of_advance advances).2, List.length_append]
    exact inductionHypothesis.next unsatisfied

/-- After quiet cycles the goal that is left says what the mode says. -/
theorem Quiet.met?_goal (quiet : Quiet options start cycles last) :
    (options.mode.goal cycles.length).met? last.cycle =
      options.mode.satisfied? start.cycle last.cycle cycles.length := by
  have within := quiet.within
  rw [quiet.cycle_eq] at within ⊢
  exact within.met?_goal

/-! ## The run -/

/-- What an observer has seen of the cycles. -/
def shown (options : Options) (observe : Observer β) (cycles : List (Processor × CycleTrace))
    (seen : β) : β :=
  if options.tracing then cycles.foldl (fun seen cycle => observe cycle.1 cycle.2 seen) seen
  else seen

theorem shown_append (processor : Processor) (trace : CycleTrace) (seen : β) :
    shown options observe (cycles ++ [(processor, trace)]) seen =
      if options.tracing then observe processor trace (shown options observe cycles seen)
      else shown options observe cycles seen := by
  unfold shown
  split
  · rw [List.foldl_append]
    rfl
  · rfl

/-- A run passes quiet cycles and goes on from where they lead to. -/
theorem Quiet.pursue_eq (quiet : Quiet options start cycles last) (budget : Nat) (seen : β) :
    pursue options observe (cycles.length + budget) (.ofMode options.mode) start seen =
      pursue options observe budget (options.mode.goal cycles.length) last
        (shown options observe cycles seen) := by
  induction quiet generalizing budget with
  | start =>
    rw [List.length_nil, Nat.zero_add, Mode.goal_zero]
    unfold shown
    rw [List.foldl_nil, ite_self]
  | @next cycles before after trace earlier unsatisfied advances unhit inductionHypothesis =>
    have missed := Breakpoints.hit?_eq_none_iff.mpr unhit
    rw [← (cycle_of_advance advances).1] at missed
    rw [List.length_append, List.length_singleton, Nat.add_assoc, Nat.add_comm 1,
      inductionHypothesis, pursue, earlier.met?_goal, unsatisfied]
    simp only [advances, missed]
    rw [shown_append, Mode.goal_succ]

theorem run_eq_pursue (sound : start.failure = none) (budget : Nat) (seen : β) :
    run options observe budget start seen =
      pursue options observe budget (.ofMode options.mode) start seen := by
  rw [run, sound]

/-- A run that is given enough cycles ends as described. -/
theorem StopsAfter.run_eq (stops : StopsAfter options start observed count ending after)
    (sound : start.failure = none) (ordered : options.breakpoints.Ordered)
    (enough : count ≤ budget) (seen : β) :
    run options observe budget start seen =
      some (ending, after, shown options observe observed seen) := by
  rcases Nat.exists_eq_add_of_le enough with ⟨more, rfl⟩
  rw [run_eq_pursue sound]
  cases stops with
  | satisfied quiet satisfied =>
    rw [quiet.pursue_eq]
    unfold pursue
    rw [quiet.met?_goal, satisfied]
    rfl
  | failed quiet unsatisfied fails =>
    rw [Nat.add_right_comm, Nat.add_assoc, quiet.pursue_eq, pursue, quiet.met?_goal, unsatisfied]
    simp only [fails]
    rfl
  | exited quiet unsatisfied exits =>
    rw [Nat.add_right_comm, Nat.add_assoc, quiet.pursue_eq, pursue, quiet.met?_goal, unsatisfied,
      shown_append]
    simp only [exits]
  | hit quiet unsatisfied advances hits least =>
    rcases ordered.exists_hit? hits least with ⟨found, hit, same⟩
    rw [← (cycle_of_advance advances).1] at hit
    rw [Nat.add_right_comm, Nat.add_assoc, quiet.pursue_eq, pursue, quiet.met?_goal, unsatisfied,
      shown_append, ← same]
    simp only [advances, hit]
    rfl

/-- One more cycle of a run that is quiet and goes on: it stops, or stays quiet. -/
theorem Quiet.stops_or_next (quiet : Quiet options start cycles before)
    (ordered : options.breakpoints.Ordered)
    (unsatisfied : options.mode.satisfied? start.cycle before.cycle cycles.length = none) :
    (∃ observed ending after,
      StopsAfter options start observed (cycles.length + 1) ending after) ∨
    ∃ trace after, Quiet options start (cycles ++ [(after.processor, trace)]) after := by
  cases advances : before.advance with
  | mk result after =>
    match result with
    | .error fault => exact Or.inl ⟨_, _, _, .failed quiet unsatisfied advances⟩
    | .ok (trace, .exit) => exact Or.inl ⟨_, _, _, .exited quiet unsatisfied advances⟩
    | .ok (trace, .proceed) =>
      cases hit : options.breakpoints.hit? before.cycle trace.executed with
      | some breakpoint =>
        rcases ordered.least_of_hit? hit with ⟨hits, least⟩
        exact Or.inl ⟨_, _, _, .hit quiet unsatisfied advances hits least⟩
      | none =>
        have unhit := Breakpoints.hit?_eq_none_iff.mp hit
        exact Or.inr ⟨trace, after, .next quiet unsatisfied advances unhit⟩

/-- Within so many cycles a run has stopped, or it has been quiet and goes on. -/
theorem stops_or_quiet (ordered : options.breakpoints.Ordered) (start : Simulator) (budget : Nat) :
    (∃ observed count ending after, count ≤ budget ∧
      StopsAfter options start observed count ending after) ∨
    ∃ cycles last, cycles.length = budget ∧ Quiet options start cycles last ∧
      options.mode.satisfied? start.cycle last.cycle cycles.length = none := by
  -- where a mode is satisfied the run stops, and this is looked at after every cycle
  have satisfied_or_not {cycles : List (Processor × CycleTrace)} {last : Simulator}
      (quiet : Quiet options start cycles last) :
      (∃ observed count ending after, count ≤ cycles.length ∧
        StopsAfter options start observed count ending after) ∨
      options.mode.satisfied? start.cycle last.cycle cycles.length = none := by
    cases satisfied : options.mode.satisfied? start.cycle last.cycle cycles.length with
    | none => exact Or.inr rfl
    | some reason =>
      exact Or.inl ⟨_, _, _, _, Nat.le_refl _, .satisfied quiet satisfied⟩
  induction budget with
  | zero =>
    exact (satisfied_or_not .start).imp_right fun unsatisfied =>
      ⟨[], start, rfl, .start, unsatisfied⟩
  | succ budget inductionHypothesis =>
    rcases inductionHypothesis with ⟨observed, count, ending, after, few, stops⟩ |
      ⟨cycles, before, rfl, quiet, unsatisfied⟩
    · exact Or.inl ⟨observed, count, ending, after, Nat.le_succ_of_le few, stops⟩
    · rcases quiet.stops_or_next ordered unsatisfied with ⟨observed, ending, after, stops⟩ |
        ⟨trace, after, later⟩
      · exact Or.inl ⟨observed, _, ending, after, Nat.le_refl _, stops⟩
      · have length : (cycles ++ [(after.processor, trace)]).length = cycles.length + 1 :=
          List.length_append
        rw [← length]
        exact (satisfied_or_not later).imp_right fun unsatisfied =>
          ⟨_, after, rfl, later, unsatisfied⟩

/-- A quiet run that goes on has used up its cycles and has no result yet. -/
theorem Quiet.run_eq_none (quiet : Quiet options start cycles last) (sound : start.failure = none)
    (unsatisfied : options.mode.satisfied? start.cycle last.cycle cycles.length = none)
    (seen : β) : run options observe cycles.length start seen = none := by
  rw [run_eq_pursue sound, ← Nat.add_zero cycles.length, quiet.pursue_eq, pursue, quiet.met?_goal,
    unsatisfied]

/-- A run stops exactly where its mode says.  A simulator that has not failed,
with breakpoints in order, runs its cycles until the first reason to stop: a
cycle fails; or the program exits; or a breakpoint is hit, of which the one
with the smallest number is reported; or the mode is satisfied, which is looked
at before every cycle.  This is the result of a run exactly if it has been given
enough cycles, and the observer has then been shown each cycle that did not
fail, in order, if it was asked for.  If no reason to stop ever comes up, the
run is quiet for any number of cycles. -/
theorem run_stops_as_asked {options : Options} {start : Simulator} (sound : start.failure = none)
    (ordered : options.breakpoints.Ordered) :
    (∀ {β : Type} (observe : Observer β) (budget : Nat) (seen result : β) ending after,
      run options observe budget start seen = some (ending, after, result) ↔
        ∃ observed count, count ≤ budget ∧
          StopsAfter options start observed count ending after ∧
          result = shown options observe observed seen) ∧
    ((∃ observed count ending after, StopsAfter options start observed count ending after) ∨
      ∀ count, ∃ cycles last, cycles.length = count ∧ Quiet options start cycles last) := by
  constructor
  · intro β observe budget seen result ending after
    constructor
    · intro ran
      rcases stops_or_quiet ordered start budget with ⟨observed, count, ended, last, few, stops⟩ |
        ⟨cycles, last, rfl, quiet, unsatisfied⟩
      · rw [stops.run_eq sound ordered few] at ran
        cases ran
        exact ⟨observed, count, few, stops, rfl⟩
      · rw [quiet.run_eq_none sound unsatisfied] at ran
        cases ran
    · rintro ⟨observed, count, few, stops, rfl⟩
      exact stops.run_eq sound ordered few seen
  · by_cases stops : ∃ observed count ending after,
        StopsAfter options start observed count ending after
    · exact Or.inl stops
    · refine Or.inr fun count => ?_
      rcases stops_or_quiet ordered start count with ⟨observed, number, ending, after, -, ends⟩ |
        ⟨cycles, last, length, quiet, -⟩
      · exact absurd ⟨observed, number, ending, after, ends⟩ stops
      · exact ⟨cycles, last, length, quiet⟩

/-- Two steps, with two breakpoints for the second of them. -/
def crowdedStep : Options where
  tracing := true
  mode := .steps (some 2)
  breakpoints := Breakpoints.insert ⟨1, .cycle 1⟩ [⟨2, .cycle 1⟩]

/-- The breakpoint with the smaller number comes before the other one, and
before the end of the two steps.  Both cycles have been shown. -/
theorem run_stops_as_asked_crowded :
    ∃ start observed count watched after,
      load { memorySize := 8 } .twoBit (.ofParts ["noop", "noop", "noop"] []) .accepting =
        .ok start ∧
      StopsAfter crowdedStep start observed count (.stopped (.breakpoint 1) watched) after ∧
      observed.length = 2 := by
  have computed : (load { memorySize := 8 } .twoBit (.ofParts ["noop", "noop", "noop"] [])
      .accepting).toOption.any (fun start =>
        (run crowdedStep (fun _ _ count => count + 1) 2 start 0).any fun result =>
          match result.1 with
          | .stopped (.breakpoint 1) _ => result.2.2 == 2
          | _ => false) = true := by
    decide +kernel
  cases loads : load { memorySize := 8 } .twoBit (.ofParts ["noop", "noop", "noop"] [])
      .accepting with
  | error fault =>
    rw [loads] at computed
    cases computed
  | ok start =>
    rw [loads] at computed
    rcases (Option.any_eq_true _ _).mp computed with ⟨_, ⟨⟩, computed⟩
    rcases (Option.any_eq_true _ _).mp computed with ⟨⟨ending, after, number⟩, ran, checked⟩
    have single : Breakpoints.Ordered [⟨2, .cycle 1⟩] := List.pairwise_singleton _ _
    have ordered : crowdedStep.breakpoints.Ordered := single.insert ⟨1, .cycle 1⟩
    rcases ((run_stops_as_asked (failure_of_load loads) ordered).1 _ 2 0 number ending
      after).mp ran with ⟨observed, count, -, stops, rfl⟩
    have length : shown crowdedStep (fun _ _ count => count + 1) observed 0 = observed.length := by
      show observed.foldl (fun count _ => count + 1) 0 = observed.length
      rw [List.foldl_add_const, Nat.one_mul, Nat.zero_add]
    dsimp only at checked
    split at checked
    · rename_i watched
      rw [length, beq_iff_eq] at checked
      exact ⟨start, observed, count, watched, after, rfl, stops, checked⟩
    · cases checked

end Simulator
end BranchPipeline
